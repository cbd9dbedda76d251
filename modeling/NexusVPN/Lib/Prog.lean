/-! # Programs over an interface

    A program is a tree of calls to an interface, each continued by a function of its answer.
    The same text has a sequential meaning (`exec` under a handler) and a concurrent one, in
    which its calls are the atomic steps that other threads may fall between.

    * `Handler`, `exec`: what each call does to a shared state.  Whatever the call reads from
      outside (a clock, a random source, the order of a map) is an input of type `ι`.
    * `wp`: the weakest precondition over all inputs; `wpe` for programs that may fail.
    * `Made`, `logged`: the calls of a program as they were made.
    * `Conforms`: the calls a program makes are allowed by those made before, whatever the
      interface answers. -/

/-- An interface: its calls, and the type of each call's answer. -/
structure Iface where
  Call : Type
  Ans : Call → Type

/-- An interface whose calls may fail with an `ε`. -/
@[reducible] def Iface.failing (C : Type) (R : C → Type) (ε : Type) : Iface where
  Call := C
  Ans c := Except ε (R c)

/-- Programs that call `I` and return an `α`. -/
inductive Prog (I : Iface) (α : Type) : Type where
  | ret (a : α)
  | call (c : I.Call) (k : I.Ans c → Prog I α)

/-- What every call does to a state `σ`, given an input from outside. -/
abbrev Handler (I : Iface) (σ ι : Type) := (c : I.Call) → ι → σ → I.Ans c × σ

namespace Prog

open Iface

variable {I : Iface} {σ ι ε α β : Type}

/-! ## The monad -/

/-- Run `p`, then continue with its result. -/
def andThen : Prog I α → (α → Prog I β) → Prog I β
  | .ret a, f => f a
  | .call c k, f => .call c fun x => andThen (k x) f

instance : Monad (Prog I) where
  pure := .ret
  bind := andThen

/-- The program that makes one call and returns its answer. -/
def ask (c : I.Call) : Prog I (I.Ans c) := .call c .ret

@[simp] theorem pure_eq (a : α) : (pure a : Prog I α) = .ret a := rfl

@[simp] theorem ret_bind (a : α) (f : α → Prog I β) : (Prog.ret a >>= f) = f a := rfl

@[simp] theorem call_bind (c : I.Call) (k : I.Ans c → Prog I α) (f : α → Prog I β) :
    (Prog.call c k >>= f) = .call c fun x => k x >>= f := rfl

@[simp] theorem ask_bind (c : I.Call) (f : I.Ans c → Prog I β) : (ask c >>= f) = .call c f := rfl

theorem bind_ret (p : Prog I α) : (p >>= Prog.ret) = p := by
  induction p with
  | ret a => rfl
  | call c k ih => exact congrArg (Prog.call c) (funext ih)

theorem bind_bind {γ : Type} (p : Prog I α) (f : α → Prog I β) (g : β → Prog I γ) :
    (p >>= f >>= g) = p >>= fun a => f a >>= g := by
  induction p with
  | ret a => rfl
  | call c k ih => exact congrArg (Prog.call c) (funext ih)

instance : LawfulMonad (Prog I) := LawfulMonad.mk' _ bind_ret (fun _ _ => rfl) bind_bind

/-- The call that the program makes next. -/
def nextCall : Prog I α → Option I.Call
  | .ret _ => none
  | .call c _ => some c

/-- Replace every call by a program over another interface. -/
def expand {J : Iface} (impl : (c : I.Call) → Prog J (I.Ans c)) : Prog I α → Prog J α
  | .ret a => .ret a
  | .call c k => impl c >>= fun x => expand impl (k x)

/-! ## Sequential execution -/

/-- Run a program alone; the `n`-th call gets input `w n`. -/
def exec (h : Handler I σ ι) : Prog I α → (Nat → ι) → σ → α × σ
  | .ret a, _, s => (a, s)
  | .call c k, w, s => exec h (k (h c (w 0) s).1) (fun n => w (n + 1)) (h c (w 0) s).2

theorem exec_bind_const (h : Handler I σ ι) (p : Prog I α) (f : α → Prog I β) (i : ι) (s : σ) :
    exec h (p >>= f) (fun _ => i) s =
      exec h (f (exec h p (fun _ => i) s).1) (fun _ => i) (exec h p (fun _ => i) s).2 := by
  induction p generalizing s with
  | ret a => rfl
  | call c k ih => exact ih _ _

variable {s : σ} {J : σ → Prop} {Q : α → σ → Prop}

/-- A program keeps what every call keeps. -/
theorem exec_invariant {h : Handler I σ ι} (hcall : ∀ c i s, J s → J (h c i s).2) (p : Prog I α)
    (w : Nat → ι) (hs : J s) : J (exec h p w s).2 := by
  induction p generalizing w s with
  | ret a => exact hs
  | call c k ih => exact ih _ _ (hcall c (w 0) s hs)

/-- `P` holds of every call that is made. -/
def EachCall (h : Handler I σ ι) (P : I.Call → ι → Prop) : Prog I α → (Nat → ι) → σ → Prop
  | .ret _, _, _ => True
  | .call c k, w, s =>
    P c (w 0) ∧ EachCall h P (k (h c (w 0) s).1) (fun n => w (n + 1)) (h c (w 0) s).2

theorem eachCall_of_forall {h : Handler I σ ι} {P : I.Call → ι → Prop} {w : Nat → ι}
    (hP : ∀ c n, P c (w n)) (p : Prog I α) (s : σ) : EachCall h P p w s := by
  induction p generalizing w s with
  | ret a => trivial
  | call c k ih => exact ⟨hP c 0, ih _ (fun c n => hP c (n + 1)) _⟩

/-- Another handler may take over if it does the same for every call that is made. -/
theorem EachCall.exec_eq {h h' : Handler I σ ι} {P : I.Call → ι → Prop}
    (hsame : ∀ c i s, P c i → h c i s = h' c i s) {p : Prog I α} {w : Nat → ι}
    (hp : EachCall h P p w s) : exec h p w s = exec h' p w s := by
  induction p generalizing w s with
  | ret a => rfl
  | call c k ih =>
    simp only [exec, ← hsame c (w 0) s hp.1]
    exact ih _ hp.2

/-- The handler in an environment that always gives the same input. -/
def Fixed (h : Handler I σ ι) (i : ι) : Handler I σ Unit := fun c _ s => h c i s

theorem exec_fixed (h : Handler I σ ι) (i : ι) (p : Prog I α) (w : Nat → Unit) (s : σ) :
    exec (Fixed h i) p w s = exec h p (fun _ => i) s := by
  induction p generalizing w s with
  | ret a => rfl
  | call c k ih => exact ih _ _ _

/-- Inputs that are read off other inputs. -/
theorem exec_comap {κ : Type} (h : Handler I σ ι) (f : κ → ι) (p : Prog I α) (w : Nat → κ)
    (s : σ) : exec (fun c i s => h c (f i) s) p w s = exec h p (fun n => f (w n)) s := by
  induction p generalizing w s with
  | ret a => rfl
  | call c k ih => exact ih _ _ _

/-- `Q` holds of the result and the final state, whatever the inputs are. -/
def wp (h : Handler I σ ι) : Prog I α → (α → σ → Prop) → σ → Prop
  | .ret a, Q, s => Q a s
  | .call c k, Q, s => ∀ i, wp h (k (h c i s).1) Q (h c i s).2

variable {h : Handler I σ ι}

@[simp] theorem wp_ret (a : α) (Q : α → σ → Prop) (s : σ) : wp h (.ret a) Q s ↔ Q a s := Iff.rfl

@[simp] theorem wp_call (c : I.Call) (k : I.Ans c → Prog I α) (Q : α → σ → Prop) (s : σ) :
    wp h (.call c k) Q s ↔ ∀ i, wp h (k (h c i s).1) Q (h c i s).2 := Iff.rfl

theorem wp_bind (p : Prog I α) (f : α → Prog I β) (Q : β → σ → Prop) (s : σ) :
    wp h (p >>= f) Q s ↔ wp h p (fun a s' => wp h (f a) Q s') s := by
  induction p generalizing s with
  | ret a => exact Iff.rfl
  | call c k ih => exact forall_congr' fun i => ih (h c i s).1 (h c i s).2

theorem wp_mono {p : Prog I α} {Q' : α → σ → Prop} (hQ : ∀ a s', Q a s' → Q' a s')
    (hp : wp h p Q s) : wp h p Q' s := by
  induction p generalizing s with
  | ret a => exact hQ a s hp
  | call c k ih => exact fun i => ih (h c i s).1 (hp i)

theorem wp_then {p : Prog I α} {f : α → Prog I β} {Q : β → σ → Prop}
    (hp : wp h p (fun a s' => wp h (f a) Q s') s) : wp h (p >>= f) Q s := (wp_bind p f Q s).mpr hp

/-- The rule of composition. -/
theorem wp_seq {p : Prog I α} {f : α → Prog I β} {Q' : β → σ → Prop} (hp : wp h p Q s)
    (hf : ∀ a s', Q a s' → wp h (f a) Q' s') : wp h (p >>= f) Q' s := wp_then (wp_mono hf hp)

/-- Inputs that are read off other inputs. -/
theorem wp_comap {κ : Type} (f : κ → ι) {p : Prog I α} (hp : wp h p Q s) :
    wp (fun c i s => h c (f i) s) p Q s := by
  induction p generalizing s with
  | ret a => exact hp
  | call c k ih => exact fun i => ih _ (hp (f i))

theorem wp_of_forall {p : Prog I α} (hQ : ∀ a s', Q a s') (s : σ) : wp h p Q s := by
  induction p generalizing s with
  | ret a => exact hQ a s
  | call c k ih => exact fun i => ih _ _

/-- Every execution ends as the weakest precondition says. -/
theorem wp_exec {p : Prog I α} (hp : wp h p Q s) (w : Nat → ι) :
    Q (exec h p w s).1 (exec h p w s).2 := by
  induction p generalizing s w with
  | ret a => exact hp
  | call c k ih => exact ih _ (hp (w 0)) _

/-! ## Programs that may fail -/

section

variable {C : Type} {R : C → Type}

/-- Programs over such an interface that may fail themselves. -/
abbrev Fallible (C : Type) (R : C → Type) (ε : Type) := ExceptT ε (Prog (failing C R ε))

/-- Make a call, and give up with its error if it fails. -/
def attempt (c : C) : Fallible C R ε (R c) := ExceptT.mk (ask (I := failing C R ε) c)

/-- Make a call and go on whether or not it fails. -/
def tryCall (c : C) : Fallible C R ε (Except ε (R c)) := ExceptT.lift (ask (I := failing C R ε) c)

theorem exec_tryCall_bind (h : Handler (failing C R ε) σ ι) (c : C)
    (f : Except ε (R c) → Fallible C R ε α) (w : Nat → ι) (s : σ) :
    exec h (tryCall c >>= f).run w s =
      exec h (f (h c (w 0) s).1).run (fun n => w (n + 1)) (h c (w 0) s).2 := rfl

theorem exec_attempt_bind (h : Handler (failing C R ε) σ ι) (c : C)
    (f : R c → Fallible C R ε α) (w : Nat → ι) (s : σ) :
    exec h (attempt c >>= f).run w s =
      match (h c (w 0) s).1 with
      | .ok a => exec h (f a).run (fun n => w (n + 1)) (h c (w 0) s).2
      | .error e => (.error e, (h c (w 0) s).2) := by
  show exec h (ExceptT.bindCont f (h c (w 0) s).1) (fun n => w (n + 1)) (h c (w 0) s).2 = _
  cases (h c (w 0) s).1 <;> rfl

/-- `Q` of a result, `E` of an error. -/
def outcome (Q : α → σ → Prop) (E : ε → σ → Prop) : Except ε α → σ → Prop
  | .ok a, s => Q a s
  | .error e, s => E e s

@[simp] theorem outcome_ok (Q : α → σ → Prop) (E : ε → σ → Prop) (a : α) (s : σ) :
    outcome Q E (.ok a) s ↔ Q a s := Iff.rfl

@[simp] theorem outcome_error (Q : α → σ → Prop) (E : ε → σ → Prop) (e : ε) (s : σ) :
    outcome Q E (.error e) s ↔ E e s := Iff.rfl

/-- `wp` for a program that may fail. -/
def wpe (h : Handler I σ ι) (p : ExceptT ε (Prog I) α) (Q : α → σ → Prop) (E : ε → σ → Prop)
    (s : σ) : Prop :=
  wp h p.run (outcome Q E) s

@[simp] theorem wpe_pure (a : α) (Q : α → σ → Prop) (E : ε → σ → Prop) (s : σ) :
    wpe h (pure a : ExceptT ε (Prog I) α) Q E s ↔ Q a s := Iff.rfl

@[simp] theorem wpe_throw (e : ε) (Q : α → σ → Prop) (E : ε → σ → Prop) (s : σ) :
    wpe h (throw e : ExceptT ε (Prog I) α) Q E s ↔ E e s := Iff.rfl

theorem wpe_attempt {h : Handler (failing C R ε) σ ι} (c : C) (Q : R c → σ → Prop)
    (E : ε → σ → Prop) (s : σ) :
    wpe h (attempt c) Q E s ↔ ∀ i, outcome Q E (h c i s).1 (h c i s).2 := Iff.rfl

theorem wpe_tryCall {h : Handler (failing C R ε) σ ι} (c : C)
    (Q : Except ε (R c) → σ → Prop) (E : ε → σ → Prop) (s : σ) :
    wpe h (tryCall c) Q E s ↔ ∀ i, Q (h c i s).1 (h c i s).2 := Iff.rfl

theorem wpe_bind (p : ExceptT ε (Prog I) α) (f : α → ExceptT ε (Prog I) β)
    (Q : β → σ → Prop) (E : ε → σ → Prop) (s : σ) :
    wpe h (p >>= f) Q E s ↔ wpe h p (fun a s' => wpe h (f a) Q E s') E s := by
  show wp h (p.run >>= ExceptT.bindCont f) (outcome Q E) s ↔ _
  rw [wp_bind]
  have hcont : ∀ (r : Except ε α) (s' : σ), wp h (ExceptT.bindCont f r) (outcome Q E) s' ↔
      outcome (fun a s' => wpe h (f a) Q E s') E r s' := by
    intro r s'
    cases r <;> exact Iff.rfl
  constructor
  · exact wp_mono fun r s' => (hcont r s').mp
  · exact wp_mono fun r s' => (hcont r s').mpr

variable {E : ε → σ → Prop} {p : ExceptT ε (Prog I) α} {f : α → ExceptT ε (Prog I) β}

theorem wpe_then {Q : β → σ → Prop} (hp : wpe h p (fun a s' => wpe h (f a) Q E s') E s) :
    wpe h (p >>= f) Q E s := (wpe_bind p f Q E s).mpr hp

theorem wpe_mono {Q' : α → σ → Prop} {E' : ε → σ → Prop} (hQ : ∀ a s', Q a s' → Q' a s')
    (hE : ∀ e s', E e s' → E' e s') (hp : wpe h p Q E s) : wpe h p Q' E' s := by
  refine wp_mono ?_ hp
  intro r s' hr
  cases r with
  | ok a => exact hQ a s' hr
  | error e => exact hE e s' hr

theorem wpe_of_forall (hQ : ∀ a s', Q a s') (hE : ∀ e s', E e s') (s : σ) : wpe h p Q E s := by
  refine wp_of_forall ?_ s
  intro r s'
  cases r with
  | ok a => exact hQ a s'
  | error e => exact hE e s'

/-- A program for which failing is excluded succeeds in every execution. -/
theorem exec_ok (hp : wpe h p Q (fun _ _ => False) s) (w : Nat → ι) :
    ∃ a, (exec h p.run w s).1 = .ok a := by
  have hend := wp_exec hp w
  cases hres : (exec h p.run w s).1 with
  | ok a => exact ⟨a, rfl⟩
  | error e =>
    rw [hres] at hend
    exact hend.elim

/-- What the weakest precondition says of an execution that succeeded. -/
theorem of_exec_ok (hp : wpe h p Q E s) {w : Nat → ι} {a : α} (hok : (exec h p.run w s).1 = .ok a) :
    Q a (exec h p.run w s).2 := by
  have hend := wp_exec hp w
  rw [hok] at hend
  exact hend

/-- A loop keeps what each of its rounds keeps, and fails only as its rounds do. -/
theorem wpe_mapM (hf : ∀ a s, J s → wpe h (f a) (fun _ => J) E s) (as : List α) (hs : J s) :
    wpe h (as.mapM f) (fun _ => J) E s := by
  induction as generalizing s with
  | nil => exact hs
  | cons a as ih =>
    rw [List.mapM_cons, wpe_bind]
    refine wpe_mono ?_ (fun _ _ hE => hE) (hf a s hs)
    intro b s' hs'
    rw [wpe_bind]
    exact wpe_mono (fun bs s'' hs'' => hs'') (fun _ _ hE => hE) (ih hs')

/-- The program keeps `J`, whether or not it succeeds. -/
def Preserves (h : Handler I σ ι) (J : σ → Prop) (p : ExceptT ε (Prog I) α) : Prop :=
  ∀ s, J s → wpe h p (fun _ => J) (fun _ => J) s

theorem preserves_pure (a : α) : Preserves h J (pure a : ExceptT ε (Prog I) α) := fun _ hs => hs

theorem preserves_throw (e : ε) : Preserves h J (throw e : ExceptT ε (Prog I) α) := fun _ hs => hs

theorem preserves_attempt {h : Handler (failing C R ε) σ ι} {c : C}
    (hc : ∀ i s, J s → J (h c i s).2) : Preserves h J (attempt c) := by
  intro s hs i
  cases (h c i s).1 <;> exact hc i s hs

theorem Preserves.bind (hp : Preserves h J p) (hf : ∀ a, Preserves h J (f a)) :
    Preserves h J (p >>= f) := by
  intro s hs
  rw [wpe_bind]
  exact wpe_mono (fun a s' hs' => hf a s' hs') (fun _ _ hs' => hs') (hp s hs)

theorem preserves_mapM (hf : ∀ a, Preserves h J (f a)) (as : List α) : Preserves h J (as.mapM f) :=
  fun _ hs => wpe_mapM (fun a s hs => hf a s hs) as hs

theorem Preserves.exec (hp : Preserves h J p) (hs : J s) (w : Nat → ι) :
    J (exec h p.run w s).2 := by
  have hend := wp_exec (hp s hs) w
  cases hres : (Prog.exec h p.run w s).1 with
  | ok | error =>
    rw [hres] at hend
    exact hend

end

/-! ## Logs -/

/-- A call as it was made: on whose behalf, with what input from outside, and
    how it was answered. -/
structure Made (I : Iface) (ι τ : Type) where
  tag : τ
  call : I.Call
  input : ι
  answer : I.Ans call

/-- The handler that also keeps a log of the calls, newest first. -/
def logged {τ : Type} (h : Handler I σ ι) (tag : τ) : Handler I (σ × List (Made I ι τ)) ι :=
  fun c i s => ((h c i s.1).1, (h c i s.1).2, ⟨tag, c, i, (h c i s.1).1⟩ :: s.2)

/-- Every call of the program is allowed by the log at the time it is made. -/
def Conforms {τ : Type} (tag : τ) (allowed : List (Made I ι τ) → I.Call → Prop) :
    Prog I α → List (Made I ι τ) → Prop
  | .ret _, _ => True
  | .call c k, log => allowed log c ∧ ∀ i a, Conforms tag allowed (k a) (⟨tag, c, i, a⟩ :: log)

end Prog
