import NexusVPN.Lib.Machine
import NexusVPN.Lib.Prog

/-! # Pools of threads

    Any number of programs run against one shared state.  The calls are the atomic steps, and
    the scheduler decides which thread makes its next call, with which input from outside, and
    when another thread starts.  Some calls start a thread themselves.  A thread that has
    returned stays in the pool with its result.

    * `Prog.Keeps`, `Pool.invariant`: a shared invariant, one thread at a time.
    * `Pool.reachable_alone`: a thread may also be run to its end undisturbed. -/

/-- Between any two of its calls the other threads may do anything within `J`: the
    program itself keeps `J`, and what it returns is in `Q`. -/
def Prog.Keeps {I : Iface} {σ ι α : Type} (h : Handler I σ ι) (J : σ → Prop) (Q : α → Prop) :
    Prog I α → Prop
  | .ret a => Q a
  | .call c k => ∀ s i, J s → J (h c i s).2 ∧ Keeps h J Q (k (h c i s).1)

theorem Prog.Keeps.bind {I : Iface} {σ ι α β : Type} {h : Handler I σ ι} {J : σ → Prop}
    {Q : α → Prop} {Q' : β → Prop} {p : Prog I α} {f : α → Prog I β} (hp : p.Keeps h J Q)
    (hf : ∀ a, Q a → (f a).Keeps h J Q') : (p >>= f).Keeps h J Q' := by
  induction p with
  | ret a => exact hf a hp
  | call c k ih =>
    intro s i hs
    obtain ⟨hJ, hk⟩ := hp s i hs
    exact ⟨hJ, ih _ hk⟩

/-- Who is where when one has been added at the end. -/
theorem List.getElem?_concat_cases {α : Type} {l : List α} {x y : α} {m : Nat}
    (h : (l ++ [x])[m]? = some y) : l[m]? = some y ∨ m = l.length ∧ y = x := by
  by_cases hlt : m < l.length
  · rw [List.getElem?_append_left hlt] at h
    exact .inl h
  · rw [List.getElem?_append_right (by omega)] at h
    have hlen := (List.getElem?_eq_some_iff.mp h).1
    rw [List.length_singleton] at hlen
    exact .inr ⟨by omega, List.mem_singleton.mp (List.mem_of_getElem? h)⟩

/-- Who is where when one has been replaced. -/
theorem List.getElem?_set_cases {α : Type} {l : List α} {x y : α} {n m : Nat}
    (h : (l.set n x)[m]? = some y) : m = n ∧ y = x ∨ m ≠ n ∧ l[m]? = some y := by
  by_cases hnm : n = m
  · subst hnm
    have hlt := (List.getElem?_eq_some_iff.mp h).1
    rw [List.getElem?_set_self (by rwa [List.length_set] at hlt)] at h
    exact .inl ⟨rfl, (Option.some.inj h).symm⟩
  · rw [List.getElem?_set_ne hnm] at h
    exact .inr ⟨Ne.symm hnm, h⟩

theorem List.forall_mem_set {α : Type} {B : α → Prop} {l : List α} {n : Nat} {y : α}
    (hl : ∀ x ∈ l, B x) (hy : B y) : ∀ x ∈ l.set n y, B x := by
  intro x hx
  rcases mem_or_eq_of_mem_set hx with hold | rfl
  · exact hl x hold
  · exact hy

/-- Threads, each with a tag that says what it was started for. -/
structure Pool (I : Iface) (σ τ α : Type) where
  shared : σ
  threads : List (τ × Prog I α)

namespace Pool

open List Option Machine

variable {I : Iface} {σ ι τ α : Type}

inductive Action (τ ι : Type) where
  | spawn (t : τ)
  | advance (n : Nat) (input : ι)

/-- The thread that a call starts, if it starts one. -/
def forked (body : τ → Prog I α) (fork : I.Call → Option τ) (c : I.Call) : List (τ × Prog I α) :=
  (fork c).toList.map fun t => (t, body t)

/-- `body t` is the program of a thread started for `t`, and `fork c` what the call
    `c` starts a thread for. -/
def step (h : Handler I σ ι) (body : τ → Prog I α) (fork : I.Call → Option τ)
    (p : Pool I σ τ α) : Action τ ι → Option (Pool I σ τ α)
  | .spawn t => some { p with threads := p.threads ++ [(t, body t)] }
  | .advance n i =>
    match p.threads[n]? with
    | some (t, .call c k) =>
      some ⟨(h c i p.shared).2, p.threads.set n (t, k (h c i p.shared).1) ++ forked body fork c⟩
    | _ => none

/-- A thread started for `t` has returned `a`. -/
def Returned (p : Pool I σ τ α) (t : τ) (a : α) : Prop := (t, Prog.ret a) ∈ p.threads

variable {h : Handler I σ ι} {body : τ → Prog I α} {fork : I.Call → Option τ}

/-- What a step can do: start a thread, or let one make its next call. -/
theorem step_cases {p p' : Pool I σ τ α} {a : Action τ ι}
    (hstep : step h body fork p a = some p') :
    (∃ t, a = .spawn t ∧ p' = { p with threads := p.threads ++ [(t, body t)] }) ∨
    (∃ n i t c k, a = .advance n i ∧ p.threads[n]? = some (t, .call c k) ∧
      p' = ⟨(h c i p.shared).2,
        p.threads.set n (t, k (h c i p.shared).1) ++ forked body fork c⟩) := by
  cases a with
  | spawn t => exact .inl ⟨t, rfl, (some.inj hstep).symm⟩
  | advance n i =>
    simp only [step] at hstep
    split at hstep
    · next t c k hn => exact .inr ⟨n, i, t, c, k, rfl, hn, (some.inj hstep).symm⟩
    · cases hstep

/-- What is true of every thread, whatever is shared. -/
theorem each_thread_step {p p' : Pool I σ τ α} {a : Action τ ι} {B : τ × Prog I α → Prop}
    (hstep : step h body fork p a = some p') (hp : ∀ th ∈ p.threads, B th)
    (hbody : ∀ t, B (t, body t))
    (hcall : ∀ i t c k, B (t, .call c k) → B (t, k (h c i p.shared).1)) :
    ∀ th ∈ p'.threads, B th := by
  rcases step_cases hstep with ⟨t, -, rfl⟩ | ⟨n, i, t, c, k, -, hn, rfl⟩
  · exact forall_mem_append.mpr ⟨hp, forall_mem_singleton.mpr (hbody t)⟩
  · have hset := forall_mem_set (n := n) hp (hcall i t c k (hp _ (mem_of_getElem? hn)))
    refine forall_mem_append.mpr ⟨hset, fun th hth => ?_⟩
    obtain ⟨t, -, rfl⟩ := mem_map.mp hth
    exact hbody t

/-! ## A shared invariant -/

section

variable {J : σ → Prop} {Q : τ → α → Prop} (hbody : ∀ t, (body t).Keeps h J (Q t)) {s₀ : σ}
  (h₀ : J s₀) {p : Pool I σ τ α} (hreach : Reachable (step h body fork) ⟨s₀, []⟩ p)
include hbody h₀ hreach

/-- If every program keeps `J`, then `J` holds whenever no call is being made, and
    every thread returns what it would return if it knew of the others only `J`. -/
theorem invariant : J p.shared ∧ ∀ x ∈ p.threads, x.2.Keeps h J (Q x.1) := by
  apply hreach.invariant
  · exact ⟨h₀, fun x hx => nomatch hx⟩
  · intro p a p' hinv hstep
    obtain ⟨hJ, hths⟩ := hinv
    refine ⟨?_, each_thread_step hstep hths hbody fun i t c k hcall => (hcall _ i hJ).2⟩
    rcases step_cases hstep with ⟨t, -, rfl⟩ | ⟨n, i, t, c, k, -, hn, rfl⟩
    · exact hJ
    · exact (hths _ (mem_of_getElem? hn) _ i hJ).1

theorem returned_of_keeps {t : τ} {a : α} (hret : p.Returned t a) : Q t a :=
  (invariant hbody h₀ hreach).2 _ hret

end

/-! ## Running one thread to its end -/

/-- The actions that let thread `n` make its calls with the inputs `w`. -/
def alone (h : Handler I σ ι) (n : Nat) : Prog I α → (Nat → ι) → σ → List (Action τ ι)
  | .ret _, _, _ => []
  | .call c k, w, s =>
    .advance n (w 0) :: alone h n (k (h c (w 0) s).1) (fun m => w (m + 1)) (h c (w 0) s).2

theorem run_alone (q : Prog I α) (t : τ) (w : Nat → ι) (s : σ) (pre : List (τ × Prog I α)) :
    run (step h body fun _ => none) ⟨s, pre ++ [(t, q)]⟩ (alone h pre.length q w s) =
      some ⟨(q.exec h w s).2, pre ++ [(t, .ret (q.exec h w s).1)]⟩ := by
  induction q generalizing w s with
  | ret a => rfl
  | call c k ih =>
    have hstep : step h body (fun _ => none) ⟨s, pre ++ [(t, .call c k)]⟩
        (.advance pre.length (w 0)) = some ⟨(h c (w 0) s).2, pre ++ [(t, k (h c (w 0) s).1)]⟩ := by
      simp [step, forked]
    rw [alone, run_cons_of_step hstep, ih]
    rfl

/-- Whatever the pool has done so far, a new thread can be started and run to its
    end with inputs `w`, as if it were the only one. -/
theorem reachable_alone {p₀ p : Pool I σ τ α}
    (hreach : Reachable (step h body fun _ => none) p₀ p) (t : τ) (w : Nat → ι) :
    Reachable (step h body fun _ => none) p₀
      ⟨((body t).exec h w p.shared).2,
        p.threads ++ [(t, .ret ((body t).exec h w p.shared).1)]⟩ := by
  have hspawn := hreach.tail (a := .spawn t) rfl
  obtain ⟨as, has⟩ := hspawn
  refine ⟨as ++ alone h p.threads.length (body t) w p.shared, ?_⟩
  rw [run_append, has]
  exact run_alone (body t) t w p.shared p.threads

end Pool
