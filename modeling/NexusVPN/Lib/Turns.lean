import NexusVPN.Lib.Debts

/-! # One program at a time

    Programs run one after the other against a shared state, and between two of them
    something else may happen to the state.  Unlike an execution from beginning to end,
    every state on the way counts.

    * `Prog.Guards`: as long as its calls are answered under `C`, the program keeps `J` after
      each of them, and what it ends with is in `Q`. -/

namespace Prog

variable {I : Iface} {σ ι α β : Type} {h : Handler I σ ι} {J : σ → Prop}
  {C : σ → I.Call → ι → Prop}

def Guards (h : Handler I σ ι) (C : σ → I.Call → ι → Prop) (J : σ → Prop) (Q : α → σ → Prop) :
    Prog I α → σ → Prop
  | .ret a, s => Q a s
  | .call c k, s =>
    ∀ i, C s c i → J (h c i s).2 ∧ Guards h C J Q (k (h c i s).1) (h c i s).2

variable {p : Prog I α} {Q : α → σ → Prop}

theorem Guards.bind {Q : β → σ → Prop} {f : α → Prog I β} {s : σ}
    (hp : p.Guards h C J (fun a s' => (f a).Guards h C J Q s') s) : (p >>= f).Guards h C J Q s := by
  induction p generalizing s with
  | ret a => exact hp
  | call c k ih => exact fun i hc => ⟨(hp i hc).1, ih _ (hp i hc).2⟩

theorem Guards.mono {Q' : α → σ → Prop} (hQ : ∀ a s, Q a s → Q' a s) {s : σ}
    (hp : p.Guards h C J Q s) : p.Guards h C J Q' s := by
  induction p generalizing s with
  | ret a => exact hQ a s hp
  | call c k ih => exact fun i hc => ⟨(hp i hc).1, ih _ (hp i hc).2⟩

theorem Guards.seq {Q' : β → σ → Prop} {f : α → Prog I β} {s : σ} (hp : p.Guards h C J Q s)
    (hf : ∀ a s', Q a s' → (f a).Guards h C J Q' s') : (p >>= f).Guards h C J Q' s :=
  (hp.mono hf).bind

theorem guards_ask {c : I.Call} {f : I.Ans c → Prog I α} {s : σ}
    (hcall : ∀ i, C s c i → J (h c i s).2 ∧ (f (h c i s).1).Guards h C J Q (h c i s).2) :
    (ask c >>= f).Guards h C J Q s :=
  hcall

/-- What is known of the end of a program anyway may be added. -/
theorem Guards.and_wp {Q' : α → σ → Prop} {s : σ} (hp : p.Guards h C J Q s) (hwp : wp h p Q' s) :
    p.Guards h C J (fun a s' => Q a s' ∧ Q' a s') s := by
  induction p generalizing s with
  | ret a => exact ⟨hp, hwp⟩
  | call c k ih => exact fun i hc => ⟨(hp i hc).1, ih _ (hp i hc).2 (hwp i)⟩

/-- A program that never makes one of the calls `P`, where all others keep some `K`. -/
theorem guards_of_wp {K : σ → Prop} {P : I.Call → Prop} (hK : ∀ s c i, K s → ¬ P c → K (h c i s).2)
    (hJ : ∀ s, K s → J s) {s : σ} (hav : p.Avoids P) (hs : K s) (hwp : wp h p Q s) :
    p.Guards h C J (fun a s' => Q a s' ∧ K s') s := by
  induction p generalizing s with
  | ret a => exact ⟨hwp, hs⟩
  | call c k ih =>
    intro i _
    have hnext := hK s c i hs hav.1
    exact ⟨hJ _ hnext, ih _ (hav.2 _) hnext (hwp i)⟩

end Prog

/-- The state, and the rest of the program that is running. -/
structure Turns (I : Iface) (σ : Type) where
  shared : σ
  running : Prog I Unit

namespace Turns

variable {I : Iface} {σ ι τ ε : Type}

inductive Action (τ ι ε : Type) where
  /-- A program starts. -/
  | start (t : τ)
  /-- The program that is running makes its next call. -/
  | advance (input : ι)
  /-- Something happens between two programs. -/
  | event (e : ε)

def step (h : Handler I σ ι) (body : τ → Prog I Unit) (happen : ε → σ → σ) (p : Turns I σ) :
    Action τ ι ε → Option (Turns I σ)
  | .start t =>
    match p.running with
    | .ret _ => some ⟨p.shared, body t⟩
    | .call _ _ => none
  | .advance i =>
    match p.running with
    | .ret _ => none
    | .call c k => some ⟨(h c i p.shared).2, k (h c i p.shared).1⟩
  | .event e =>
    match p.running with
    | .ret _ => some ⟨happen e p.shared, .ret ()⟩
    | .call _ _ => none

/-- Programs start under `B`, calls are answered under `C`, and events happen under `D`. -/
def Meets (B : σ → τ → Prop) (C : σ → I.Call → ι → Prop) (D : σ → ε → Prop) (p : Turns I σ) :
    Action τ ι ε → Prop
  | .start t => B p.shared t
  | .advance i =>
    match p.running with
    | .ret _ => True
    | .call c _ => C p.shared c i
  | .event e => D p.shared e

instance {B : σ → τ → Prop} {C : σ → I.Call → ι → Prop} {D : σ → ε → Prop}
    [∀ s t, Decidable (B s t)] [∀ s c i, Decidable (C s c i)] [∀ s e, Decidable (D s e)]
    (p : Turns I σ) (a : Action τ ι ε) : Decidable (Meets B C D p a) := by
  unfold Meets
  split
  · infer_instance
  · split <;> infer_instance
  · infer_instance

variable {h : Handler I σ ι} {body : τ → Prog I Unit} {happen : ε → σ → σ} {B : σ → τ → Prop}
  {C : σ → I.Call → ι → Prop} {D : σ → ε → Prop} {J R : σ → Prop}

/-- What holds after every call of the programs holds at all times. -/
theorem throughout
    (hbody : ∀ t s, J s → R s → B s t → (body t).Guards h C J (fun _ => R) s)
    (hevent : ∀ e s, J s → R s → D s e → J (happen e s) ∧ R (happen e s)) {s : σ}
    (hJ : J s) (hR : R s) {as : List (Action τ ι ε)}
    (halong : Machine.Along (step h body happen) (Meets B C D) ⟨s, .ret ()⟩ as) :
    Machine.Throughout (step h body happen) (fun p => J p.shared) ⟨s, .ret ()⟩ as := by
  -- At any time, the rest of the program that is running guards `J`.
  have hall := halong.throughout
    (P := fun p => J p.shared ∧ p.running.Guards h C J (fun _ => R) p.shared) ?_ ⟨hJ, hR⟩
  · exact hall.mono fun p hp => hp.1
  · rintro ⟨s, q⟩ a p' ⟨hJ, hguards⟩ hmeets hstep
    cases a with
    | start t =>
      cases q with
      | ret u =>
        cases hstep
        exact ⟨hJ, hbody t s hJ hguards hmeets⟩
      | call c k => cases hstep
    | advance i =>
      cases q with
      | ret u => cases hstep
      | call c k =>
        cases hstep
        exact hguards i hmeets
    | event e =>
      cases q with
      | ret u =>
        cases hstep
        exact hevent e s hJ hguards hmeets
      | call c k => cases hstep

end Turns
