import NexusVPN.Lib.Debts
import NexusVPN.Lib.Track

/-! # Properties that hold call by call

    Many properties of programs are established in the same way: nothing is to be shown of a
    program that returns, some calls are harmless, and what holds of two programs holds of one
    after the other.  A `Discipline` is such a property, so that a walk through a program can
    be made once for all of them. -/

namespace Prog

/-- A property of programs, the calls that it allows at any time, and what is known of their
    answers. -/
structure Discipline (I : Iface) where
  Holds : {α : Type} → Prog I α → Prop
  legal : I.Call → Prop
  may : (c : I.Call) → I.Ans c → Prop
  ret : ∀ {α : Type} (a : α), Holds (.ret a)
  bind : ∀ {α β : Type} {p : Prog I α} {f : α → Prog I β},
    Holds p → (∀ a, Holds (f a)) → Holds (p >>= f)
  call : ∀ {α : Type} {c : I.Call} {k : I.Ans c → Prog I α},
    legal c → (∀ a, may c a → Holds (k a)) → Holds (.call c k)

namespace Discipline

variable {I : Iface} {α : Type} (D : Discipline I) {c : I.Call}

theorem ask (h : D.legal c) : D.Holds (ask c) := D.call h fun a _ => D.ret a

theorem after {f : I.Ans c → Prog I α} (h : D.legal c) (hf : ∀ a, D.may c a → D.Holds (f a)) :
    D.Holds (Prog.ask c >>= f) :=
  D.call h hf

theorem next {f : I.Ans c → Prog I α} (h : D.legal c) (hf : ∀ a, D.Holds (f a)) :
    D.Holds (Prog.ask c >>= f) :=
  D.after h fun a _ => hf a

/-- The program avoids the calls in `P`. -/
def avoiding (P : I.Call → Prop) : Discipline I where
  Holds p := p.Avoids P
  legal c := ¬ P c
  may _ _ := True
  ret _ := trivial
  bind hp hf := hp.bind hf
  call hc hk := ⟨hc, fun a => hk a trivial⟩

/-- The program is honest; it may always make calls that put nothing on it. -/
def honest {δ : Type} (L : Ledger I δ) : Discipline I where
  Holds p := p.Honest L
  legal c := L.fine c ∧ ∀ a, L.incurs c a = []
  may := L.may
  ret _ := trivial
  bind hp hf := hp.bind hf
  call hc hk := by
    refine ⟨hc.1, fun a ha => ⟨hk a ha, fun x hx => ?_⟩⟩
    rw [hc.2 a] at hx
    cases hx

/-- The program ends in the phase in which it begins. -/
def staying {φ : Type} (P : Protocol I φ) (ph : φ) : Discipline I where
  Holds p := p.Obeys P (fun _ ph' => ph' = ph) ph
  legal c := P.legal ph c ∧ ∀ a, P.next ph c a = ph
  may := P.may
  ret _ := rfl
  bind hp hf := by
    refine Obeys.bind (hp.mono ?_)
    rintro a ph' rfl
    exact hf a
  call hc hk := by
    refine ⟨hc.1, fun a ha => ?_⟩
    rw [hc.2 a]
    exact hk a ha

end Discipline

end Prog
