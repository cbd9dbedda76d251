import NexusVPN.Lib.Pool

/-! # Debts of threads

    A thread that has taken something in hand owes the step that disposes of it.  A `Ledger`
    says which answers put a debt on the caller and which calls pay for one.

    * `Honest`: whenever the program incurs a debt, the rest of it owes it.
    * `Pool.Owed`: some thread owes it.  In a pool of honest programs a debt stays owed
      from the step that incurs it to the step that pays for it. -/

/-- Who owes what over an interface. -/
structure Ledger (I : Iface) (δ : Type) where
  /-- What the answer to a call can be. -/
  may : (c : I.Call) → I.Ans c → Prop
  /-- What callers see to before they make a call. -/
  fine : I.Call → Prop
  /-- What the caller owes once the call has been answered. -/
  incurs : (c : I.Call) → I.Ans c → List δ
  /-- What the call pays for. -/
  settles : I.Call → List δ

namespace Prog

open List

variable {I : Iface} {δ α β : Type} (L : Ledger I δ)

/-- Whatever is answered, the program pays for `x` before it returns. -/
def Owes (x : δ) : Prog I α → Prop
  | .ret _ => False
  | .call c k => x ∈ L.settles c ∨ ∀ a, Owes x (k a)

/-- The program makes only calls that are fine, and what it incurs it then owes. -/
def Honest : Prog I α → Prop
  | .ret _ => True
  | .call c k => L.fine c ∧ ∀ a, L.may c a → Honest (k a) ∧ ∀ x ∈ L.incurs c a, Owes L x (k a)

/-- The program makes no call in `P`, whatever is answered. -/
def Avoids (P : I.Call → Prop) : Prog I α → Prop
  | .ret _ => True
  | .call c k => ¬ P c ∧ ∀ a, Avoids P (k a)

variable {p : Prog I α} {f : α → Prog I β} {P : I.Call → Prop}

theorem Avoids.bind (hp : p.Avoids P) (hf : ∀ a, (f a).Avoids P) : (p >>= f).Avoids P := by
  induction p with
  | ret a => exact hf a
  | call c k ih => exact ⟨hp.1, fun a => ih a (hp.2 a)⟩

theorem Avoids.mono {P' : I.Call → Prop} (hP : ∀ c, P' c → P c) (hp : p.Avoids P) :
    p.Avoids P' := by
  induction p with
  | ret a => trivial
  | call c k ih => exact ⟨fun h => hp.1 (hP c h), fun a => ih a (hp.2 a)⟩

theorem avoids_of_forall_not (hP : ∀ c, ¬ P c) (p : Prog I α) : p.Avoids P := by
  induction p with
  | ret a => trivial
  | call c k ih => exact ⟨hP c, ih⟩

/-- What every other call keeps, a program keeps that avoids the calls in `P`. -/
theorem wp_avoids {σ ι : Type} {h : Handler I σ ι} {K : σ → Prop}
    (hK : ∀ c i s, ¬ P c → K s → K (h c i s).2) {s : σ} (hp : p.Avoids P) (hs : K s) :
    wp h p (fun _ => K) s := by
  induction p generalizing s with
  | ret a => exact hs
  | call c k ih => exact fun i => ih _ (hp.2 _) (hK c i s hp.1 hs)

variable {L}

theorem Owes.bind {x : δ} (h : p.Owes L x) (f : α → Prog I β) : (p >>= f).Owes L x := by
  induction p with
  | ret a => exact h.elim
  | call c k ih =>
    rcases h with hpays | hlater
    · exact .inl hpays
    · exact .inr fun a => ih a (hlater a)

theorem Owes.bind_right {x : δ} (h : ∀ a, (f a).Owes L x) (p : Prog I α) : (p >>= f).Owes L x := by
  induction p with
  | ret a => exact h a
  | call c k ih => exact .inr ih

theorem Honest.bind (hp : p.Honest L) (hf : ∀ a, (f a).Honest L) : (p >>= f).Honest L := by
  induction p with
  | ret a => exact hf a
  | call c k ih =>
    refine ⟨hp.1, ?_⟩
    intro a ha
    obtain ⟨hrest, howes⟩ := hp.2 a ha
    exact ⟨ih a hrest, fun x hx => (howes x hx).bind f⟩

/-- A call that never puts anything on its caller. -/
theorem honest_ask {c : I.Call} (hfine : L.fine c) (hfree : ∀ a, L.incurs c a = []) :
    (ask c).Honest L := by
  refine ⟨hfine, ?_⟩
  intro a _
  refine ⟨trivial, ?_⟩
  intro x hx
  rw [hfree a] at hx
  cases hx

/-- A program that makes none of the calls that pay for `x` does not owe it. -/
theorem not_owes_of_avoids [∀ c, Nonempty (I.Ans c)] {x : δ} (hP : ∀ c, x ∈ L.settles c → P c)
    (h : p.Avoids P) : ¬ p.Owes L x := by
  induction p with
  | ret a => exact id
  | call c k ih =>
    rintro (hpays | hlater)
    · exact h.1 (hP c hpays)
    · obtain ⟨a⟩ := (inferInstance : Nonempty (I.Ans c))
      exact ih a (h.2 a) (hlater a)

end Prog

namespace Pool

variable {I : Iface} {σ ι τ α δ : Type} {h : Handler I σ ι} {body : τ → Prog I α}
  {fork : I.Call → Option τ} (L : Ledger I δ)

/-- Some thread owes `x`. -/
def Owed (p : Pool I σ τ α) (x : δ) : Prop := ∃ th ∈ p.threads, th.2.Owes L x

variable {L} {p : Pool I σ τ α} {n : Nat} {i : ι} {t : τ} {c : I.Call} {k : I.Ans c → Prog I α}

theorem Owed.append {x : δ} (hx : p.Owed L x) (s : σ) (more : List (τ × Prog I α)) :
    (⟨s, p.threads ++ more⟩ : Pool I σ τ α).Owed L x := by
  obtain ⟨th, hth, howes⟩ := hx
  exact ⟨th, List.mem_append_left _ hth, howes⟩

/-- A step that does not pay for the debt leaves it owed. -/
theorem Owed.advance {x : δ} (hx : p.Owed L x) (hn : p.threads[n]? = some (t, .call c k))
    (hpays : x ∉ L.settles c) (a : I.Ans c) (s : σ) (more : List (τ × Prog I α)) :
    (⟨s, p.threads.set n (t, k a) ++ more⟩ : Pool I σ τ α).Owed L x := by
  obtain ⟨th, hth, howes⟩ := hx
  obtain ⟨m, hm⟩ := List.mem_iff_getElem?.mp hth
  by_cases heq : m = n
  · -- The thread that took the step still owes it.
    subst heq
    cases hm.symm.trans hn
    have hlater := howes.resolve_left hpays a
    refine ⟨(t, k a), List.mem_append_left _ ?_, hlater⟩
    exact List.mem_set (getElem?_eq_some_iff.mp hn).1 _
  · refine ⟨th, List.mem_append_left _ ?_, howes⟩
    rw [List.mem_iff_getElem?]
    exact ⟨m, by rw [List.getElem?_set_ne (Ne.symm heq)]; exact hm⟩

/-- What an honest thread incurs is owed after the step. -/
theorem owed_of_incurs {a : I.Ans c} {x : δ} (hn : p.threads[n]? = some (t, .call c k))
    (hhon : (Prog.call c k).Honest L) (ha : L.may c a) (hx : x ∈ L.incurs c a) (s : σ)
    (more : List (τ × Prog I α)) :
    (⟨s, p.threads.set n (t, k a) ++ more⟩ : Pool I σ τ α).Owed L x := by
  refine ⟨(t, k a), List.mem_append_left _ ?_, (hhon.2 a ha).2 x hx⟩
  exact List.mem_set (getElem?_eq_some_iff.mp hn).1 _

/-- If the programs are honest, every thread stays so. -/
theorem honest_step (hbody : ∀ t, (body t).Honest L) {p p' : Pool I σ τ α} {a : Action τ ι}
    (hmay : ∀ c i, L.may c (h c i p.shared).1) (hstep : step h body fork p a = some p')
    (hp : ∀ th ∈ p.threads, th.2.Honest L) : ∀ th ∈ p'.threads, th.2.Honest L :=
  each_thread_step hstep hp hbody fun i _ c _ hcall => (hcall.2 _ (hmay c i)).1

end Pool
