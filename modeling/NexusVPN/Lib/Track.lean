import NexusVPN.Lib.Pool

/-! # Threads in phases

    What a thread may do next, and what the others may count on, often depends on what it
    has done so far.  A `Protocol` says so in terms of phases: every call and its answer
    lead from one phase to the next, and some calls have no place in some phases.

    * `Prog.Obeys`: the program makes only calls that have their place.
    * `Tracked`: a pool that keeps the phase of each thread beside it.  The phases decide
      nothing: `exists_step` says that every step of the pool is one of the tracked pool.
    * `Tracked.forall_threads_step`: what is asserted of each thread stays true, if no call
      of another thread makes it false. -/

/-- How calls lead from phase to phase. -/
structure Protocol (I : Iface) (φ : Type) where
  /-- What the answer to a call can be. -/
  may : (c : I.Call) → I.Ans c → Prop
  /-- The calls that have their place in a phase. -/
  legal : φ → I.Call → Prop
  next : φ → (c : I.Call) → I.Ans c → φ

namespace Prog

open List

variable {I : Iface} {φ α β : Type} {P : Protocol I φ}

/-- From that phase on, the program keeps to the protocol, whatever it is answered. -/
def Obeys (P : Protocol I φ) (Q : α → φ → Prop) : Prog I α → φ → Prop
  | .ret a, ph => Q a ph
  | .call c k, ph => P.legal ph c ∧ ∀ a, P.may c a → Obeys P Q (k a) (P.next ph c a)

theorem Obeys.bind {Q : β → φ → Prop} {p : Prog I α} {f : α → Prog I β} {ph : φ}
    (h : p.Obeys P (fun a ph' => (f a).Obeys P Q ph') ph) : (p >>= f).Obeys P Q ph := by
  induction p generalizing ph with
  | ret a => exact h
  | call c k ih => exact ⟨h.1, fun a ha => ih a (h.2 a ha)⟩

theorem obeys_ask {Q : α → φ → Prop} {c : I.Call} {f : I.Ans c → Prog I α} {ph : φ}
    (hlegal : P.legal ph c) (hf : ∀ a, P.may c a → (f a).Obeys P Q (P.next ph c a)) :
    (ask c >>= f).Obeys P Q ph :=
  ⟨hlegal, hf⟩

theorem Obeys.mono {Q Q' : α → φ → Prop} (hQ : ∀ a ph, Q a ph → Q' a ph) {p : Prog I α} {ph : φ}
    (h : p.Obeys P Q ph) : p.Obeys P Q' ph := by
  induction p generalizing ph with
  | ret a => exact hQ a ph h
  | call c k ih => exact ⟨h.1, fun a ha => ih a (h.2 a ha)⟩

end Prog

/-- A pool in which every thread carries its phase. -/
structure Tracked (I : Iface) (σ τ φ α : Type) where
  shared : σ
  threads : List (τ × φ × Prog I α)

namespace Tracked

open List

variable {I : Iface} {σ ι τ φ α : Type}

/-- The threads that a call starts. -/
def forked (first : φ) (body : τ → Prog I α) (fork : I.Call → Option τ) (c : I.Call) :
    List (τ × φ × Prog I α) :=
  (fork c).toList.map fun t => (t, first, body t)

/-- `Pool.step`, with the phases.  A thread started for `t` follows `P t`, from `first` on. -/
def step (h : Handler I σ ι) (P : τ → Protocol I φ) (first : φ) (body : τ → Prog I α)
    (fork : I.Call → Option τ) (p : Tracked I σ τ φ α) :
    Pool.Action τ ι → Option (Tracked I σ τ φ α)
  | .spawn t => some { p with threads := p.threads ++ [(t, first, body t)] }
  | .advance n i =>
    match p.threads[n]? with
    | some (t, ph, .call c k) =>
      some ⟨(h c i p.shared).2,
        p.threads.set n (t, (P t).next ph c (h c i p.shared).1, k (h c i p.shared).1) ++
          forked first body fork c⟩
    | _ => none

/-- The pool without the phases. -/
def erase (p : Tracked I σ τ φ α) : Pool I σ τ α :=
  ⟨p.shared, p.threads.map fun th => (th.1, th.2.2)⟩

variable {h : Handler I σ ι} {P : τ → Protocol I φ} {first : φ} {body : τ → Prog I α}
  {fork : I.Call → Option τ} {t : τ} {x : φ} {q : Prog I α} {a : Pool.Action τ ι}
  {p p' : Tracked I σ τ φ α}

theorem step_cases (hstep : step h P first body fork p a = some p') :
    (∃ t, a = .spawn t ∧ p' = { p with threads := p.threads ++ [(t, first, body t)] }) ∨
    (∃ n i t ph c k, a = .advance n i ∧ p.threads[n]? = some (t, ph, .call c k) ∧
      p' = ⟨(h c i p.shared).2,
        p.threads.set n (t, (P t).next ph c (h c i p.shared).1, k (h c i p.shared).1) ++
          forked first body fork c⟩) := by
  cases a with
  | spawn t => exact .inl ⟨t, rfl, (Option.some.inj hstep).symm⟩
  | advance n i =>
    simp only [step] at hstep
    split at hstep
    · next t ph c k hn => exact .inr ⟨n, i, t, ph, c, k, rfl, hn, (Option.some.inj hstep).symm⟩
    · cases hstep

/-- The same for calls that start no thread. -/
theorem step_cases_unforked (hstep : step h P first body (fun _ => none) p a = some p') :
    (∃ t, a = .spawn t ∧ p' = { p with threads := p.threads ++ [(t, first, body t)] }) ∨
    (∃ n i t ph c k, a = .advance n i ∧ p.threads[n]? = some (t, ph, .call c k) ∧
      p' = ⟨(h c i p.shared).2,
        p.threads.set n (t, (P t).next ph c (h c i p.shared).1, k (h c i p.shared).1)⟩) := by
  have hcases := step_cases hstep
  simpa only [forked, Option.toList_none, map_nil, append_nil] using hcases

theorem erase_step (p : Tracked I σ τ φ α) (a : Pool.Action τ ι) :
    (step h P first body fork p a).map erase = Pool.step h body fork p.erase a := by
  cases a with
  | spawn t => simp [step, Pool.step, erase]
  | advance n i =>
    simp only [step, Pool.step, erase, getElem?_map]
    cases hn : p.threads[n]? with
    | none => rfl
    | some th =>
      obtain ⟨t, ph, q⟩ := th
      cases q with
      | ret a => rfl
      | call c k => simp [map_set, forked, Pool.forked, erase, Function.comp_def]

/-- Keeping track of phases changes nothing. -/
theorem exists_step {q : Pool I σ τ α} (hstep : Pool.step h body fork p.erase a = some q) :
    ∃ p', step h P first body fork p a = some p' ∧ p'.erase = q :=
  Option.map_eq_some_iff.mp ((erase_step p a).trans hstep)

/-- Every thread keeps to its protocol from its phase on, and ends with `Q`. -/
def Conforming (P : τ → Protocol I φ) (Q : τ → α → φ → Prop) (p : Tracked I σ τ φ α) : Prop :=
  ∀ th ∈ p.threads, th.2.2.Obeys (P th.1) (Q th.1) th.2.1

/-- Threads go on conforming, if what is started conforms and the answer is one that may be. -/
theorem conforming_step {Q : τ → α → φ → Prop}
    (hspawn : ∀ t, a = .spawn t → (body t).Obeys (P t) (Q t) first)
    (hfork : ∀ t ph c t', (P t).legal ph c → fork c = some t' → (body t').Obeys (P t') (Q t') first)
    (hmay : ∀ n i t ph c k, a = .advance n i → p.threads[n]? = some (t, ph, .call c k) →
      (P t).may c (h c i p.shared).1)
    (hstep : step h P first body fork p a = some p') (hp : p.Conforming P Q) :
    p'.Conforming P Q := by
  rcases step_cases hstep with ⟨t, ha, rfl⟩ | ⟨n, i, t, ph, c, k, ha, hn, rfl⟩
  · exact forall_mem_append.mpr ⟨hp, forall_mem_singleton.mpr (hspawn t ha)⟩
  · have hcall := hp _ (mem_of_getElem? hn)
    have hnext := hcall.2 _ (hmay n i t ph c k ha hn)
    refine forall_mem_append.mpr ⟨forall_mem_set hp hnext, fun th hth => ?_⟩
    obtain ⟨t', ht', rfl⟩ := mem_map.mp hth
    exact hfork t ph c t' hcall.1 (Option.mem_toList.mp ht')

/-- The same where any answer may be, and no call starts a thread. -/
theorem Conforming.step {Q : τ → α → φ → Prop} (hp : p.Conforming P Q)
    (hbody : ∀ t, (body t).Obeys (P t) (Q t) first) (hmay : ∀ t c x, (P t).may c x)
    (hstep : step h P first body (fun _ => none) p a = some p') : p'.Conforming P Q :=
  conforming_step (fun t _ => hbody t) (fun _ _ _ t' _ _ => hbody t')
    (fun _ _ t _ c _ _ _ => hmay t c _) hstep hp

/-- Every thread keeps to its protocol from its phase on, and ends in the phase `last`. -/
def Obeying (P : τ → Protocol I φ) (last : φ) (p : Tracked I σ τ φ α) : Prop :=
  ∀ th ∈ p.threads, th.2.2.Obeys (P th.1) (fun _ ph => ph = last) th.2.1

/-- What is asserted of every thread, in the shared state as it is.  A thread that makes a
    call has to see to its own assertion and to that of each of the others. -/
theorem forall_threads_step {A : τ × φ × Prog I α → σ → Prop}
    (hstep : step h P first body (fun _ => none) p a = some p')
    (hp : ∀ th ∈ p.threads, A th p.shared)
    (hspawn : ∀ t, a = .spawn t → A (t, first, body t) p.shared)
    (hself : ∀ n i t ph c k, a = .advance n i → p.threads[n]? = some (t, ph, .call c k) →
      A (t, (P t).next ph c (h c i p.shared).1, k (h c i p.shared).1) (h c i p.shared).2)
    (hoth : ∀ n i t ph c k, a = .advance n i → p.threads[n]? = some (t, ph, .call c k) →
      ∀ m th, m ≠ n → p.threads[m]? = some th → A th p.shared → A th (h c i p.shared).2) :
    ∀ th ∈ p'.threads, A th p'.shared := by
  intro th hth
  obtain ⟨m, hm⟩ := getElem?_of_mem hth
  rcases step_cases_unforked hstep with ⟨t, ha, rfl⟩ | ⟨n, i, t, ph, c, k, ha, hn, rfl⟩
  · rcases getElem?_concat_cases hm with hold | ⟨-, rfl⟩
    · exact hp th (mem_of_getElem? hold)
    · exact hspawn t ha
  · rcases getElem?_set_cases hm with ⟨-, rfl⟩ | ⟨hmn, hold⟩
    · exact hself n i t ph c k ha hn
    · exact hoth n i t ph c k ha hn m th hmn hold (hp th (mem_of_getElem? hold))

/-- The same for what does not depend on the shared state. -/
theorem each_thread_step {B : τ × φ × Prog I α → Prop}
    (hstep : step h P first body (fun _ => none) p a = some p') (hp : ∀ th ∈ p.threads, B th)
    (hspawn : ∀ t, a = .spawn t → B (t, first, body t))
    (hself : ∀ n i t ph c k, a = .advance n i → p.threads[n]? = some (t, ph, .call c k) →
      B (t, ph, .call c k) → B (t, (P t).next ph c (h c i p.shared).1, k (h c i p.shared).1)) :
    ∀ th ∈ p'.threads, B th :=
  forall_threads_step (A := fun th _ => B th) hstep hp hspawn
    (fun n i t ph c k ha hn => hself n i t ph c k ha hn (hp _ (mem_of_getElem? hn)))
    fun _ _ _ _ _ _ _ _ _ _ _ _ hth => hth

/-- No two threads are `H` at once. -/
def AtMostOne (H : τ × φ × Prog I α → Prop) (p : Tracked I σ τ φ α) : Prop :=
  ∀ (m m' : Nat) (th th' : τ × φ × Prog I α), p.threads[m]? = some th →
    p.threads[m']? = some th' → H th → H th' → m = m'

/-- A thread may become `H` while no other is. -/
theorem AtMostOne.step {H : τ × φ × Prog I α → Prop} (hp : p.AtMostOne H)
    (hstep : step h P first body (fun _ => none) p a = some p')
    (hspawn : ∀ t, a = .spawn t → H (t, first, body t) →
      ∀ (m : Nat) th, p.threads[m]? = some th → ¬ H th)
    (hself : ∀ n i t ph c k, a = .advance n i → p.threads[n]? = some (t, ph, .call c k) →
      H (t, (P t).next ph c (h c i p.shared).1, k (h c i p.shared).1) →
      H (t, ph, .call c k) ∨ ∀ m th, m ≠ n → p.threads[m]? = some th → ¬ H th) :
    p'.AtMostOne H := by
  intro m m' th th' hm hm' hH hH'
  rcases step_cases_unforked hstep with ⟨t, ha, rfl⟩ | ⟨n, i, t, ph, c, k, ha, hn, rfl⟩
  · -- If the thread that was started is `H`, then none of the others is.
    rcases getElem?_concat_cases hm with hold | ⟨hlast, rfl⟩
    · rcases getElem?_concat_cases hm' with hold' | ⟨-, rfl⟩
      · exact hp m m' th th' hold hold' hH hH'
      · exact absurd hH (hspawn t ha hH' m th hold)
    · rcases getElem?_concat_cases hm' with hold' | ⟨hlast', -⟩
      · exact absurd hH' (hspawn t ha hH m' th' hold')
      · omega
  · -- Whoever else is `H` was so before, and then the one that moved was it as well.
    have hmoved : ∀ (m : Nat) th', m ≠ n → p.threads[m]? = some th' → H th' →
        ¬ H (t, (P t).next ph c (h c i p.shared).1, k (h c i p.shared).1) := by
      intro m th' hmn hm hH' hnew
      rcases hself n i t ph c k ha hn hnew with hold | hnone
      · exact hmn (hp m n th' _ hm hn hH' hold)
      · exact hnone m th' hmn hm hH'
    rcases getElem?_set_cases hm with ⟨hmn, rfl⟩ | ⟨hmn, hold⟩
    · rcases getElem?_set_cases hm' with ⟨hmn', -⟩ | ⟨hmn', hold'⟩
      · rw [hmn, hmn']
      · exact absurd hH (hmoved m' th' hmn' hold' hH')
    · rcases getElem?_set_cases hm' with ⟨-, rfl⟩ | ⟨-, hold'⟩
      · exact absurd hH' (hmoved m th hmn hold hH)
      · exact hp m m' th th' hold hold' hH hH'

/-! ## Who is in a phase -/

/-- Some thread is in the phase. -/
def In (p : Tracked I σ τ φ α) (ph : φ) : Prop := ∃ th ∈ p.threads, th.2.1 = ph

theorem in_spawn :
    ({ p with threads := p.threads ++ [(t, first, q)] } : Tracked I σ τ φ α).In x ↔
      p.In x ∨ first = x := by
  simp [In, or_and_right, exists_or]

/-- Somebody stays in a phase, unless the thread that makes the call was in it and leaves. -/
theorem In.advance {n : Nat} {ph ph' : φ} {q' : Prog I α} {s : σ} {more : List (τ × φ × Prog I α)}
    (hn : p.threads[n]? = some (t, ph, q)) (hx : p.In x) (hne : ph = x → ph' = x) :
    (⟨s, p.threads.set n (t, ph', q') ++ more⟩ : Tracked I σ τ φ α).In x := by
  obtain ⟨th, hth, rfl⟩ := hx
  obtain ⟨m, hm⟩ := getElem?_of_mem hth
  by_cases hmn : n = m
  · -- The acting thread itself was in the phase, and still is.
    subst hmn
    cases hn.symm.trans hm
    refine ⟨(t, ph', q'), mem_append_left _ ?_, hne rfl⟩
    exact mem_set (List.getElem?_eq_some_iff.mp hn).1 _
  · refine ⟨th, mem_append_left _ ?_, rfl⟩
    refine mem_of_getElem? (i := m) ?_
    rw [getElem?_set_ne hmn, hm]

/-- Whoever is in a phase after a call was in it before, unless the call led there. -/
theorem in_of_advance {n : Nat} {ph : φ} {s : σ} {c : I.Call}
    (h : (⟨s, p.threads.set n (t, ph, q) ++ forked first body fork c⟩ : Tracked I σ τ φ α).In x) :
    p.In x ∨ ph = x ∨ first = x := by
  obtain ⟨th, hth, rfl⟩ := h
  rcases mem_append.mp hth with hset | hnew
  · rcases mem_or_eq_of_mem_set hset with hold | rfl
    · exact .inl ⟨th, hold, rfl⟩
    · exact .inr (.inl rfl)
  · obtain ⟨t', -, rfl⟩ := mem_map.mp hnew
    exact .inr (.inr rfl)

end Tracked
