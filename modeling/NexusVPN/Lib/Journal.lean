import NexusVPN.Lib.Debts
import NexusVPN.Lib.Track

/-! # Journals

    What a thread knows is what it has been answered.  Here its phase is just that: a
    journal of its calls and their answers, and a call has its place if the journal bears
    it out.  What is shown of a program alone then holds between any other threads.

    * `Tracked.forall_entries_step`: what the journals say of the shared state.
    * `Prog.Fits`: the rules for programs that may fail.
    * `Prog.Obeys.avoids`: what the journal rules out, the program will not do. -/

/-- The calls that a thread has made and what they were answered, the latest first. -/
abbrev Journal (I : Iface) := List ((c : I.Call) × I.Ans c)

/-- A call has its place if it fits what is in the journal. -/
def Journal.protocol {I : Iface} (fits : Journal I → I.Call → Prop) : Protocol I (Journal I) where
  may _ _ := True
  legal := fits
  next log c a := ⟨c, a⟩ :: log

/-- What the latest entry says of the call that has just been made. -/
theorem Journal.latest_inj {I : Iface} {c c' : I.Call} {a : I.Ans c} {a' : I.Ans c'}
    {log rest : Journal I} (h : (⟨c, a⟩ :: log : Journal I) = ⟨c', a'⟩ :: rest) :
    c = c' ∧ HEq a a' ∧ log = rest := by
  obtain ⟨hentry, hrest⟩ := List.cons.inj h
  obtain ⟨hc, ha⟩ := Sigma.mk.inj hentry
  exact ⟨hc, ha, hrest⟩

namespace Tracked

variable {I : Iface} {σ ι τ α : Type} {p p' p'' : Tracked I σ τ (Journal I) α}

/-- The threads of `p` have gone on to be those of `p'`, and those that had returned are as
    they were. -/
def GoOn (p p' : Tracked I σ τ (Journal I) α) : Prop :=
  ∀ (m : Nat) th, p.threads[m]? = some th → ∃ th', p'.threads[m]? = some th' ∧ th'.1 = th.1 ∧
    th.2.1 ⊆ th'.2.1 ∧ ∀ a, th.2.2 = .ret a → th' = th

theorem GoOn.trans (h : p.GoOn p') (h' : p'.GoOn p'') : p.GoOn p'' := by
  intro m th hm
  obtain ⟨th', hm', htag, hlog, hret⟩ := h m th hm
  obtain ⟨th'', hm'', htag', hlog', hret'⟩ := h' m th' hm'
  refine ⟨th'', hm'', htag'.trans htag, List.Subset.trans hlog hlog', ?_⟩
  intro a ha
  obtain rfl := hret a ha
  exact hret' a ha

variable {body : τ → Prog I α} {a : Pool.Action τ ι} {fits : τ → Journal I → I.Call → Prop}

theorem goOn_step {h : Handler I σ ι} {fork : I.Call → Option τ}
    (hstep : step h (fun t => Journal.protocol (fits t)) [] body fork p a = some p') :
    p.GoOn p' := by
  intro m th hm
  have hlt := (List.getElem?_eq_some_iff.mp hm).1
  rcases step_cases hstep with ⟨t, -, rfl⟩ | ⟨n, i, t, log, c, k, -, hn, rfl⟩
  · refine ⟨th, ?_, rfl, List.Subset.refl _, fun _ _ => rfl⟩
    rw [List.getElem?_append_left hlt, hm]
  · by_cases hnm : n = m
    · -- The thread that makes the call has not returned.
      subst hnm
      cases hn.symm.trans hm
      refine ⟨(t, ⟨c, (h c i p.shared).1⟩ :: log, k (h c i p.shared).1), ?_, rfl,
        List.subset_cons_self _ _, nofun⟩
      rw [List.getElem?_append_left (by rwa [List.length_set]), List.getElem?_set_self hlt]
      rfl
    · refine ⟨th, ?_, rfl, List.Subset.refl _, fun _ _ => rfl⟩
      rw [List.getElem?_append_left (by rwa [List.length_set]), List.getElem?_set_ne hnm, hm]

/-- An entry was there before the step, or the thread has just made that call. -/
theorem entry_cases {h : Handler I σ ι}
    (hstep : step h (fun t => Journal.protocol (fits t)) [] body (fun _ => none) p a = some p')
    {n : Nat} {th : τ × Journal I × Prog I α} (hn : p'.threads[n]? = some th)
    {e : (c : I.Call) × I.Ans c} (he : e ∈ th.2.1) :
    (∃ th₀, p.threads[n]? = some th₀ ∧ e ∈ th₀.2.1) ∨
      ∃ i t log c k, a = .advance n i ∧ p.threads[n]? = some (t, log, .call c k) ∧
        e = ⟨c, (h c i p.shared).1⟩ := by
  rcases step_cases_unforked hstep with ⟨t, -, rfl⟩ | ⟨m, i, t, log, c, k, rfl, hm, rfl⟩
  · rcases List.getElem?_concat_cases hn with hold | ⟨-, rfl⟩
    · exact .inl ⟨th, hold, he⟩
    · cases he
  · rcases List.getElem?_set_cases hn with ⟨rfl, rfl⟩ | ⟨-, hold⟩
    · rcases List.mem_cons.mp he with rfl | hold
      · exact .inr ⟨i, t, log, c, k, rfl, hm, rfl⟩
      · exact .inl ⟨_, hm, hold⟩
    · exact .inl ⟨th, hold, he⟩

/-- What the entries of all journals say of the shared state goes on being true, if it is true
    of each new entry and no call makes it false of an old one. -/
theorem forall_entries_step {h : Handler I σ ι} {K : (c : I.Call) × I.Ans c → σ → Prop}
    (hstep : step h (fun t => Journal.protocol (fits t)) [] body (fun _ => none) p a = some p')
    (hp : ∀ th ∈ p.threads, ∀ e ∈ th.2.1, K e p.shared)
    (hnew : ∀ (n : Nat) i t log c k, p.threads[n]? = some (t, log, .call c k) →
      K ⟨c, (h c i p.shared).1⟩ (h c i p.shared).2)
    (hkept : ∀ (n : Nat) i t log c k, p.threads[n]? = some (t, log, .call c k) →
      ∀ e, K e p.shared → K e (h c i p.shared).2) :
    ∀ th ∈ p'.threads, ∀ e ∈ th.2.1, K e p'.shared := by
  refine forall_threads_step (A := fun th s => ∀ e ∈ th.2.1, K e s) hstep hp ?_ ?_ ?_
  · exact nofun
  · exact fun n i t log c k _ hn => List.forall_mem_cons.mpr ⟨hnew n i t log c k hn,
      fun e he => hkept n i t log c k hn e (hp _ (List.mem_of_getElem? hn) e he)⟩
  · exact fun n i t log c k _ hn m th _ _ hth e he => hkept n i t log c k hn e (hth e he)

end Tracked

namespace Prog

/-- The handler that also keeps a journal. -/
def journaled {I : Iface} {σ ι : Type} (h : Handler I σ ι) : Handler I (σ × Journal I) ι :=
  fun c i s => ((h c i s.1).1, (h c i s.1).2, ⟨c, (h c i s.1).1⟩ :: s.2)

/-- The journal changes nothing. -/
theorem exec_journaled {I : Iface} {σ ι α : Type} (h : Handler I σ ι) (p : Prog I α)
    (w : Nat → ι) (s : σ) (log : Journal I) :
    ((exec (journaled h) p w (s, log)).1, (exec (journaled h) p w (s, log)).2.1) =
      exec h p w s := by
  induction p generalizing w s log with
  | ret a => rfl
  | call c k ih => exact ih _ _ _ _

/-- A program makes none of the calls that have no place any more.  `K` is what rules them
    out, once it is in the journal. -/
theorem Obeys.avoids {I : Iface} {α : Type} {fits : Journal I → I.Call → Prop}
    {Q : α → Journal I → Prop} {K : Journal I → Prop} {bad : I.Call → Prop}
    (hkeep : ∀ log e, K log → K (e :: log)) (hbad : ∀ log c, K log → fits log c → ¬ bad c)
    {p : Prog I α} {log : Journal I} (hp : p.Obeys (Journal.protocol fits) Q log) (hK : K log) :
    p.Avoids bad := by
  induction p generalizing log with
  | ret a => trivial
  | call c k ih =>
    refine ⟨hbad log c hK hp.1, ?_⟩
    intro a
    exact ih a (hp.2 a trivial) (hkeep log ⟨c, a⟩ hK)

theorem Obeys.weaken {I : Iface} {α : Type} {fits fits' : Journal I → I.Call → Prop}
    {Q : α → Journal I → Prop} (hfits : ∀ log c, fits log c → fits' log c) {p : Prog I α}
    {log : Journal I} (hp : p.Obeys (Journal.protocol fits) Q log) :
    p.Obeys (Journal.protocol fits') Q log := by
  induction p generalizing log with
  | ret a => exact hp
  | call c k ih => exact ⟨hfits log c hp.1, fun a _ => ih a (hp.2 a trivial)⟩

/-- A program that runs alone keeps what each of its calls keeps, and ends as it should. -/
theorem Obeys.exec_journaled {I : Iface} {σ ι α : Type} {h : Handler I σ ι}
    {fits : Journal I → I.Call → Prop} {Q : α → Journal I → Prop} {J : σ → Journal I → Prop}
    (w : Nat → ι) (hcall : ∀ c n s log, J s log → fits log c →
      J (h c (w n) s).2 (⟨c, (h c (w n) s).1⟩ :: log))
    {p : Prog I α} {s : σ} {log : Journal I} (hp : p.Obeys (Journal.protocol fits) Q log)
    (hJ : J s log) :
    J (exec (journaled h) p w (s, log)).2.1 (exec (journaled h) p w (s, log)).2.2 ∧
      Q (exec (journaled h) p w (s, log)).1 (exec (journaled h) p w (s, log)).2.2 := by
  induction p generalizing s log w with
  | ret a => exact ⟨hJ, hp⟩
  | call c k ih =>
    exact ih _ _ (fun c n => hcall c (n + 1)) (hp.2 _ trivial) (hcall c 0 s log hJ hp.1)

/-! ## Programs that may fail -/

section

/-- The journal of such a program. -/
abbrev CallLog (C : Type) (R : C → Type) (ε : Type) := Journal (Iface.failing C R ε)

variable {C : Type} {R : C → Type} {ε α β : Type} {fits : CallLog C R ε → C → Prop}

variable (fits) in
/-- All calls of the program fit, whatever is answered, and if it succeeds then with `Q`. -/
def Fits (p : Fallible C R ε α) (Q : α → CallLog C R ε → Prop) (log : CallLog C R ε) : Prop :=
  p.run.Obeys (Journal.protocol fits) (fun r log' => ∀ a, r = .ok a → Q a log') log

variable {log : CallLog C R ε} {Q : α → CallLog C R ε → Prop} {p : Fallible C R ε α}

theorem fits_pure {a : α} (h : Q a log) : Fits fits (pure a) Q log := by
  intro a' ha'
  rw [← Except.ok.inj ha']
  exact h

theorem fits_throw (e : ε) : Fits fits (throw e) Q log := nofun

theorem fits_attempt {c : C} {Q : R c → CallLog C R ε → Prop} (hc : fits log c)
    (hQ : ∀ r, Q r (⟨c, .ok r⟩ :: log)) : Fits fits (attempt c) Q log := by
  refine ⟨hc, ?_⟩
  intro r _ a ha
  subst ha
  exact hQ a

theorem fits_tryCall {c : C} {Q : Except ε (R c) → CallLog C R ε → Prop}
    (hc : fits log c) (hQ : ∀ r, Q r (⟨c, r⟩ :: log)) : Fits fits (tryCall c) Q log := by
  refine ⟨hc, ?_⟩
  intro r _ a ha
  rw [← Except.ok.inj ha]
  exact hQ r

theorem Fits.bind {Q : β → CallLog C R ε → Prop} {f : α → Fallible C R ε β}
    (h : Fits fits p (fun a log' => Fits fits (f a) Q log') log) : Fits fits (p >>= f) Q log := by
  apply Obeys.bind
  refine Obeys.mono ?_ h
  intro r log' hr
  cases r with
  | ok a => exact hr a rfl
  | error e => exact nofun

theorem fits_call {c : C} {f : R c → Fallible C R ε α} (hc : fits log c)
    (hf : ∀ r, Fits fits (f r) Q (⟨c, .ok r⟩ :: log)) : Fits fits (attempt c >>= f) Q log :=
  Fits.bind (fits_attempt hc hf)

theorem fits_try {c : C} {f : Except ε (R c) → Fallible C R ε α} (hc : fits log c)
    (hf : ∀ r, Fits fits (f r) Q (⟨c, r⟩ :: log)) : Fits fits (tryCall c >>= f) Q log :=
  Fits.bind (fits_tryCall hc hf)

theorem fits_require {b : Bool} {e : ε} {f : Unit → Fallible C R ε α}
    (hf : b = true → Fits fits (f ()) Q log) :
    Fits fits ((if b then pure () else throw e) >>= f) Q log := by
  cases b with
  | true => exact Fits.bind (fits_pure (hf rfl))
  | false => exact Fits.bind (fits_throw e)

theorem Fits.mono {Q' : α → CallLog C R ε → Prop}
    (hQ : ∀ a log', Q a log' → Q' a log') (h : Fits fits p Q log) : Fits fits p Q' log :=
  Obeys.mono (fun _ log' hr a ha => hQ a log' (hr a ha)) h

/-- Errors that are replaced by others. -/
theorem fits_adapt {f : ε → ε} (h : Fits fits p Q log) : Fits fits (p.adapt f) Q log := by
  apply Obeys.bind
  refine Obeys.mono ?_ h
  intro r log' hr a ha
  cases r with
  | ok b => exact hr a ha
  | error e => cases ha

/-- A loop each of whose rounds starts and ends with `K` in the journal. -/
theorem fits_mapM {K : CallLog C R ε → Prop} {f : α → Fallible C R ε β}
    (hf : ∀ a log', K log' → Fits fits (f a) (fun _ => K) log') (as : List α) (hK : K log) :
    Fits fits (as.mapM f) (fun _ => K) log := by
  induction as generalizing log with
  | nil => exact fits_pure hK
  | cons a as ih =>
    rw [List.mapM_cons]
    apply Fits.bind
    refine (hf a log hK).mono ?_
    intro b log' hlog'
    apply Fits.bind
    exact (ih hlog').mono fun bs log'' hlog'' => fits_pure hlog''

end

end Prog
