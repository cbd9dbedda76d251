import NexusVPN.Lib.Journal

/-! # Replaying a journal

    A program that has come some way among other threads could have come the same way alone,
    if what it was answered is what it would be answered now.

    * `Prog.Meets`: the rules for programs that may fail, with what holds in either case. -/

namespace Prog

variable {I : Iface} {σ ι α β : Type}

/-- With these calls and answers the program `p` comes to be `q`. -/
inductive Follows (p : Prog I α) : Journal I → Prog I α → Prop where
  | nil : Follows p [] p
  | cons {log : Journal I} {c : I.Call} {k : I.Ans c → Prog I α} (a : I.Ans c)
      (h : Follows p log (.call c k)) : Follows p (⟨c, a⟩ :: log) (k a)

/-- If every call of the journal would be answered as it was, and changes nothing, then the
    program alone comes to where the journal has taken it. -/
theorem Follows.replay {h : Handler I σ ι} {p q : Prog I α} {log : Journal I} {s : σ}
    (hfollows : p.Follows log q) (hlog : ∀ e ∈ log, ∃ i, h e.1 i s = (e.2, s)) (w : Nat → ι) :
    ∃ w', exec h p w' s = exec h q w s := by
  induction hfollows generalizing w with
  | nil => exact ⟨w, rfl⟩
  | @cons log c k a _ ih =>
    obtain ⟨i, hi⟩ := hlog _ List.mem_cons_self
    have hrest := ih (fun e he => hlog e (List.mem_cons_of_mem _ he)) fun n => Nat.casesOn n i w
    obtain ⟨w', hw'⟩ := hrest
    refine ⟨w', hw'.trans ?_⟩
    show exec h (k (h c i s).1) w (h c i s).2 = _
    rw [hi]

/-! ## Programs that may fail -/

section

variable {C : Type} {R : C → Type} {ε : Type} {fits : CallLog C R ε → C → Prop}

variable (fits) in
/-- All calls of the program fit, whatever is answered.  It succeeds with `Q`, or fails
    with `E`. -/
def Meets (p : Fallible C R ε α) (Q : α → CallLog C R ε → Prop) (E : ε → CallLog C R ε → Prop)
    (log : CallLog C R ε) : Prop :=
  p.run.Obeys (Journal.protocol fits) (outcome Q E) log

variable {log : CallLog C R ε} {Q : α → CallLog C R ε → Prop} {E : ε → CallLog C R ε → Prop}

theorem meets_pure {a : α} (h : Q a log) : Meets fits (pure a) Q E log := h

theorem meets_throw {e : ε} (h : E e log) : Meets fits (throw e) Q E log := h

theorem Meets.bind {Q : β → CallLog C R ε → Prop} {p : Fallible C R ε α} {f : α → Fallible C R ε β}
    (h : Meets fits p (fun a log' => Meets fits (f a) Q E log') E log) :
    Meets fits (p >>= f) Q E log := by
  apply Obeys.bind
  refine Obeys.mono ?_ h
  intro r log' hr
  cases r with
  | ok | error => exact hr

/-- A call, and then the rest, if the call succeeds. -/
theorem meets_attempt {c : C} {f : R c → Fallible C R ε α}
    (hc : fits log c) (hf : ∀ r, Meets fits (f r) Q E (⟨c, .ok r⟩ :: log))
    (he : ∀ e, E e (⟨c, .error e⟩ :: log)) : Meets fits (attempt c >>= f) Q E log := by
  apply Meets.bind
  refine ⟨hc, ?_⟩
  intro r _
  cases r with
  | ok r => exact hf r
  | error e => exact he e

/-- One last call. -/
theorem meets_last {c : C} {Q : R c → CallLog C R ε → Prop} (hc : fits log c)
    (hQ : ∀ r, Q r (⟨c, .ok r⟩ :: log)) (he : ∀ e, E e (⟨c, .error e⟩ :: log)) :
    Meets fits (attempt c) Q E log := by
  refine ⟨hc, ?_⟩
  intro r _
  cases r with
  | ok r => exact hQ r
  | error e => exact he e

theorem meets_tryCall {c : C} {f : Except ε (R c) → Fallible C R ε α}
    (hc : fits log c) (hf : ∀ r, Meets fits (f r) Q E (⟨c, r⟩ :: log)) :
    Meets fits (tryCall c >>= f) Q E log :=
  Meets.bind ⟨hc, fun r _ => hf r⟩

end

end Prog

namespace Tracked

variable {I : Iface} {σ ι τ α : Type} {p p' : Tracked I σ τ (Journal I) α}

/-- Every thread is where its journal takes it. -/
theorem follows_step {h : Handler I σ ι} {fits : τ → Journal I → I.Call → Prop}
    {body : τ → Prog I α} {a : Pool.Action τ ι}
    (hstep : step h (fun t => Journal.protocol (fits t)) [] body (fun _ => none) p a = some p')
    (hp : ∀ th ∈ p.threads, (body th.1).Follows th.2.1 th.2.2) :
    ∀ th ∈ p'.threads, (body th.1).Follows th.2.1 th.2.2 := by
  refine each_thread_step hstep hp (fun t _ => .nil) ?_
  exact fun n i t log c k _ _ hth => .cons _ hth

end Tracked
