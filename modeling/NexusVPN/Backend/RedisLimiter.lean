import NexusVPN.Basic
import NexusVPN.Lib.Debts
import NexusVPN.Lib.GoMap

/-! # The rate limiter on Redis

    `repository/redis/ratelimit.go`.  `Allow` counts with one command and, if it was the
    first to count, sets the expiry with another.  Any number of calls are in progress, every
    command may fail, before or after Redis has carried it out, and a caller may stop between
    its two commands. -/

namespace NexusVPN.Backend.Redis

open List Prog Machine

structure Counter where
  count : Int
  /-- There is none until somebody has set it. -/
  expiresAt : Option Time

abbrev Counters := GoMap String Counter

/-- A key is gone once its expiry is over. -/
def live (now : Time) (s : Counters) (key : String) : Option Counter :=
  (s.lookup key).filter fun c => c.expiresAt.all fun e => decide (now ≤ e)

inductive LimiterCall where
  | incr (key : String)
  | expire (key : String) (window : Int)

/-- `Expire` may fail as well, but `Allow` does not look at its result. -/
@[reducible] def limiterIface : Iface where
  Call := LimiterCall
  Ans
    | .incr _ => Option Int
    | .expire _ _ => Unit

/-- What becomes of a command. -/
inductive Fate where
  | done
  | refused
  /-- It is carried out, but the caller gets an error. -/
  | unanswered
deriving DecidableEq

structure LimiterInput where
  now : Time
  fate : Fate

/-- The counter after one more `INCR`. -/
def bump : Option Counter → Counter
  | none => ⟨1, none⟩
  | some c => { c with count := c.count + 1 }

/-- `EXPIRE`, which deletes the key if the time is over at once. -/
def setExpiry (now : Time) (key : String) (window : Int) (s : Counters) : Counters :=
  match live now s key with
  | none => s
  | some c =>
    if window ≤ 0 then s.erase key else s.insert key { c with expiresAt := some (now + window) }

def handler : Handler limiterIface Counters LimiterInput
  | .incr key, i, s =>
    let c := bump (live i.now s key)
    match i.fate with
    | .refused => (none, s)
    | .unanswered => (none, s.insert key c)
    | .done => (some c.count, s.insert key c)
  | .expire key window, i, s =>
    ((), if i.fate = .refused then s else setExpiry i.now key window s)

def fullKey (key : String) : String := "nexusvpn:ratelimit:" ++ key

/-- `Allow`; an error is `none`. -/
def allow (key : String) (limit window : Int) : Prog limiterIface (Option Bool) := do
  match ← ask (I := limiterIface) (.incr (fullKey key)) with
  | none => return none
  | some count =>
    if count = 1 then ask (I := limiterIface) (.expire (fullKey key) window)
    return some (decide (count ≤ limit))

/-! ## Calls in progress -/

structure AllowCall where
  key : String
  limit : Int
  window : Int

def AllowCall.body (t : AllowCall) : Prog limiterIface (Option Bool) := allow t.key t.limit t.window

abbrev Callers := Pool limiterIface Counters AllowCall (Option Bool)

inductive Action where
  | call (a : Pool.Action AllowCall LimiterInput)
  /-- The caller does nothing more. -/
  | stop (n : Nat)

def step (p : Callers) : Action → Option Callers
  | .call a => Pool.step handler AllowCall.body (fun _ => none) p a
  | .stop n => p.threads[n]?.map fun th => { p with threads := p.threads.set n (th.1, .ret none) }

/-- Whoever is told that it was the first to count has to set the expiry. -/
def limiterLedger : Ledger limiterIface String where
  may _ _ := True
  fine _ := True
  incurs
    | .incr key, some 1 => [key]
    | _, _ => []
  settles
    | .expire key _ => [key]
    | _ => []

/-- Every counter has an expiry, or somebody who will set it. -/
def Tended (s : Counters) (owed : String → Prop) : Prop :=
  ∀ key c, s.lookup key = some c → c.expiresAt.isSome = true ∨ owed key

/-- No `EXPIRE` is refused, and the answer to the first `INCR` of a counter is not lost. -/
def Heard (i : LimiterInput) (s : Counters) : LimiterCall → Prop
  | .incr key => i.fate = .unanswered → live i.now s key ≠ none
  | .expire _ _ => i.fate ≠ .refused

/-- Commands are heard, and nobody stops who has an expiry to set. -/
def Careful (p : Callers) : Action → Prop
  | .call (.spawn _) => True
  | .call (.advance n i) => ∀ t c k, p.threads[n]? = some (t, .call c k) → Heard i p.shared c
  | .stop n => ∀ th, p.threads[n]? = some th → ∀ key, ¬ th.2.Owes limiterLedger key

/-! ## What is owed -/

theorem honest_allow (t : AllowCall) : t.body.Honest limiterLedger := by
  refine ⟨trivial, fun a _ => ?_⟩
  cases a with
  | none => exact ⟨trivial, nofun⟩
  | some count =>
    by_cases hcount : count = 1
    · subst hcount
      refine ⟨⟨trivial, fun _ _ => ⟨trivial, nofun⟩⟩, fun key hkey => ?_⟩
      rw [mem_singleton.mp hkey]
      exact .inl (mem_singleton_self _)
    · have hnone : limiterLedger.incurs (.incr (fullKey t.key)) (some count) = [] := by
        simp [limiterLedger, hcount]
      show (if count = 1 then _ else _ : Prog limiterIface _).Honest limiterLedger ∧ _
      rw [hnone, if_neg hcount]
      exact ⟨trivial, nofun⟩

variable {now : Time} {s : Counters} {key : String} {x : Counter} {p p' : Callers}

theorem setExpiry_cases {key' : String} {window : Int}
    (hx : (setExpiry now key window s).lookup key' = some x) :
    x.expiresAt.isSome = true ∨ key' ≠ key ∧ s.lookup key' = some x := by
  by_cases heq : key' = key
  · subst heq
    left
    unfold setExpiry at hx
    split at hx
    · next hnone =>
      -- A key without an expiry would be live.
      cases hexp : x.expiresAt with
      | some e => rfl
      | none => simp [live, hx, hexp] at hnone
    · split at hx
      · rw [GoMap.lookup_erase_if, if_pos rfl] at hx
        cases hx
      · rw [GoMap.lookup_insert_if, if_pos rfl] at hx
        cases hx
        rfl
  · refine .inr ⟨heq, ?_⟩
    unfold setExpiry at hx
    split at hx
    · exact hx
    · split at hx
      · rwa [GoMap.lookup_erase_if, if_neg heq] at hx
      · rwa [GoMap.lookup_insert_if, if_neg heq] at hx

/-- A command that is heard leaves all counters tended, if what it does not settle stays owed. -/
theorem Tended.handler {owed owed' : String → Prop} (h : Tended s owed) {c : LimiterCall}
    {i : LimiterInput} (hc : Heard i s c)
    (hkeep : ∀ key, owed key → key ∉ limiterLedger.settles c → owed' key)
    (hnew : ∀ key ∈ limiterLedger.incurs c (handler c i s).1, owed' key) :
    Tended (Redis.handler c i s).2 owed' := by
  intro key x hx
  have hkept : ∀ {x₀}, s.lookup key = some x₀ → key ∉ limiterLedger.settles c →
      x₀.expiresAt.isSome = true ∨ owed' key :=
    fun hx₀ hpays => (h key _ hx₀).imp_right fun howed => hkeep key howed hpays
  cases c with
  | incr key' =>
    by_cases href : i.fate = .refused
    · simp only [Redis.handler, href] at hx
      exact hkept hx not_mem_nil
    · have hsto : (Redis.handler (.incr key') i s).2 =
          s.insert key' (bump (live i.now s key')) := by
        cases hfate : i.fate <;> simp_all [Redis.handler]
      rw [hsto, GoMap.lookup_insert_if] at hx
      split at hx
      · next heq =>
        subst heq
        cases hlive : live i.now s key with
        | some x₀ =>
          rw [hlive] at hx
          cases hx
          have hdue := hkept (Option.filter_eq_some_iff.mp hlive).1 not_mem_nil
          exact hdue
        | none =>
          -- The answer is not lost, so that the caller knows that the counter is new.
          have hdone : (Redis.handler (.incr key) i s).1 = some 1 := by
            cases hfate : i.fate with
            | done => simp [Redis.handler, hfate, hlive, bump]
            | refused => exact absurd hfate href
            | unanswered => exact absurd hlive (hc hfate)
          refine .inr (hnew key ?_)
          rw [hdone]
          exact mem_singleton_self key
      · exact hkept hx not_mem_nil
  | expire key' window =>
    have hdone : (Redis.handler (.expire key' window) i s).2 = setExpiry i.now key' window s :=
      if_neg hc
    rw [hdone] at hx
    rcases setExpiry_cases hx with hsome | ⟨hne, hold⟩
    · exact .inl hsome
    · exact hkept hold fun hmem => hne (mem_singleton.mp hmem)

/-- All callers are honest, and all counters are tended. -/
def Orderly (p : Callers) : Prop :=
  (∀ th ∈ p.threads, th.2.Honest limiterLedger) ∧ Tended p.shared (p.Owed limiterLedger)

theorem Orderly.step {a : Action} (h : Orderly p) (hc : Careful p a) (hstep : step p a = some p') :
    Orderly p' := by
  cases a with
  | call a =>
    refine ⟨Pool.honest_step honest_allow (fun _ _ => trivial) hstep h.1, ?_⟩
    rcases Pool.step_cases hstep with ⟨t, rfl, rfl⟩ | ⟨n, i, t, c, k, rfl, hn, rfl⟩
    · exact fun key x hx => (h.2 key x hx).imp_right fun howed => howed.append _ _
    · refine h.2.handler (hc t c k hn) (fun key howed hpays => howed.advance hn hpays _ _ _) ?_
      exact fun key hkey =>
        Pool.owed_of_incurs hn (h.1 _ (mem_of_getElem? hn)) trivial hkey _ _
  | stop n =>
    obtain ⟨th, hn, rfl⟩ := Option.map_eq_some_iff.mp hstep
    refine ⟨forall_mem_set h.1 trivial, fun key x hx => (h.2 key x hx).imp_right ?_⟩
    rintro ⟨th', hth', howes⟩
    obtain ⟨m, hm⟩ := mem_iff_getElem?.mp hth'
    -- The one who stops does not owe it.
    have hne : n ≠ m := by
      rintro rfl
      cases hn.symm.trans hm
      exact hc th hn key howes
    exact ⟨th', mem_iff_getElem?.mpr ⟨m, by rw [getElem?_set_ne hne, hm]⟩, howes⟩

end NexusVPN.Backend.Redis
