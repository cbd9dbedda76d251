import NexusVPN.Backend.Expiry
import NexusVPN.Lib.Machine

/-! # How many calls the limiter lets through

    `limiter.Allow` counts from the call that starts a window, and the next window starts with
    the first call after that one has run out, or after a sweep has dropped its entry.  Windows
    are aligned with nothing, so an interval as long as a window may meet two of them. -/

namespace NexusVPN.Backend.Expiry

open Auth Machine Limiter

/-- A call of `Allow`: when it was made, whether it started a window, and its answer. -/
structure Ruling where
  time : Time
  starts : Bool
  allowed : Bool

/-- The store, the latest time shown by the clock, and the calls so far, the last one first. -/
structure Counting where
  store : Ephemeral
  clock : Time
  rulings : List Ruling

inductive Turn where
  | allow (now : Time)
  | expire (now : Time) (order : SweepOrder)

/-- `!ok || now.After(entry.resets)`. -/
def startsWindow (s : AuthState) (key : String) (now : Time) : Bool :=
  (s.limits.lookup key).all fun e => now.after e.resets

/-- Calls look at the clock while they hold the lock.  A sweep looks before, and may be late. -/
def Counting.step (key : String) (limit : Nat) (window : Int) (st : Counting) :
    Turn → Option Counting
  | .allow now =>
    let r := perform (.allow key limit window) { (default : RepoInput) with now := now } st.store
    if st.clock ≤ now then
      some ⟨r.2, now,
        ⟨now, startsWindow st.store.auth key now, decide (r.1 = .ok true)⟩ :: st.rulings⟩
    else none
  | .expire now order => some ⟨expire now order st.store, max st.clock now, st.rulings⟩

/-- How many calls were allowed from `t` on, for as long as a window. -/
def allowedFrom (t : Time) (window : Int) (rs : List Ruling) : Nat :=
  rs.countP fun r => r.allowed && decide (t ≤ r.time ∧ r.time < t + window)

/-- How many calls were allowed since the last window started. -/
def allowedInWindow : List Ruling → Nat
  | [] => 0
  | r :: rs => (if r.allowed then 1 else 0) + if r.starts then 0 else allowedInWindow rs

structure Bounded (limit : Nat) (window : Int) (st : Counting) : Prop where
  interval : ∀ t, allowedFrom t window st.rulings ≤ 2 * limit
  window : allowedInWindow st.rulings ≤ limit

/-! ## The invariant -/

/-- What the entry of the key says of the number `n` of calls allowed from `t` on.  The interval
    is over; or no window has started in it; or one has, and lasts longer. -/
def Covers (limit : Nat) (window t clock : Int) (n : Nat) (entry : Option LimitEntry) : Prop :=
  (clock < t → n = 0) ∧
  ((t + window ≤ clock ∧ n ≤ 2 * limit) ∨ (n ≤ limit ∧ ∀ e ∈ entry, n ≤ e.count) ∨
    ∃ e ∈ entry, t + window ≤ e.resets ∧ n ≤ limit + e.count ∧ n ≤ 2 * limit)

structure Metered (key : String) (limit : Nat) (window : Int) (st : Counting) : Prop where
  interval : ∀ t, Covers limit window t st.clock (allowedFrom t window st.rulings)
    (st.store.auth.limits.lookup key)
  window : allowedInWindow st.rulings ≤ limit ∧
    ∀ e ∈ st.store.auth.limits.lookup key, allowedInWindow st.rulings ≤ e.count

variable {key : String} {limit : Nat} {window t clock now : Int} {n : Nat}
  {entry : Option LimitEntry}

theorem Covers.expire (h : Covers limit window t clock n entry) {entry' : Option LimitEntry}
    (hsame : entry' = entry ∨ entry' = none ∧ ∀ e ∈ entry, ¬ now ≤ e.resets) :
    Covers limit window t (max clock now) n entry' := by
  obtain ⟨hearly, hn⟩ := h
  refine ⟨fun hlt => hearly (by omega), ?_⟩
  rcases hn with hover | ⟨hfirst, hcount⟩ | ⟨e, he, hlasts, hn⟩
  · exact .inl ⟨by omega, hover.2⟩
  · rcases hsame with rfl | ⟨rfl, -⟩
    · exact .inr (.inl ⟨hfirst, hcount⟩)
    · exact .inr (.inl ⟨hfirst, nofun⟩)
  · rcases hsame with rfl | ⟨rfl, hgone⟩
    · exact .inr (.inr ⟨e, he, hlasts, hn⟩)
    · have := hgone e he
      exact .inl ⟨by omega, hn.2⟩

/-- The entry that counts a call made now: the one that is there, or one that starts a window. -/
def Counts (window now : Int) (entry : Option LimitEntry) (starts : Bool) (e : LimitEntry) : Prop :=
  (starts = false ∧ entry = some e) ∨
    starts = true ∧ e = ⟨0, now + window, 0⟩ ∧ ∀ e' ∈ entry, ¬ now ≤ e'.resets

theorem Covers.allow {starts : Bool} {e : LimitEntry} {k : Nat}
    (h : Covers limit window t clock n entry) (hclock : clock ≤ now)
    (hentry : Counts window now entry starts e)
    (hk : k = 0 ∨ k = 1 ∧ e.count + 1 ≤ limit ∧ t ≤ now ∧ now < t + window) :
    Covers limit window t now (n + k) (some ⟨e.count + 1, e.resets, limit⟩) := by
  obtain ⟨hearly, hn⟩ := h
  simp only [Covers, Option.mem_some_iff, forall_eq', exists_eq_left']
  refine ⟨by omega, ?_⟩
  rcases hn with hover | ⟨hfirst, hcount⟩ | ⟨e', he', hlasts, hn⟩
  · omega
  · rcases hentry with ⟨-, rfl⟩ | ⟨-, rfl, -⟩
    · have := hcount e rfl
      omega
    · -- The first window that starts in the interval outlasts it.
      show _ ∨ _ ∨ t + window ≤ now + window ∧ _
      omega
  · rcases hentry with ⟨-, rfl⟩ | ⟨-, rfl, hgone⟩
    · cases he'
      omega
    · have := hgone e' he'
      omega

/-! ## Steps -/

variable {st st' : Counting}

theorem counts_entryAt (key : String) (window : Int) (s : AuthState) (now : Time) :
    Counts window now (s.limits.lookup key) (startsWindow s key now)
      (entryAt s key now window) := by
  unfold startsWindow entryAt
  cases s.limits.lookup key with
  | none => exact .inr ⟨rfl, rfl, nofun⟩
  | some e =>
    by_cases hgone : now ≤ e.resets
    · have hkept := not_after_of_le hgone
      exact .inl ⟨by simpa using hkept, congrArg some (if_neg hkept).symm⟩
    · have hafter := after_of_lt (Int.not_le.mp hgone)
      exact .inr ⟨hafter, if_pos hafter, by rintro _ ⟨⟩; exact hgone⟩

theorem step_allow {e : LimitEntry} (he : entryAt st.store.auth key now window = e)
    (hstep : st.step key limit window (.allow now) = some st') :
    st.clock ≤ now ∧ st'.clock = now ∧
    st'.store.auth.limits.lookup key = some ⟨e.count + 1, e.resets, limit⟩ ∧
    st'.rulings = ⟨now, startsWindow st.store.auth key now, decide (e.count + 1 ≤ limit)⟩ ::
      st.rulings := by
  subst he
  obtain ⟨hclock, ⟨⟩⟩ := Option.ite_none_right_eq_some.mp hstep
  exact ⟨hclock, rfl, AList.lookup_insert _, by simp [perform, onAuth, Limiter.allow]⟩

theorem Metered.allow (h : Metered key limit window st)
    (hstep : st.step key limit window (.allow now) = some st') : Metered key limit window st' := by
  have hcounts := counts_entryAt key window st.store.auth now
  generalize he : entryAt st.store.auth key now window = e at hcounts
  obtain ⟨hclock, hnow, hlook, hrulings⟩ := step_allow he hstep
  refine ⟨fun t => ?_, ?_⟩
  · rw [hlook, hnow, hrulings, allowedFrom, List.countP_cons]
    refine (h.interval t).allow hclock hcounts ?_
    split
    · next hin =>
      obtain ⟨hroom, hin⟩ := Bool.and_eq_true_iff.mp hin
      exact .inr ⟨rfl, of_decide_eq_true hroom, of_decide_eq_true hin⟩
    · exact .inl rfl
  · have hlimit := h.window.1
    simp only [hlook, hrulings, allowedInWindow, Option.mem_some_iff, forall_eq', decide_eq_true_eq]
    rcases hcounts with ⟨hstarts, hold⟩ | ⟨hstarts, rfl, -⟩
    · have := h.window.2 e hold
      rw [hstarts]
      split <;> simp <;> omega
    · rw [hstarts]
      split <;> simp
      omega

theorem Metered.expire (h : Metered key limit window st) (now : Time) (order : SweepOrder) :
    Metered key limit window ⟨Expiry.expire now order st.store, max st.clock now, st.rulings⟩ := by
  have hsame : (Expiry.expire now order st.store).auth.limits.lookup key =
        st.store.auth.limits.lookup key ∨
      (Expiry.expire now order st.store).auth.limits.lookup key = none ∧
        ∀ e ∈ st.store.auth.limits.lookup key, ¬ now ≤ e.resets := by
    show (GoMap.deleteLoop _ _ _).lookup key = _ ∨ (GoMap.deleteLoop _ _ _).lookup key = none ∧ _
    rw [GoMap.lookup_deleteLoop]
    cases st.store.auth.limits.lookup key with
    | none => exact .inl rfl
    | some e =>
      by_cases hgone : now ≤ e.resets
      · exact .inl (by simpa using not_after_of_le hgone)
      · refine .inr ⟨?_, by rintro _ ⟨⟩; exact hgone⟩
        simpa using after_of_lt (Int.not_le.mp hgone)
  refine ⟨fun t => (h.interval t).expire hsame, h.window.1, fun e he => ?_⟩
  rcases hsame with heq | ⟨hnone, -⟩
  · exact h.window.2 e (heq ▸ he)
  · cases hnone.symm.trans he

/-- However sweeps fall between the calls, no interval as long as a window sees more than twice
    the limit, and no window more than the limit. -/
theorem allowed_bounded (key : String) (limit : Nat) (window : Int) (store : Ephemeral)
    (clock : Time) (turns : List Turn) :
    Throughout (Counting.step key limit window) (Bounded limit window)
      ⟨store, clock, []⟩ turns := by
  have hmetered : Metered key limit window ⟨store, clock, []⟩ :=
    ⟨fun _ => ⟨fun _ => rfl, .inr (.inl ⟨Nat.zero_le _, fun _ _ => Nat.zero_le _⟩)⟩,
      Nat.zero_le _, fun _ _ => Nat.zero_le _⟩
  refine (Along.throughout (C := fun _ _ => True) (fun st a st' h _ hstep => ?_) hmetered
    (along_of_forall_mem (fun _ _ _ => trivial) _)).mono fun st h => ⟨fun t => ?_, h.window.1⟩
  · cases a with
    | allow now => exact h.allow hstep
    | expire now order =>
      cases hstep
      exact h.expire now order
  · rcases (h.interval t).2 with hover | ⟨hfirst, -⟩ | ⟨-, -, -, -, hn⟩
    · exact hover.2
    · omega
    · exact hn

end NexusVPN.Backend.Expiry
