import NexusVPN.Backend.Accounts
import NexusVPN.Lib.Expiring

/-! # Sweeping what has expired

    Presence, candidates and rate limits are never written to disk.  Each of their entries has
    a time at which it expires; whoever reads it looks at the clock, and `expire` drops what is
    out of date once a second.  A sweep leaves a state that differs in expired entries only,
    and every call is answered alike in both. -/

namespace NexusVPN.Backend

open PresenceStore PresenceEntry GoMap

namespace PresenceStore

def onlineInNetwork (networkID : UUID) : Method (List UUID) := fun i s =>
  (.ok (((range i.order s.presence).filter fun e =>
    e.2.networkID == networkID && decide (i.now < e.2.expires)).map Prod.fst), s)

def countOnline : Method Nat := fun i s =>
  (.ok (((range i.order s.presence).filter fun e => decide (i.now < e.2.expires)).length), s)

end PresenceStore

namespace Expiry

open Auth (AuthState AuthInput LimitEntry Limiter.allow Limiter.entryAt)

/-! ## The sweep -/

/-- The parts of the store that `expire` touches, within the collections they belong to. -/
structure Ephemeral where
  store : Store
  auth : AuthState

/-- In which order the three loops visit their maps. -/
structure SweepOrder where
  presence : MapOrder UUID
  ice : MapOrder IceKey
  limits : MapOrder String

/-- The loops over presence and candidates. -/
def expireStore (now : Time) (order : SweepOrder) (s : Store) : Store :=
  { s with
    presence := s.presence.deleteLoop order.presence fun _ p => now.after p.expires
    ice := s.ice.deleteLoop order.ice fun _ e => now.after e.expires }

def expire (now : Time) (order : SweepOrder) (s : Ephemeral) : Ephemeral where
  store := expireStore now order s.store
  auth := { s.auth with
    limits := s.auth.limits.deleteLoop order.limits fun _ l => now.after l.resets }

/-! ## Calls -/

inductive Call where
  | setOnline (networkID deviceID : UUID) (ep : PresenceEndpoint) (ttl : Int)
  | remove (deviceID : UUID)
  | get (deviceID : UUID)
  | onlineInNetwork (networkID : UUID)
  | countOnline
  | putICE (source target : UUID) (candidates : List ICECandidate) (ttl : Int)
  | getICE (forDevice fromDevice : UUID)
  | allow (key : String) (limit : Nat) (window : Int)

@[reducible] def Call.Result : Call → Type
  | .setOnline .. | .remove _ | .putICE .. => Unit
  | .get _ => Option PresenceEndpoint
  | .onlineInNetwork _ => List UUID
  | .countOnline => Nat
  | .getICE _ _ => List ICECandidate
  | .allow .. => Bool

/-- A method of the store proper. -/
def onStore {α : Type} (method : Method α) (i : RepoInput) (s : Ephemeral) :
    Except DomainError α × Ephemeral :=
  ((method i s.store).1, { s with store := (method i s.store).2 })

/-- A method of the limiter, which only reads the clock. -/
def onAuth {α : Type} (method : Auth.Method α) (i : RepoInput) (s : Ephemeral) :
    Except DomainError α × Ephemeral :=
  let input : AuthInput := { (default : AuthInput) with now := i.now }
  ((method input s.auth).1, { s with auth := (method input s.auth).2 })

def perform : (c : Call) → RepoInput → Ephemeral → Except DomainError c.Result × Ephemeral
  | .setOnline n d ep ttl => onStore (setOnline n d ep ttl)
  | .remove d => onStore (remove d)
  | .get d => onStore (get d)
  | .onlineInNetwork n => onStore (onlineInNetwork n)
  | .countOnline => onStore countOnline
  | .putICE a b candidates ttl => onStore (ICEStore.put a b candidates ttl)
  | .getICE a b => onStore (ICEStore.get a b)
  | .allow key limit window => onAuth (Limiter.allow key limit window)

/-- The same answer; that of `OnlineInNetwork` as a set. -/
def Call.Same : (c : Call) → (r r' : Except DomainError c.Result) → Prop
  | .onlineInNetwork _, .ok ids, .ok ids' => ∀ id, id ∈ ids ↔ id ∈ ids'
  | _, r, r' => r = r'

/-! ## States that differ in expired entries -/

structure Alike (now : Time) (s s' : Ephemeral) : Prop where
  presence : GoMap.Alike expires now s.store.presence s'.store.presence
  ice : GoMap.Alike IceEntry.expires now s.store.ice s'.store.ice
  limits : GoMap.Alike LimitEntry.resets now s.auth.limits s'.auth.limits

theorem Alike.refl (now : Time) (s : Ephemeral) : Alike now s s :=
  ⟨.refl s.store.presence, .refl s.store.ice, .refl s.auth.limits⟩

section

variable {now t : Time} {s s' : Ephemeral} {i : RepoInput}

theorem Alike.expire (h : Alike now s s') (ht : t ≤ now) (order : SweepOrder) :
    Alike now (expire t order s) s' := by
  have hdue : ∀ u : Time, t.after u = true → u < now :=
    fun u hu => Int.lt_of_lt_of_le (of_decide_eq_true hu) ht
  refine ⟨fun k => ?_, fun k => ?_, fun k => ?_⟩
  · exact (live_sweep order.presence (fun _ p => hdue p.expires) _ k).trans (h.presence k)
  · exact (live_sweep order.ice (fun _ e => hdue e.expires) _ k).trans (h.ice k)
  · exact (live_sweep order.limits (fun _ l => hdue l.resets) _ k).trans (h.limits k)

/-! ### What readers see -/

theorem after_of_lt {now u : Time} (h : u < now) : now.after u = true := decide_eq_true h

theorem not_after_of_le {now u : Time} (h : now ≤ u) : ¬ now.after u = true := by
  simpa [Time.after] using h

theorem presence_get (i : RepoInput) (s : Store) (d : UUID) :
    get d i s = (.ok ((s.presence.live expires i.now d).map endpoint), s) := by
  rw [PresenceStore.get, live_eq]
  cases s.presence.lookup d with
  | none => rfl
  | some e => by_cases hdue : e.expires < i.now <;> simp [Time.after, hdue]

theorem ice_get (i : RepoInput) (s : Store) (a b : UUID) :
    ICEStore.get a b i s =
      (.ok (((s.ice.live IceEntry.expires i.now ⟨b, a⟩).map IceEntry.candidates).getD []), s) := by
  rw [ICEStore.get, live_eq]
  cases s.ice.lookup ⟨b, a⟩ with
  | none => rfl
  | some e => by_cases hdue : e.expires < i.now <;> simp [Time.after, hdue]

theorem limiter_entryAt (s : AuthState) (key : String) (now : Time) (window : Int) :
    Limiter.entryAt s key now window =
      (s.limits.live LimitEntry.resets now key).getD ⟨0, now + window, 0⟩ := by
  rw [Limiter.entryAt, live_eq]
  cases s.limits.lookup key with
  | none => rfl
  | some e => by_cases hdue : e.resets < now <;> simp [Time.after, hdue]

theorem same_perform (h : Alike i.now s s') (c : Call) :
    c.Same (perform c i s).1 (perform c i s').1 := by
  cases c with
  | setOnline | remove | putICE => rfl
  | get d =>
    show (get d i s.store).1 = (get d i s'.store).1
    rw [presence_get, presence_get, h.presence d]
  | onlineInNetwork n =>
    intro id
    refine List.Perm.mem_iff (.map _ (h.presence.perm_range i.order i.order ?_))
    intro e he
    exact Int.le_of_lt (of_decide_eq_true (Bool.and_eq_true_iff.mp he).2)
  | countOnline =>
    refine congrArg Except.ok (List.Perm.length_eq (h.presence.perm_range i.order i.order ?_))
    intro e he
    exact Int.le_of_lt (of_decide_eq_true he)
  | getICE a b =>
    show (ICEStore.get a b i s.store).1 = (ICEStore.get a b i s'.store).1
    rw [ice_get, ice_get, h.ice ⟨b, a⟩]
  | allow key limit window =>
    show Except.ok (decide ((Limiter.entryAt s.auth key i.now window).count + 1 ≤ limit)) =
      Except.ok (decide ((Limiter.entryAt s'.auth key i.now window).count + 1 ≤ limit))
    rw [limiter_entryAt, limiter_entryAt, h.limits key]

theorem Alike.perform (h : Alike now s s') (hcall : Alike i.now s s') (c : Call) :
    Alike now (perform c i s).2 (perform c i s').2 := by
  cases c with
  | setOnline n d ep ttl => exact ⟨h.presence.insert d ⟨n, ep, i.now + ttl⟩, h.ice, h.limits⟩
  | remove d => exact ⟨h.presence.erase d, h.ice, h.limits⟩
  | putICE a b candidates ttl =>
    exact ⟨h.presence, h.ice.insert ⟨a, b⟩ ⟨candidates, i.now + ttl⟩, h.limits⟩
  | get d =>
    show Alike now { s with store := (get d i s.store).2 }
      { s' with store := (get d i s'.store).2 }
    rw [presence_get, presence_get]
    exact h
  | onlineInNetwork | countOnline => exact h
  | getICE a b =>
    show Alike now { s with store := (ICEStore.get a b i s.store).2 }
      { s' with store := (ICEStore.get a b i s'.store).2 }
    rw [ice_get, ice_get]
    exact h
  | allow key limit window =>
    -- The entry that counts the request is the same, since it is one that has not expired.
    have hentry : Limiter.entryAt s.auth key i.now window =
        Limiter.entryAt s'.auth key i.now window := by
      rw [limiter_entryAt, limiter_entryAt, hcall.limits key]
    refine ⟨h.presence, h.ice, ?_⟩
    show GoMap.Alike _ now (s.auth.limits.insert key _) (s'.auth.limits.insert key _)
    rw [hentry]
    exact h.limits.insert key _

end

/-! ## Runs -/

inductive Event where
  | call (c : Call) (i : RepoInput)
  | expire (now : Time) (order : SweepOrder)

namespace Event

def isCall : Event → Bool
  | .call _ _ => true
  | .expire _ _ => false

/-- What the clock showed. -/
def now : Event → Time
  | .call _ i => i.now
  | .expire now _ => now

end Event

/-- A call with its answer. -/
abbrev Answer := (c : Call) × Except DomainError c.Result

inductive Answer.Agree : Answer → Answer → Prop
  | intro {c : Call} {r r' : Except DomainError c.Result} (h : c.Same r r') :
    Agree ⟨c, r⟩ ⟨c, r'⟩

/-- What the calls are answered, one after the other. -/
def answers : Ephemeral → List Event → List Answer
  | _, [] => []
  | s, .call c i :: es => ⟨c, (perform c i s).1⟩ :: answers (perform c i s).2 es
  | s, .expire now order :: es => answers (expire now order s) es

/-- The same calls without the sweeps. -/
def withoutSweeps (es : List Event) : List Event := es.filter Event.isCall

/-- Calls look at the clock while they hold the lock, so that none shows an earlier time than
    what came before.  A sweep looks before it takes the lock; it may be late, but it never
    shows a later time than the calls that come after it. -/
def Clocked (es : List Event) : Prop := es.Pairwise fun e e' => e'.isCall = true → e.now ≤ e'.now

instance (es : List Event) : Decidable (Clocked es) :=
  inferInstanceAs (Decidable (es.Pairwise fun e e' => e'.isCall = true → e.now ≤ e'.now))

theorem answers_agree {s s' : Ephemeral} {es : List Event} (hclock : Clocked es)
    (h : ∀ e ∈ es, e.isCall = true → Alike e.now s s') :
    List.Forall₂ Answer.Agree (answers s es) (answers s' (withoutSweeps es)) := by
  induction es generalizing s s' with
  | nil => exact .nil
  | cons e es ih =>
    obtain ⟨hfirst, hrest⟩ := List.pairwise_cons.mp hclock
    have hlater : ∀ e' ∈ es, e'.isCall = true → Alike e'.now s s' :=
      fun e' he' => h e' (List.mem_cons_of_mem e he')
    cases e with
    | call c i =>
      have hnow : Alike i.now s s' := h (.call c i) List.mem_cons_self rfl
      refine .cons (.intro (same_perform hnow c)) (ih hrest ?_)
      exact fun e' he' hcall => (hlater e' he' hcall).perform hnow c
    | expire t order =>
      refine ih hrest ?_
      exact fun e' he' hcall => (hlater e' he' hcall).expire (hfirst e' he' hcall) order

/-- Sweeps may be put anywhere among calls under a clock that does not go back. -/
theorem sweeps_unobservable (s : Ephemeral) (es : List Event) (hclock : Clocked es) :
    List.Forall₂ Answer.Agree (answers s es) (answers s (withoutSweeps es)) :=
  answers_agree hclock fun e _ _ => .refl e.now s

/-- A limiter's window and a device's presence have run out when the sweep comes. -/
theorem sweeps_unobservable_once :
    let input (now : Time) : RepoInput := { (default : RepoInput) with now := now }
    let es : List Event := [.call (.allow "k" 1 10) (input 0),
      .call (.setOnline .nil .nil ⟨"", 0, "", 0, "", 0⟩ 10) (input 0),
      .expire 11 ⟨.asStored, .asStored, .asStored⟩, .call (.allow "k" 1 10) (input 11),
      .call (.get .nil) (input 11)]
    List.Forall₂ Answer.Agree (answers ⟨.empty, .empty⟩ es)
      (answers ⟨.empty, .empty⟩ (withoutSweeps es)) :=
  sweeps_unobservable _ _ (by decide)

end Expiry

end NexusVPN.Backend
