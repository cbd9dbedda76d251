import NexusVPN.Lib.Machine
import NexusVPN.Relay.SessionSpec

/-! # Completeness of the address index

    A device that is bound at the address it bound from last should be found there by `Lookup`.
    Several devices may bind from one address, the index has room for one of them, and `Bind`,
    `Route` and `EvictIdle` delete index entries by address alone, also that of another device
    that is still bound.  A run is complete throughout exactly when all of its steps spare the
    others. -/

namespace NexusVPN.Relay

open SessionTable Machine

/-! ## Runs of table operations -/

/-- A call on the table, with its clock reading. -/
inductive TableOp (Addr : Type) where
  | bind (now : Time) (networkID : String) (deviceID : UUID) (addr : Addr) (expiresAt : Time)
  | route (now : Time) (networkID : String) (senderID peerID : UUID)
  | touch (now : Time) (networkID : String) (deviceID : UUID)
  | evictIdle (now : Time) (nets : MapOrder String) (devs : String → MapOrder UUID)

def TableOp.now {Addr : Type} : TableOp Addr → Time
  | .bind now .. | .route now .. | .touch now .. | .evictIdle now .. => now

/-- A table, the last clock reading, and the successful `Bind` calls so far,
    newest first. -/
structure TableState (Addr : Type) where
  table : SessionTable Addr
  clock : Time
  binds : List (Addr × AddrBinding)

/-- The device of the most recent successful `Bind` from an address. -/
def lastFrom {Addr : Type} [DecidableEq Addr] (binds : List (Addr × AddrBinding)) (a : Addr) :
    Option AddrBinding :=
  (binds.find? fun e => e.1 = a).map Prod.snd

namespace TableState

variable {Addr : Type} [DecidableEq Addr]

def init (idleTimeout maxSessions : Int) (start : Time) : TableState Addr :=
  ⟨.new idleTimeout maxSessions, start, []⟩

/-- One table operation; the clock does not run backwards. -/
def step (s : TableState Addr) (op : TableOp Addr) : Option (TableState Addr) :=
  if op.now < s.clock then none
  else
    match op with
    | .bind now n d a x =>
      match s.table.bind now n d a x with
      | (.ok (), t) => some ⟨t, now, (a, ⟨n, d⟩) :: s.binds⟩
      | (.error _, t) => some ⟨t, now, s.binds⟩
    | .route now n senderID peerID => some ⟨(s.table.route now n senderID peerID).2, now, s.binds⟩
    | .touch now n d => some ⟨s.table.touch now n d, now, s.binds⟩
    | .evictIdle now nets devs => some ⟨(s.table.evictIdle now nets devs).1, now, s.binds⟩

/-! ## The property and the condition -/

/-- A device that bound from `a` last, and is still bound there, is found there. -/
def Complete (s : TableState Addr) : Prop :=
  ∀ a ab x, lastFrom s.binds a = some ab →
    s.table.holds ab.networkID ab.deviceID = some (a, x) → s.table.lookup a = some ab

/-- The bindings that an operation takes away: the device's own when it moves to
    another address, the one that `Route` finds lapsed, the stale ones. -/
def takesAway (t : SessionTable Addr) : TableOp Addr → String → UUID → Prop
  | .bind _ n d a _ => fun n' d' =>
    (n' = n ∧ d' = d) ∧ ∃ a' x', t.holds n d = some (a', x') ∧ a' ≠ a
  | .route now n senderID peerID => fun n' d' => n' = n ∧ t.RouteLapsed now n senderID peerID d'
  | .touch .. => fun _ _ => False
  | .evictIdle now .. => t.IsStale now

/-- Taking away the bindings in `D` hits no address that is indexed to a device
    outside `D`. -/
def SparesOthers (t : SessionTable Addr) (D : String → UUID → Prop) : Prop :=
  ∀ n d a x ab, D n d → t.holds n d = some (a, x) → t.lookup a = some ab →
    D ab.networkID ab.deviceID

/-- The operation takes no binding away from an address that is indexed to
    another device whose binding it leaves. -/
def Spares (s : TableState Addr) (op : TableOp Addr) : Prop :=
  SparesOthers s.table (takesAway s.table op)

/-! ## Steps -/

/-- What every run keeps: an index entry names the device that bound from the
    address last, and that device is bound there. -/
structure Consistent (s : TableState Addr) : Prop where
  indexed : s.table.Indexed
  last : ∀ a ab, s.table.lookup a = some ab → lastFrom s.binds a = some ab

theorem lastFrom_cons (a a' : Addr) (ab : AddrBinding) (binds : List (Addr × AddrBinding)) :
    lastFrom ((a, ab) :: binds) a' = if a = a' then some ab else lastFrom binds a' := by
  unfold lastFrom
  rw [List.find?_cons]
  by_cases h : a = a'
  · simp [h]
  · simp [h]

section

variable {s s' : TableState Addr} {D : String → UUID → Prop}

theorem Consistent.removes (h : s.Consistent) (hrem : Removes D s.table s'.table)
    (hbinds : s'.binds = s.binds) : s'.Consistent := by
  refine ⟨h.indexed.removes hrem, ?_⟩
  intro a ab hl
  rw [hbinds]
  exact h.last a ab ((hrem.lookup a ab).mp hl).1

theorem complete_removes_iff (h : s.Consistent) (hc : s.Complete)
    (hrem : Removes D s.table s'.table) (hbinds : s'.binds = s.binds) :
    s'.Complete ↔ SparesOthers s.table D := by
  constructor
  · intro hc' n d a x ab hD hx hl
    by_contra hab
    -- The entry of `ab` is deleted although `ab` stays bound at `a`.
    obtain ⟨x', hx'⟩ := h.indexed a ab hl
    have hstays : s'.table.holds ab.networkID ab.deviceID = some (a, x') :=
      (hrem.holds _ _ _).mpr ⟨hx', hab⟩
    have hfound : s'.table.lookup a = some ab :=
      hc' a ab x' (by rw [hbinds]; exact h.last a ab hl) hstays
    exact ((hrem.lookup a ab).mp hfound).2 ⟨n, d, x, hD, hx⟩
  · intro hspare a ab x hlast hx
    rw [hbinds] at hlast
    obtain ⟨hx', hab⟩ := (hrem.holds _ _ _).mp hx
    have hl : s.table.lookup a = some ab := hc a ab x hlast hx'
    refine (hrem.lookup a ab).mpr ⟨hl, ?_⟩
    -- A binding removed at `a` would spare the entry only by removing `ab`'s own.
    rintro ⟨n, d, x', hD, hholds⟩
    exact hab (hspare n d a x' ab hD hholds hl)

end

section

variable {s : TableState Addr} {ses : Session Addr}

theorem Consistent.attach (h : s.Consistent)
    (hs : ∀ d', ses.bindings.get d' = s.table.bindingOf ses.networkID d') (now : Time) (d : UUID)
    (a : Addr) (x : Time) :
    Consistent ⟨s.table.attach ses now d a x, now, (a, ⟨ses.networkID, d⟩) :: s.binds⟩ := by
  refine ⟨h.indexed.attach hs now d a x, ?_⟩
  intro a' ab hl
  rw [lookup_attach hs] at hl
  rw [lastFrom_cons]
  split at hl
  · next ha => rw [if_pos ha.symm, hl]
  · next ha =>
    split at hl
    · cases hl
    · rw [if_neg (Ne.symm ha)]
      exact h.last a' ab hl

theorem complete_attach_iff (h : s.Consistent) (hc : s.Complete)
    (hs : ∀ d', ses.bindings.get d' = s.table.bindingOf ses.networkID d') (now : Time) (d : UUID)
    (a : Addr) (x : Time) :
    Complete ⟨s.table.attach ses now d a x, now, (a, ⟨ses.networkID, d⟩) :: s.binds⟩ ↔
      s.Spares (.bind now ses.networkID d a x) := by
  constructor
  · intro hc' n' d' a' x' ab hD hx' hl
    obtain ⟨⟨rfl, rfl⟩, a₁, x₁, hx₁, hmoved⟩ := hD
    have ha' : a' ≠ a := by
      rw [hx₁] at hx'
      cases hx'
      exact hmoved
    by_cases hab : ab.networkID = ses.networkID ∧ ab.deviceID = d'
    · exact ⟨hab, a₁, x₁, hx₁, hmoved⟩
    · -- Another device is indexed at the address that is being left.
      obtain ⟨x₂, hx₂⟩ := h.indexed a' ab hl
      have hfound := hc' a' ab x₂
        (by rw [lastFrom_cons, if_neg ha'.symm]; exact h.last a' ab hl)
        (by rw [holds_attach hs, if_neg hab]; exact hx₂)
      rw [lookup_attach hs, if_neg ha', hx'] at hfound
      simp at hfound
  · intro hspare a' ab x' hlast hx'
    rw [lastFrom_cons] at hlast
    rw [holds_attach hs] at hx'
    rw [lookup_attach hs]
    by_cases ha' : a' = a
    · rw [if_pos ha'.symm] at hlast
      rw [if_pos ha', hlast]
    · rw [if_neg (Ne.symm ha')] at hlast
      rw [if_neg ha']
      split at hx'
      · -- The device that has just bound is at `a`.
        cases hx'
        exact absurd rfl ha'
      · next hab =>
        have hl : s.table.lookup a' = some ab := hc a' ab x' hlast hx'
        rw [if_neg]
        · exact hl
        · -- The entry would only be deleted if the device had left `a'`, and then it is spared.
          intro hleft
          obtain ⟨⟨a₁, x₁⟩, hx₁, rfl⟩ := Option.map_eq_some_iff.mp hleft
          have hown := hspare _ _ _ x₁ ab ⟨⟨rfl, rfl⟩, a₁, x₁, hx₁, ha'⟩ hx₁ hl
          exact hab hown.1

end

theorem step_spec {s s' : TableState Addr} {op : TableOp Addr} (h : s.Consistent)
    (hstep : s.step op = some s') :
    s'.Consistent ∧ (s.Complete → (s'.Complete ↔ s.Spares op)) := by
  unfold step at hstep
  split at hstep
  · cases hstep
  · cases op with
    | bind now n d a x =>
      rcases bind_cases s.table now n d a x with ⟨hnone, hbind⟩ | ⟨ses, rfl, hs, hbind⟩
      · -- At capacity: the network has no session, so the device has no binding.
        simp only [hbind] at hstep
        cases hstep
        have hno : ∀ d', s.table.holds n d' = none := by
          intro d'
          simp [SessionTable.holds, bindingOf, hnone]
        have hrem : Removes (takesAway s.table (.bind now n d a x)) s.table s.table :=
          (SameViews.refl s.table).congr (by simp [takesAway, hno])
        exact ⟨h.removes hrem rfl, fun hc => complete_removes_iff h hc hrem rfl⟩
      · simp only [hbind] at hstep
        cases hstep
        exact ⟨h.attach hs now d a x, fun hc => complete_attach_iff h hc hs now d a x⟩
    | route now n senderID peerID =>
      cases hstep
      have hrem := (route_spec s.table now n senderID peerID).1
      exact ⟨h.removes hrem rfl, fun hc => complete_removes_iff h hc hrem rfl⟩
    | touch now n d =>
      cases hstep
      have hrem := touch_sameViews s.table now n d
      exact ⟨h.removes hrem rfl, fun hc => complete_removes_iff h hc hrem rfl⟩
    | evictIdle now nets devs =>
      cases hstep
      have hrem := evictIdle_removes s.table now nets devs
      exact ⟨h.removes hrem rfl, fun hc => complete_removes_iff h hc hrem rfl⟩

/-! ## Whole runs -/

theorem init_consistent (idleTimeout maxSessions : Int) (start : Time) :
    (init idleTimeout maxSessions start : TableState Addr).Consistent := by
  refine ⟨?_, ?_⟩
  · intro a ab hl
    cases hl
  · intro a ab hl
    cases hl

/-- **Index completeness.**  From a new table, a run of operations has a complete
    index in every state exactly when each of its steps spares the others. -/
theorem index_complete_iff_spares (idleTimeout maxSessions : Int) (start : Time)
    (ops : List (TableOp Addr)) :
    Throughout step Complete (init idleTimeout maxSessions start) ops ↔
      Along step Spares (init idleTimeout maxSessions start) ops := by
  apply throughout_iff_along (J := Consistent)
  · intro s op s' h hstep
    exact (step_spec h hstep).1
  · intro s op s' h hc hstep
    exact (step_spec h hstep).2 hc
  · exact init_consistent idleTimeout maxSessions start
  · intro a ab x hlast
    cases hlast

/-- Two devices share address 10; the first moves on to address 20. -/
def sharedThenMoved : List (TableOp Nat) :=
  [.bind 1 "net" (.ofBytes [1]) 10 0, .bind 2 "net" (.ofBytes [2]) 10 0,
   .bind 3 "net" (.ofBytes [1]) 20 0]

/-- The second device was the last to bind from address 10 and is still bound
    there, but its index entry went with the first device's. -/
theorem index_incomplete_after_move :
    ∃ s, run step (init 0 0 0) sharedThenMoved = some s ∧ ¬ s.Complete := by
  refine ⟨_, rfl, ?_⟩
  intro hc
  have hfound := hc 10 ⟨"net", .ofBytes [2]⟩ 0 (by decide) (by decide)
  exact absurd hfound (by decide)

end TableState

end NexusVPN.Relay
