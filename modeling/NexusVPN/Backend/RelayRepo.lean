import Mathlib.Data.Rat.Defs
import NexusVPN.Backend.Domain
import NexusVPN.Lib.GoMap
import NexusVPN.Lib.Prog
import NexusVPN.Lib.Select

/-! # Relay allocation

    The two relay repositories (`repository/embedded/infra.go` and
    `repository/postgres/relay_server_repo.go`) and `RequestRelay` over either of them.  A
    method of the embedded one runs under the store's lock, a method of the Postgres one is a
    sequence of statements.

    Loads are compared as exact fractions where the code divides floats. -/

namespace NexusVPN.Backend

open Table

/-- The registered relays. -/
abbrev Relays := Table UUID RelayServer RelayServer.id

/-- Add to a relay's load, which never falls below zero. -/
def RelayServer.addLoad (rs : RelayServer) (delta : Int) : RelayServer :=
  { rs with currentLoad := max 0 (rs.currentLoad + delta) }

/-- Add to the load of the relay `id`, if there is one. -/
def Relays.addLoad (relays : Relays) (id : UUID) (delta : Int) : Relays :=
  match relays.get id with
  | none => relays
  | some rs => relays.put (rs.addLoad delta)

open Relays

theorem Relays.get_addLoad (relays : Relays) (id : UUID) (delta : Int) (k : UUID) :
    (relays.addLoad id delta).get k =
      if k = id then (relays.get k).map (·.addLoad delta) else relays.get k := by
  unfold addLoad
  cases h : relays.get id with
  | none =>
    by_cases hk : k = id
    · subst hk; simp [h]
    · simp [hk]
  | some rs =>
    have hid : rs.id = id := key_of_get h
    have hkey : (rs.addLoad delta).id = id := hid
    rw [get_put, hkey]
    by_cases hk : k = id
    · subst hk; simp [h]
    · simp [hk]

/-! ## The embedded repository -/

namespace Embedded

/-- `relayStaleAfter`: ninety seconds. -/
def relayStaleAfter : Int := 90000000000

/-- `isRelayHealthy`, with the clock reading that `time.Since` takes. -/
def isRelayHealthy (now : Time) (rs : RelayServer) : Bool :=
  (rs.status == "" || rs.status == "active" || rs.status == "healthy") &&
    match rs.lastHeartbeatAt with
    | none => false
    | some t => decide (Time.sub now t < relayStaleAfter)

def loadFraction (rs : RelayServer) : Rat :=
  if rs.capacity ≤ 0 then 1 else (rs.currentLoad : Rat) / (rs.capacity : Rat)

/-- `!isRelayHealthy(rs) || rs.CurrentLoad >= rs.Capacity` skips the relay. -/
def offers (now : Time) (rs : RelayServer) : Bool :=
  isRelayHealthy now rs && decide (rs.currentLoad < rs.capacity)

/-- The preferred region wins outright; among equals, the emptiest node. -/
def better (preferredRegion : String) (rs best : RelayServer) : Bool :=
  (rs.region == preferredRegion && best.region != preferredRegion) ||
    ((rs.region == preferredRegion) == (best.region == preferredRegion) &&
      decide (loadFraction rs < loadFraction best))

/-- `relayRepo.PickLeastLoaded`; `order` is that of the loop over the map. -/
def pickLeastLoaded (relays : Relays) (now : Time) (order : MapOrder UUID)
    (preferredRegion : String) : Except DomainError (Option RelayServer) :=
  match selectBest (offers now) (better preferredRegion) (relays.values order) with
  | none => .error .noRelayAvailable
  | some best => .ok (some best)

/-- `relayRepo.IncrementLoad`. -/
def incrementLoad (relays : Relays) (id : UUID) (delta : Int) : Except DomainError Unit × Relays :=
  match relays.get id with
  | none => (.error .notFound, relays)
  | some _ => (.ok (), relays.addLoad id delta)

theorem incrementLoad_snd (relays : Relays) (id : UUID) (delta : Int) :
    (incrementLoad relays id delta).2 = relays.addLoad id delta := by
  unfold incrementLoad
  split
  · next h => simp [addLoad, h]
  · rfl

end Embedded

/-! ## The Postgres repository -/

namespace Postgres

/-- `WHERE status = 'active' AND current_load < capacity`. -/
def offers (rs : RelayServer) : Bool :=
  rs.status == "active" && decide (rs.currentLoad < rs.capacity)

/-- `AND region = $1`, where the statement has it. -/
def inRegion (region : Option String) (rs : RelayServer) : Bool :=
  match region with
  | none => true
  | some r => rs.region == r

/-- `current_load::float / GREATEST(capacity, 1)`. -/
def loadRatio (rs : RelayServer) : Rat := (rs.currentLoad : Rat) / ((max rs.capacity 1 : Int) : Rat)

/-- `SELECT … WHERE … ORDER BY loadRatio ASC LIMIT 1`.  Which of several rows with
    the least ratio comes first is up to the order in which they are read. -/
def selectLeastLoaded (relays : Relays) (order : MapOrder UUID) (region : Option String) :
    Except DomainError RelayServer :=
  match selectBest (fun rs => offers rs && inRegion region rs)
      (fun rs best => decide (loadRatio rs < loadRatio best)) (relays.values order) with
  | none => .error .notFound
  | some rs => .ok rs

end Postgres

/-! ## What each selection returns -/

/-- A pick from `relays` returned one of the relays that qualify. -/
def Relays.Chosen (relays : Relays) (qualifies : RelayServer → Bool) (rs : RelayServer) : Prop :=
  relays.get rs.id = some rs ∧ qualifies rs = true

theorem Relays.chosen_of_selectBest {relays : Relays} {order : MapOrder UUID}
    {p : RelayServer → Bool} {better : RelayServer → RelayServer → Bool} {rs : RelayServer}
    (h : selectBest p better (relays.values order) = some rs) : relays.Chosen p rs := by
  obtain ⟨hmem, hp⟩ := mem_of_selectBest h
  exact ⟨mem_values.mp hmem, hp⟩

theorem Relays.not_chosen_of_selectBest {relays : Relays} {order : MapOrder UUID}
    {p : RelayServer → Bool} {better : RelayServer → RelayServer → Bool}
    (h : selectBest p better (relays.values order) = none) (rs : RelayServer) :
    ¬ relays.Chosen p rs := by
  intro hpick
  have hno := selectBest_eq_none.mp h rs (mem_values.mpr hpick.1)
  rw [hpick.2] at hno
  cases hno

theorem Embedded.pickLeastLoaded_spec (relays : Relays) (now : Time) (order : MapOrder UUID)
    (preferredRegion : String) :
    (∃ rs, pickLeastLoaded relays now order preferredRegion = .ok (some rs) ∧
      relays.Chosen (offers now) rs) ∨
    (pickLeastLoaded relays now order preferredRegion = .error .noRelayAvailable ∧
      ∀ rs, ¬ relays.Chosen (offers now) rs) := by
  unfold pickLeastLoaded
  split
  · next h => exact .inr ⟨rfl, not_chosen_of_selectBest h⟩
  · next rs h => exact .inl ⟨rs, rfl, chosen_of_selectBest h⟩

theorem Embedded.better_eq_false {region : String} {rs best : RelayServer} :
    better region rs best = false ↔ (rs.region = region → best.region = region) ∧
      ((rs.region = region ↔ best.region = region) → loadFraction best ≤ loadFraction rs) := by
  rw [← Rat.not_lt]
  by_cases hrs : rs.region = region <;> by_cases hbest : best.region = region <;>
    simp [better, hrs, hbest]

theorem Embedded.better_asymm (region : String) (a b : RelayServer)
    (h : better region a b = true) : better region b a = false := by
  have hnot := mt better_eq_false.mpr (by rw [h]; exact nofun)
  refine better_eq_false.mpr ⟨fun hb => ?_, fun hiff => ?_⟩
  · by_contra ha
    exact hnot ⟨fun ha' => absurd ha' ha, fun hiff => absurd (hiff.mpr hb) ha⟩
  · by_contra hlt
    exact hnot ⟨hiff.mpr, fun _ => Rat.le_of_lt (Rat.not_le.mp hlt)⟩

theorem Embedded.not_better_trans (region : String) (a b c : RelayServer)
    (hab : better region a b = false) (hbc : better region b c = false) :
    better region a c = false := by
  rw [better_eq_false] at hab hbc ⊢
  refine ⟨fun ha => hbc.1 (hab.1 ha), fun hac => ?_⟩
  have hiff : (a.region = region ↔ b.region = region) ∧
      (b.region = region ↔ c.region = region) := by tauto
  exact Rat.le_trans (hbc.2 hiff.2) (hab.2 hiff.1)

/-- The relay that `PickLeastLoaded` ought to return. -/
structure Embedded.Optimal (relays : Relays) (now : Time) (preferredRegion : String)
    (best : RelayServer) : Prop where
  eligible : relays.Chosen (offers now) best
  region : ∀ rs, relays.Chosen (offers now) rs → rs.region = preferredRegion →
    best.region = preferredRegion
  least : ∀ rs, relays.Chosen (offers now) rs →
    (rs.region = preferredRegion ↔ best.region = preferredRegion) →
    (best.currentLoad : Rat) / best.capacity ≤ rs.currentLoad / rs.capacity

/-- Whatever the order of the loop, the emptiest relay of the best region class is picked. -/
theorem Embedded.pickLeastLoaded_optimal (relays : Relays) (now : Time) (order : MapOrder UUID)
    (preferredRegion : String) (hloads : ∀ id rs, relays.get id = some rs → 0 ≤ rs.currentLoad) :
    (pickLeastLoaded relays now order preferredRegion = .error .noRelayAvailable ↔
      ∀ rs, ¬ relays.Chosen (offers now) rs) ∧
    ∀ rs, relays.Chosen (offers now) rs → ∃ best, Optimal relays now preferredRegion best ∧
      pickLeastLoaded relays now order preferredRegion = .ok (some best) := by
  have hfraction : ∀ rs, relays.Chosen (offers now) rs →
      loadFraction rs = (rs.currentLoad : Rat) / rs.capacity := by
    intro rs hrs
    have hroom := of_decide_eq_true (Bool.and_eq_true_iff.mp hrs.2).2
    have hload := hloads _ rs hrs.1
    exact if_neg (by omega)
  unfold pickLeastLoaded
  cases hbest : selectBest (offers now) (better preferredRegion) (relays.values order) with
  | none =>
    have hnone := not_chosen_of_selectBest hbest
    exact ⟨iff_of_true rfl hnone, fun rs hrs => absurd hrs (hnone rs)⟩
  | some best =>
    have hpick := chosen_of_selectBest hbest
    refine ⟨iff_of_false nofun fun hnone => hnone best hpick, fun _ _ => ⟨best, ?_, rfl⟩⟩
    have hleast : ∀ rs, relays.Chosen (offers now) rs →
        (rs.region = preferredRegion → best.region = preferredRegion) ∧
        ((rs.region = preferredRegion ↔ best.region = preferredRegion) →
          loadFraction best ≤ loadFraction rs) := by
      intro rs hrs
      rw [← better_eq_false]
      exact selectBest_least (better_asymm _) (not_better_trans _) hbest
        (mem_values.mpr hrs.1) hrs.2
    refine ⟨hpick, fun rs hrs => (hleast rs hrs).1, fun rs hrs hsame => ?_⟩
    rw [← hfraction best hpick, ← hfraction rs hrs]
    exact (hleast rs hrs).2 hsame

/-- A relay that was heard from at the epoch. -/
def Embedded.sample (k : UInt8) (region status : String) (capacity load : Int) : RelayServer :=
  ⟨.ofBytes [k], region, "relay", "", 0, 3478, capacity, load, status, some 0, 0⟩

/-- Two relays of one region with room, an idle one of another region, a full one, and one that
    takes no new sessions. -/
def Embedded.fleet : Relays :=
  [sample 1 "eu" "active" 4 2, sample 2 "eu" "active" 4 1, sample 3 "us" "active" 4 0,
    sample 4 "eu" "active" 1 1, sample 5 "eu" "draining" 4 0].foldl Table.put empty

theorem Embedded.pickLeastLoaded_optimal_fleet :
    Optimal fleet 0 "eu" (sample 2 "eu" "active" 4 1) ∧
      pickLeastLoaded fleet 0 .asStored "eu" = .ok (some (sample 2 "eu" "active" 4 1)) := by
  have hall : ∀ rs ∈ fleet.values .asStored, 0 ≤ rs.currentLoad := by decide +kernel
  have hloads : ∀ id rs, fleet.get id = some rs → 0 ≤ rs.currentLoad := by
    intro id rs hget
    obtain rfl := key_of_get hget
    exact hall rs (mem_values.mpr hget)
  have hpick : pickLeastLoaded fleet 0 .asStored "eu" =
      .ok (some (sample 2 "eu" "active" 4 1)) := by
    decide +kernel
  obtain ⟨best, hbest, heq⟩ := (pickLeastLoaded_optimal fleet 0 .asStored "eu" hloads).2
    (sample 1 "eu" "active" 4 2) ⟨by decide +kernel, by decide +kernel⟩
  cases hpick.symm.trans heq
  exact ⟨hbest, hpick⟩

theorem Postgres.selectLeastLoaded_spec (relays : Relays) (order : MapOrder UUID)
    (region : Option String) :
    (∃ rs, selectLeastLoaded relays order region = .ok rs ∧
      relays.Chosen (fun rs => offers rs && inRegion region rs) rs) ∨
    (selectLeastLoaded relays order region = .error .notFound ∧
      ∀ rs, ¬ relays.Chosen (fun rs => offers rs && inRegion region rs) rs) := by
  unfold selectLeastLoaded
  split
  · next h => exact .inr ⟨rfl, not_chosen_of_selectBest h⟩
  · next rs h => exact .inl ⟨rs, rfl, chosen_of_selectBest h⟩

theorem Embedded.chosen_of_pickLeastLoaded {relays : Relays} {now : Time} {order : MapOrder UUID}
    {region : String} {rs : RelayServer}
    (h : pickLeastLoaded relays now order region = .ok (some rs)) :
    relays.Chosen (offers now) rs := by
  rcases pickLeastLoaded_spec relays now order region with ⟨rs', hok, hpick⟩ | ⟨herr, -⟩
  · rw [hok] at h
    cases h
    exact hpick
  · rw [herr] at h
    cases h

/-! ## `RequestRelay` -/

/-- What `RequestRelay` calls: two methods of the relay repository, and `Issue` of
    the relay session manager. -/
inductive AllocCall where
  | pickLeastLoaded (preferredRegion : String)
  | incrementLoad (id : UUID) (delta : Int)
  | issue (deviceID relayID networkID : UUID)

@[reducible] def AllocCall.Result : AllocCall → Type
  | .pickLeastLoaded _ => Option RelayServer
  | .incrementLoad _ _ => Unit
  | .issue _ _ _ => String

open AllocCall

@[reducible] def allocIface : Iface := .failing AllocCall Result DomainError

structure RelayRequest where
  deviceID : UUID
  networkID : UUID
  preferredRegion : String

structure RelayAllocation where
  relay : RelayServer
  sessionToken : String
deriving DecidableEq

open Prog in
/-- `CoordinationService.RequestRelay`. -/
def requestRelay (q : RelayRequest) : ExceptT DomainError (Prog allocIface) RelayAllocation := do
  match ← attempt (R := Result) (.pickLeastLoaded q.preferredRegion) with
  | none => throw .noRelayAvailable
  | some relay =>
    attempt (R := Result) (.incrementLoad relay.id 1)
    let token ← attempt (R := Result) (.issue q.deviceID relay.id q.networkID)
    return ⟨relay, token⟩

/-- `RequestRelay`, call by call. -/
theorem expand_requestRelay {I : Iface}
    (impl : (c : AllocCall) → Prog I (Except DomainError c.Result)) (q : RelayRequest) :
    (requestRelay q).run.expand impl =
      (impl (.pickLeastLoaded q.preferredRegion) >>= fun
        | .error e => .ret (.error e)
        | .ok none => .ret (.error .noRelayAvailable)
        | .ok (some relay) => impl (.incrementLoad relay.id 1) >>= fun
          | .error e => .ret (.error e)
          | .ok () => impl (.issue q.deviceID relay.id q.networkID) >>= fun
            | .error e => .ret (.error e)
            | .ok token => .ret (.ok ⟨relay, token⟩)) := by
  refine congrArg (impl _ >>= ·) (funext fun r => ?_)
  rcases r with e | _ | relay
  · rfl
  · rfl
  · refine congrArg (impl (.incrementLoad relay.id 1) >>= ·) (funext fun r => ?_)
    rcases r with e | _
    · rfl
    · refine congrArg (impl (.issue q.deviceID relay.id q.networkID) >>= ·) (funext fun r => ?_)
      rcases r with e | token <;> rfl

/-! ## The methods as atomic operations -/

/-- The atomic operations of the two repositories, and the signing of a token. -/
inductive AllocOp where
  /-- The embedded methods, each under the store's lock. -/
  | pickLocked (preferredRegion : String)
  | incrementLocked (id : UUID) (delta : Int)
  /-- The Postgres statements. -/
  | select (region : Option String)
  | update (id : UUID) (delta : Int)
  | issue (deviceID relayID networkID : UUID)

@[reducible] def AllocOp.Result : AllocOp → Type
  | .pickLocked _ => Option RelayServer
  | .incrementLocked _ _ => Unit
  | .select _ => RelayServer
  | .update _ _ => Unit
  | .issue _ _ _ => String

@[reducible] def allocOps : Iface := .failing AllocOp AllocOp.Result DomainError

/-- What an operation reads from outside: the clock, the order in which the relays
    are visited, whether the database refuses the statement, and what signing a
    token comes to. -/
structure AllocInput where
  now : Time
  order : MapOrder UUID
  fault : Option DomainError
  signed : Except DomainError String

/-- What each operation does to the registered relays. -/
def allocHandler : Handler allocOps Relays AllocInput
  | .pickLocked region, i, relays =>
    (Embedded.pickLeastLoaded relays i.now i.order region, relays)
  | .incrementLocked id delta, _, relays => Embedded.incrementLoad relays id delta
  | .select region, i, relays =>
    match i.fault with
    | some e => (.error e, relays)
    | none => (Postgres.selectLeastLoaded relays i.order region, relays)
  | .update id delta, i, relays =>
    match i.fault with
    | some e => (.error e, relays)
    | none => (.ok (), relays.addLoad id delta)
  | .issue _ _ _, i, relays => (i.signed, relays)

/-- Which repository the control plane runs on. -/
inductive RelayRepo where
  | embedded
  | postgres

/-- The search of `RelayServerRepo.PickLeastLoaded` over all regions. -/
def Postgres.pickAnyRegion : Prog allocOps (Except DomainError (Option RelayServer)) :=
  .call (.select none) fun
    | .ok rs => .ret (.ok (some rs))
    | .error .notFound => .ret (.ok none)
    | .error e => .ret (.error e)

/-- `RelayServerRepo.PickLeastLoaded`: the preferred region first, if there is one. -/
def Postgres.pickLeastLoaded (preferredRegion : String) :
    Prog allocOps (Except DomainError (Option RelayServer)) :=
  if preferredRegion ≠ "" then
    .call (.select (some preferredRegion)) fun
      | .ok rs => .ret (.ok (some rs))
      | .error .notFound => pickAnyRegion
      | .error e => .ret (.error e)
  else pickAnyRegion

/-- The methods of a repository, as programs of atomic operations. -/
def RelayRepo.methods : RelayRepo → (c : AllocCall) → Prog allocOps (Except DomainError c.Result)
  | .embedded, .pickLeastLoaded region => Prog.ask (I := allocOps) (.pickLocked region)
  | .embedded, .incrementLoad id delta => Prog.ask (I := allocOps) (.incrementLocked id delta)
  | .postgres, .pickLeastLoaded region => Postgres.pickLeastLoaded region
  | .postgres, .incrementLoad id delta => Prog.ask (I := allocOps) (.update id delta)
  | _, .issue d r n => Prog.ask (I := allocOps) (.issue d r n)

/-- `RequestRelay` on one of the repositories. -/
def RelayRepo.requestRelay (repo : RelayRepo) (q : RelayRequest) :
    Prog allocOps (Except DomainError RelayAllocation) :=
  (Backend.requestRelay q).run.expand repo.methods

end NexusVPN.Backend
