import NexusVPN.Backend.CoordinationServer
import NexusVPN.Backend.ServiceLogic

/-! # Whose device an RPC acts for

    Four RPCs of the coordination service name an acting device: Heartbeat,
    StreamPeerUpdates, ExchangeICECandidates and RequestRelay.  All four make sure
    that somebody is logged in, and none of them asks who. -/

namespace NexusVPN.Backend

open Prog Option Store Proto Embedded CoordinationServer

/-- A request that names an acting device. -/
inductive Rpc where
  | heartbeat (req : HeartbeatRequest)
  | streamPeerUpdates (req : StreamPeerUpdatesRequest) (events : List PeerEvent)
  | exchangeICECandidates (req : ICEExchangeRequest)
  | requestRelay (req : RequestRelayRequest)

namespace Rpc

/-- The acting device, as the request names it. -/
def deviceId : Rpc → String
  | .heartbeat req => req.deviceId
  | .streamPeerUpdates req _ => req.deviceId
  | .exchangeICECandidates req => req.deviceId
  | .requestRelay req => req.deviceId

section

variable (lib : StdLib) (g : GrpcLib) (presenceTTL : Int)

/-- The handler of the request, in the context of a user or of none. -/
def handle (ctx : Option UUID) : Rpc → Grpc Unit
  | .heartbeat req => discard (CoordinationServer.heartbeat g presenceTTL ctx req)
  | .streamPeerUpdates req events =>
    discard (CoordinationServer.streamPeerUpdates lib g ctx req events)
  | .exchangeICECandidates req => discard (CoordinationServer.exchangeICECandidates g ctx req)
  | .requestRelay req => discard (CoordinationServer.requestRelay g ctx req)

/-- The interceptor, and then the handler. -/
def serve (metadata : Option (List String)) (r : Rpc) : Grpc Unit :=
  match authenticate g metadata with
  | .error status => throw status
  | .ok userID => r.handle lib g presenceTTL (some userID)

end

variable (g : GrpcLib) (s : Store)

/-- The request acts for a device of user `u`. -/
def Owned (u : UUID) (r : Rpc) : Prop :=
  ∃ id d, g.parseUUID r.deviceId = some id ∧ s.devices.get id = some d ∧ d.userID = u ∧
    match r with
    | .requestRelay req =>
      g.parseUUID req.networkId = some d.networkID ∧ (s.member d.networkID u).isSome
    | _ => True

/-- The string is the id of a device. -/
def NamesDevice (text : String) : Prop :=
  ∃ id d, g.parseUUID text = some id ∧ s.devices.get id = some d

/-- Some caller would be served: the ids parse, the devices exist where the handler
    looks them up, and for RequestRelay a relay can be on offer. -/
def Served : Rpc → Prop
  | .heartbeat req => NamesDevice g s req.deviceId
  | .streamPeerUpdates req _ => NamesDevice g s req.deviceId
  | .exchangeICECandidates req => NamesDevice g s req.deviceId ∧ NamesDevice g s req.targetDeviceId
  | .requestRelay req =>
    (g.parseUUID req.deviceId).isSome ∧ (g.parseUUID req.networkId).isSome ∧
      ∃ now rs, s.relays.Chosen (offers now) rs

end Rpc

/-! ## Rules for handlers -/

section

variable {ι α : Type} {h : Handler repoIface Store ι} {g : GrpcLib} {s : Store}

theorem wpe_service (p : Svc α) (Q : α → Store → Prop) (E : Status → Store → Prop) :
    wpe h (service p) Q E s ↔ wpe h p Q (fun e => E (toGRPCError e)) s := by
  show wp h (p.run >>= _) (outcome Q E) s ↔ wp h p.run (outcome Q fun e => E (toGRPCError e)) s
  rw [wp_bind]
  constructor
  · apply wp_mono
    intro r s' hr
    cases r <;> exact hr
  · apply wp_mono
    intro r s' hr
    cases r <;> exact hr

theorem wpe_discard {ε : Type} (p : ExceptT ε (Prog repoIface) α) (Q : Unit → Store → Prop)
    (E : ε → Store → Prop) :
    wpe h (discard p) Q E s ↔ wpe h p (fun _ => Q ()) E s := by
  show wpe h (p >>= fun _ => pure ()) Q E s ↔ _
  rw [wpe_bind]
  rfl

theorem wpe_parseField (value message : String) (Q : UUID → Store → Prop)
    (E : Status → Store → Prop) :
    wpe h (parseField g value message) Q E s ↔
      (∀ id, g.parseUUID value = some id → Q id s) ∧
      (g.parseUUID value = none → E ⟨.invalidArgument, message⟩ s) := by
  unfold parseField
  cases g.parseUUID value with
  | none | some => simp

variable {value message : String} {f : UUID → Grpc α} {Q : α → Store → Prop}

theorem wpe_parsed {id : UUID} {E : Status → Store → Prop} (hid : g.parseUUID value = some id)
    (hf : wpe h (f id) Q E s) : wpe h (parseField g value message >>= f) Q E s := by
  rw [wpe_bind, wpe_parseField, hid]
  refine ⟨?_, fun hnone => by cases hnone⟩
  intro id' hid'
  cases hid'
  exact hf

theorem wpe_parse_only
    (hf : ∀ id, g.parseUUID value = some id → wpe h (f id) Q (fun _ _ => True) s) :
    wpe h (parseField g value message >>= f) Q (fun _ _ => True) s := by
  rw [wpe_bind, wpe_parseField]
  exact ⟨hf, fun _ => trivial⟩

theorem wpe_found {lib : StdLib} {id : UUID} {d : Device} {p : Device → Svc α}
    {E : DomainError → Store → Prop} (hd : s.devices.get id = some d)
    (hp : wpe (handler lib) (p d) Q E s) :
    wpe (handler lib) (call (.devices (.getByID id)) >>= p) Q E s := by
  rw [wpe_bind, wpe_getDevice, hd]
  refine ⟨?_, fun hnone => by cases hnone⟩
  intro d' hd'
  cases hd'
  exact hp

end

/-! ## Only served requests succeed -/

namespace Rpc

section

variable {lib : StdLib} {g : GrpcLib} {presenceTTL : Int} {s : Store} (u : UUID)

theorem heartbeat_only (req : HeartbeatRequest) :
    wpe (handler lib) (CoordinationServer.heartbeat g presenceTTL (some u) req)
      (fun _ _ => NamesDevice g s req.deviceId) (fun _ _ => True) s := by
  unfold CoordinationServer.heartbeat
  apply wpe_parse_only
  intro id hid
  rw [wpe_bind, wpe_service]
  -- The lookup is the only check; nothing needs to be said about what follows.
  exact onOk_getDevice fun d hd => onOk_of_forall fun _ _ => ⟨id, d, hid, hd⟩

theorem streamPeerUpdates_only (req : StreamPeerUpdatesRequest) (events : List PeerEvent) :
    wpe (handler lib) (CoordinationServer.streamPeerUpdates lib g (some u) req events)
      (fun _ _ => NamesDevice g s req.deviceId) (fun _ _ => True) s := by
  unfold CoordinationServer.streamPeerUpdates
  apply wpe_parse_only
  intro id hid
  rw [wpe_bind, wpe_service]
  show wpe _ (call (.devices (.getByID id))) _ _ s
  rw [wpe_getDevice]
  refine ⟨?_, fun _ => trivial⟩
  intro d hd
  exact wpe_of_forall (fun _ _ => ⟨id, d, hid, hd⟩) (fun _ _ => trivial) s

theorem exchangeICECandidates_only (req : ICEExchangeRequest) :
    wpe (handler lib) (CoordinationServer.exchangeICECandidates g (some u) req)
      (fun _ _ => NamesDevice g s req.deviceId ∧ NamesDevice g s req.targetDeviceId)
      (fun _ _ => True) s := by
  unfold CoordinationServer.exchangeICECandidates
  apply wpe_parse_only
  intro id hid
  apply wpe_parse_only
  intro target htarget
  rw [wpe_bind, wpe_service]
  apply onOk_getDevice
  intro d hd
  apply onOk_getDevice
  intro d' hd'
  exact onOk_of_forall fun _ _ => ⟨⟨id, d, hid, hd⟩, target, d', htarget, hd'⟩

theorem allocate_only (q : RelayRequest) :
    wpe (handler lib) (CoordinationService.requestRelay q)
      (fun _ _ => ∃ now rs, s.relays.Chosen (offers now) rs) (fun _ _ => True) s := by
  intro i
  rcases pickLeastLoaded_spec s.relays i.now i.order q.preferredRegion with
    ⟨rs, -, hpick⟩ | ⟨herr, -⟩
  · exact wpe_of_forall (fun _ _ => ⟨i.now, rs, hpick⟩) (fun _ _ => trivial) s
  · have hans : (handler lib (.alloc (.pickLeastLoaded q.preferredRegion)) i s).1 =
        .error .noRelayAvailable := herr
    rw [hans]
    trivial

theorem requestRelay_only (req : RequestRelayRequest) :
    wpe (handler lib) (CoordinationServer.requestRelay g (some u) req)
      (fun _ _ => Served g s (.requestRelay req)) (fun _ _ => True) s := by
  unfold CoordinationServer.requestRelay
  apply wpe_parse_only
  intro id hid
  apply wpe_parse_only
  intro networkID hnid
  rw [wpe_bind, wpe_service]
  refine wpe_mono ?_ (fun _ _ _ => trivial) (allocate_only _)
  intro a s' hoffer
  exact ⟨by rw [hid]; rfl, by rw [hnid]; rfl, hoffer⟩

theorem handle_only (r : Rpc) :
    wpe (handler lib) (r.handle lib g presenceTTL (some u)) (fun _ _ => Served g s r)
      (fun _ _ => True) s := by
  cases r with
  | heartbeat req => exact (wpe_discard _ _ _).mpr (heartbeat_only u req)
  | streamPeerUpdates req events =>
    exact (wpe_discard _ _ _).mpr (streamPeerUpdates_only u req events)
  | exchangeICECandidates req => exact (wpe_discard _ _ _).mpr (exchangeICECandidates_only u req)
  | requestRelay req => exact (wpe_discard _ _ _).mpr (requestRelay_only u req)

end

/-! ## Served requests succeed, whoever makes them -/

section

variable {lib : StdLib} {g : GrpcLib} {presenceTTL : Int} {s : Store} (u : UUID)

theorem heartbeat_serves {req : HeartbeatRequest} (h : NamesDevice g s req.deviceId) :
    wpe (handler lib) (CoordinationServer.heartbeat g presenceTTL (some u) req)
      (fun _ _ => True) (fun _ _ => False) s := by
  obtain ⟨id, d, hid, hd⟩ := h
  unfold CoordinationServer.heartbeat
  apply wpe_parsed hid
  rw [wpe_bind, wpe_service]
  apply wpe_found hd
  -- The clock and the presence entry do not touch the device row.
  rw [wpe_bind, wpe_now]
  intro now
  rw [wpe_bind, wpe_setOnline]
  intro i
  rw [wpe_bind, wpe_call]
  intro j
  simp only [method, deviceMethod, DeviceRepo.updateHeartbeat, PresenceStore.setOnline,
    hd, outcome_ok]
  exact fun _ => trivial

theorem updateFor_serves (deviceID : UUID) (ev : PeerEvent) (s : Store) :
    wpe (handler lib) (updateFor lib deviceID ev) (fun _ _ => True) (fun _ _ => False) s := by
  unfold updateFor
  split
  · trivial
  · rw [wpe_bind]
    unfold peerOf
    rw [wpe_bind, wpe_try]
    intro i
    cases (method lib (.devices (.getByID ev.deviceID)) i s).1 with
    | error e => trivial
    | ok d =>
      -- Whatever the presence lookup says, an update is sent.
      intro j
      cases (handler lib (.presence d.id) j
        (method lib (.devices (.getByID ev.deviceID)) i s).2).1 <;> trivial

theorem streamPeerUpdates_serves {req : StreamPeerUpdatesRequest}
    (h : NamesDevice g s req.deviceId) (events : List PeerEvent) :
    wpe (handler lib) (CoordinationServer.streamPeerUpdates lib g (some u) req events)
      (fun _ _ => True) (fun _ _ => False) s := by
  obtain ⟨id, d, hid, hd⟩ := h
  unfold CoordinationServer.streamPeerUpdates
  apply wpe_parsed hid
  rw [wpe_bind, wpe_service]
  show wpe _ (call (.devices (.getByID id))) _ _ s
  rw [wpe_getDevice, hd]
  refine ⟨?_, fun hnone => by cases hnone⟩
  intro d' hd'
  rw [wpe_bind, wpe_service]
  intro i
  show wpe _ (service _ >>= _) _ _ s
  rw [wpe_bind, wpe_service]
  exact wpe_mapM (J := fun _ => True) (fun ev s' _ => updateFor_serves id ev s') events trivial

theorem exchangeICECandidates_serves {req : ICEExchangeRequest}
    (h : NamesDevice g s req.deviceId) (h' : NamesDevice g s req.targetDeviceId) :
    wpe (handler lib) (CoordinationServer.exchangeICECandidates g (some u) req)
      (fun _ _ => True) (fun _ _ => False) s := by
  obtain ⟨id, d, hid, hd⟩ := h
  obtain ⟨target, d', htarget, hd'⟩ := h'
  unfold CoordinationServer.exchangeICECandidates
  apply wpe_parsed hid
  apply wpe_parsed htarget
  rw [wpe_bind, wpe_service]
  apply wpe_found hd
  apply wpe_found hd'
  rw [wpe_bind, wpe_putICE]
  intro i
  rw [wpe_call]
  intro j
  -- Candidates of the target, candidates that have lapsed, or none: all are an answer.
  simp only [method, ICEStore.get]
  split
  · trivial
  · split <;> trivial

theorem allocate_serves {now : Time} {rs : RelayServer}
    (hoffer : s.relays.Chosen (offers now) rs) (q : RelayRequest) :
    wpe (Fixed (handler lib) { (default : RepoInput) with now := now })
      (CoordinationService.requestRelay q) (fun _ _ => True) (fun _ _ => False) s := by
  have hrun : (CoordinationService.requestRelay q).run = _ :=
    expand_requestRelay (fun c => ask (I := repoIface) (.alloc c)) q
  rw [wpe, hrun]
  rcases pickLeastLoaded_spec s.relays now .asStored q.preferredRegion with
    ⟨relay, hok, hpick⟩ | ⟨-, hno⟩
  · have hinc : (incrementLoad s.relays relay.id 1).1 = .ok () := by
      simp [incrementLoad, hpick.1]
    simp [ask, Fixed, handler, method, allocMethod, default, hok, hinc]
  · exact absurd hoffer (hno rs)

variable (lib) in
theorem requestRelay_serves {req : RequestRelayRequest}
    (h : Served g s (.requestRelay req)) :
    ∃ i, wpe (Fixed (handler lib) i) (CoordinationServer.requestRelay g (some u) req)
      (fun _ _ => True) (fun _ _ => False) s := by
  obtain ⟨hparse, hparse', now, rs, hoffer⟩ := h
  obtain ⟨id, hid⟩ := isSome_iff_exists.mp hparse
  obtain ⟨networkID, hnid⟩ := isSome_iff_exists.mp hparse'
  refine ⟨{ (default : RepoInput) with now := now }, ?_⟩
  unfold CoordinationServer.requestRelay
  apply wpe_parsed hid
  apply wpe_parsed hnid
  rw [wpe_bind, wpe_service]
  exact allocate_serves hoffer _

variable (lib presenceTTL) in
theorem handle_serves {r : Rpc} (h : Served g s r) :
    ∃ w, (exec (handler lib) (r.handle lib g presenceTTL (some u)).run w s).1 = .ok () := by
  have hquiet : ∀ w : Nat → RepoInput,
      wpe (handler lib) (r.handle lib g presenceTTL (some u)) (fun _ _ => True)
        (fun _ _ => False) s →
      ∃ w, (exec (handler lib) (r.handle lib g presenceTTL (some u)).run w s).1 = .ok () := by
    intro w hwp
    obtain ⟨_, hok⟩ := exec_ok hwp w
    exact ⟨w, hok⟩
  cases r with
  | heartbeat req =>
    exact hquiet (fun _ => default) ((wpe_discard _ _ _).mpr (heartbeat_serves u h))
  | streamPeerUpdates req events =>
    exact hquiet (fun _ => default) ((wpe_discard _ _ _).mpr (streamPeerUpdates_serves u h events))
  | exchangeICECandidates req =>
    exact hquiet (fun _ => default)
      ((wpe_discard _ _ _).mpr (exchangeICECandidates_serves u h.1 h.2))
  | requestRelay req =>
    obtain ⟨i, hwp⟩ := requestRelay_serves lib u h
    obtain ⟨a, hok⟩ := exec_ok ((wpe_discard _ (fun _ _ => True) _).mpr hwp) fun _ => ()
    rw [exec_fixed] at hok
    exact ⟨fun _ => i, hok⟩

end

end Rpc

open Rpc

/-- An RPC acts only for the caller's own device exactly when the device is the
    caller's anyway, or the request would be refused to everybody. -/
theorem acts_for_own_device_iff (lib : StdLib) (g : GrpcLib) (presenceTTL : Int) (s : Store)
    (metadata : Option (List String)) (u : UUID) (hu : authenticate g metadata = .ok u) (r : Rpc) :
    (∀ w, (exec (handler lib) (r.serve lib g presenceTTL metadata).run w s).1 = .ok () →
      Owned g s u r) ↔ Owned g s u r ∨ ¬ Served g s r := by
  have hserve : r.serve lib g presenceTTL metadata = r.handle lib g presenceTTL (some u) := by
    unfold serve
    rw [hu]
  rw [hserve]
  constructor
  · intro h
    by_cases hserv : Served g s r
    · obtain ⟨w, hok⟩ := handle_serves lib presenceTTL u hserv
      exact .inl (h w hok)
    · exact .inr hserv
  · rintro (howned | href) w hok
    · exact howned
    · exact absurd (of_exec_ok (handle_only u r) hok) href

/-! ## A stranger's relay token -/

section

def resident : UUID := .ofBytes [0xa]
def stranger : UUID := .ofBytes [0xb]

def sampleLib : StdLib := ⟨fun _ => none, fun _ => "", fun _ _ => false, id⟩

/-- Tokens that carry the user's name, and ids that are names. -/
def sampleGrpc : GrpcLib where
  parseAccessToken token := some token
  parseUUID text :=
    if text = "resident" then some resident
    else if text = "stranger" then some stranger
    else if text = "laptop" then some (.ofBytes [1])
    else if text = "home" then some (.ofBytes [2])
    else none

/-- A user's laptop on the network `home`, and one idle relay. -/
def homeStore : Store :=
  { empty with
    members := Table.empty.put ⟨.ofBytes [3], .ofBytes [2], resident, .owner, 0⟩
    devices := Table.empty.put
      (newDevice (.ofBytes [1]) resident (.ofBytes [2]) "laptop" "linux" "" "key" "10.0.0.2" false)
    relays := Table.empty.put ⟨.ofBytes [4], "eu", "relay", "", 3478, 3479, 1000, 0, "active",
      some 0, 0⟩ }

def strangerMetadata : Option (List String) := some ["Bearer stranger"]

def relayForLaptop : Rpc := .requestRelay ⟨"laptop", "home", "eu"⟩

theorem acts_for_own_device_iff_stranger :
    authenticate sampleGrpc strangerMetadata = .ok stranger ∧
    ((∀ w, (exec (handler sampleLib)
        (relayForLaptop.serve sampleLib sampleGrpc 45000000000 strangerMetadata).run w
        homeStore).1 = .ok () → Owned sampleGrpc homeStore stranger relayForLaptop) ↔
      Owned sampleGrpc homeStore stranger relayForLaptop ∨
        ¬ Served sampleGrpc homeStore relayForLaptop) :=
  ⟨by decide, acts_for_own_device_iff sampleLib sampleGrpc 45000000000 homeStore strangerMetadata
    stranger (by decide) relayForLaptop⟩

theorem laptop_not_owned : ¬ Owned sampleGrpc homeStore stranger relayForLaptop := by
  rintro ⟨id, d, hid, hd, huser, -⟩
  have hlaptop : id = .ofBytes [1] := by
    have h : some (UUID.ofBytes [1]) = some id := hid
    exact (some.inj h).symm
  subst hlaptop
  have hsame : resident = stranger := by
    rw [← huser]
    exact congrArg Device.userID (some.inj hd)
  exact absurd hsame (by decide)

/-- A user who is not on the network asks for a relay on behalf of the laptop, and is
    given a session token for it. -/
theorem stranger_given_relay_token :
    ¬ ∀ w, (exec (handler sampleLib)
      (relayForLaptop.serve sampleLib sampleGrpc 45000000000 strangerMetadata).run w
      homeStore).1 = .ok () → Owned sampleGrpc homeStore stranger relayForLaptop := by
  intro hacts
  exact laptop_not_owned (hacts (fun _ => default) (by decide +kernel))

end

end NexusVPN.Backend
