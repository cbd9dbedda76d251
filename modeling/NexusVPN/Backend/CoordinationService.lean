import NexusVPN.Backend.DeviceService

/-! # CoordinationService

    `usecase/coordination_service.go`: what the gRPC transport does for a device,
    which is to register it, to keep its presence, to pass candidates between peers
    and to allocate relays. -/

namespace NexusVPN.Backend

namespace CoordinationService

open NetworkService (requireMembership)

/-- `RegisterDeviceInput`; the client's version is not used. -/
structure RegisterDeviceInput where
  publicKey : String
  deviceName : String
  os : String
  osVersion : String
  advertiseExitNode : Bool

structure RegisteredDevice where
  device : Device
  networkCIDR : String
  dnsServers : List String
  existingPeers : List Device

/-- A device that is known by its key is brought up to date. -/
def refreshDevice (userID networkID : UUID) (d : Device) (input : RegisterDeviceInput) :
    Svc Device := do
  require (d.networkID = networkID ∧ d.userID = userID) .forbidden
  call (.devices (.update { d with
    name := input.deviceName
    os := normalizeDeviceOS input.os
    osVersion := input.osVersion
    -- Restated on every registration: an offer that is not repeated is withdrawn.
    advertisesExitNode := input.advertiseExitNode }))

/-- A key that is not known becomes a new device. -/
def createDevice (userID networkID : UUID) (cidr : String) (input : RegisterDeviceInput) :
    Svc Device := do
  let ip ← call (.devices (.nextFreeVirtualIP networkID cidr))
  let id ← call .newID
  call (.devices (.create (newDevice id userID networkID input.deviceName input.os input.osVersion
    input.publicKey ip input.advertiseExitNode)))

/-- The part of `RegisterDevice` that finds or makes the device. -/
def findOrCreate (userID networkID : UUID) (cidr : String) (input : RegisterDeviceInput) :
    Svc Device := do
  match ← tryCall (.devices (.getByPublicKey input.publicKey)) with
  | .ok d => refreshDevice userID networkID d input
  | .error .notFound => createDevice userID networkID cidr input
  | .error e => throw e

def registerDevice (userID networkID : UUID) (input : RegisterDeviceInput) :
    Svc RegisteredDevice := do
  let _ ← requireMembership networkID userID
  let n ← call (.networks (.getByID networkID))
  let d ← findOrCreate userID networkID n.cidr input
  let peers ← call (.devices (.listPeers d.id))
  let peers ← mergePresence peers
  let _ ← tryCall (.publish ⟨.joined, networkID, d.id⟩)
  return ⟨d, n.cidr, n.dnsServers, peers⟩

/-- `if s != "" { p = &s }`. -/
def nonEmpty (s : String) : Option String := if s ≠ "" then some s else none

/-- `int32(presenceTTL.Seconds() / 1.5)`.  The constructor sees to it that the time to
    live is positive, so that truncating rounds down. -/
def nextHeartbeatSeconds (presenceTTL : Int) : Int := presenceTTL * 2 / 3000000000

/-- The endpoint that a heartbeat at `now` reports. -/
def reported (publicEP privateEP : PresenceEndpoint) (natType : String) (now : Time) :
    PresenceEndpoint :=
  { publicEP with
    privateIP := privateEP.privateIP, privatePort := privateEP.privatePort
    natType := natType, updatedAt := now }

/-- `Heartbeat`: the gRPC path. -/
def heartbeat (presenceTTL : Int) (deviceID : UUID) (publicEP privateEP : PresenceEndpoint)
    (natType : String) (bytesSent bytesReceived : UInt64) : Svc Int := do
  let d ← call (.devices (.getByID deviceID))
  let now ← call .now
  call (.setOnline d.networkID deviceID (reported publicEP privateEP natType now) presenceTTL)
  call (.devices (.updateHeartbeat deviceID .online (nonEmpty publicEP.publicIP)
    (nonEmpty privateEP.privateIP) (nonEmpty natType) bytesSent.toInt64.toInt
    bytesReceived.toInt64.toInt))
  let _ ← tryCall (.publish ⟨.endpointChanged, d.networkID, deviceID⟩)
  return nextHeartbeatSeconds presenceTTL

/-- `NetworksForDevice`, and `GetDevice`, which does the same. -/
def networksForDevice (deviceID : UUID) : Svc Device := call (.devices (.getByID deviceID))

def subscribe (networkIDs : List UUID) : Svc Unit := call (.subscribe networkIDs)

/-- `DevicePresence`, where an error counts as not online. -/
def devicePresence (deviceID : UUID) : Svc (Option PresenceEndpoint) := do
  match ← tryCall (.presence deviceID) with
  | .ok ep => return ep
  | .error _ => return none

/-- `30*time.Second`. -/
def iceTTL : Int := 30000000000

/-- `ExchangeICE`: leave one's candidates for the peer, and take what the peer left. -/
def exchangeICE (deviceID targetDeviceID : UUID) (candidates : List ICECandidate) :
    Svc (List ICECandidate) := do
  let _ ← call (.devices (.getByID deviceID))
  let _ ← call (.devices (.getByID targetDeviceID))
  call (.putICE deviceID targetDeviceID candidates iceTTL)
  call (.getICE deviceID targetDeviceID)

/-- `RequestRelay`, on the store's own relay repository. -/
def requestRelay (q : RelayRequest) : Svc RelayAllocation :=
  ExceptT.mk ((Backend.requestRelay q).run.expand fun c => Prog.ask (I := repoIface) (.alloc c))

end CoordinationService

end NexusVPN.Backend
