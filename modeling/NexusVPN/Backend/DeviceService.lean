import NexusVPN.Backend.NetworkService

/-! # DeviceService

    `usecase/device_service.go`: registration, listing, heartbeats and peer discovery
    over REST.  Presence store and event bus are always configured. -/

namespace NexusVPN.Backend

/-- What the presence store knows replaces what the row says. -/
def Device.withPresence (d : Device) (ep : PresenceEndpoint) : Device :=
  { d with
    status := .online
    lastPublicIP := if ep.publicIP ≠ "" then some ep.publicIP else d.lastPublicIP
    natType := if ep.natType ≠ "" then some ep.natType else d.natType }

/-- One round of the loop of `mergePresence`. -/
def mergeOne (d : Device) : Svc Device := do
  match ← tryCall (.presence d.id) with
  | .ok (some ep) => return d.withPresence ep
  | _ => return d

def mergePresence (ds : List Device) : Svc (List Device) := ds.mapM mergeOne

/-- A device as it is first stored. -/
def newDevice (id userID networkID : UUID) (name os osVersion publicKey virtualIP : String)
    (advertiseExitNode : Bool) : Device where
  id := id
  userID := userID
  networkID := networkID
  name := name
  os := normalizeDeviceOS os
  osVersion := osVersion
  publicKey := publicKey
  virtualIP := virtualIP
  lastPublicIP := none
  lastPrivateIP := none
  natType := none
  status := .unknown
  lastSeenAt := none
  bytesSent := 0
  bytesReceived := 0
  advertisesExitNode := advertiseExitNode
  createdAt := 0
  updatedAt := 0

/-- `45*time.Second`. -/
def restPresenceTTL : Int := 45000000000

namespace DeviceService

open NetworkService (requireMembership)

/-- `Register`: a member puts a new device on the network. -/
def register (userID networkID : UUID) (name os osVersion publicKey : String) : Svc Device := do
  require (!isBlank name && !isBlank publicKey) .invalidInput
  let _ ← requireMembership networkID userID
  let n ← call (.networks (.getByID networkID))
  match ← tryCall (.devices (.getByPublicKey publicKey)) with
  | .ok _ => throw .alreadyExists
  | .error .notFound =>
    let ip ← call (.devices (.nextFreeVirtualIP networkID n.cidr))
    let id ← call .newID
    call (.devices (.create (newDevice id userID networkID name os osVersion publicKey ip false)))
  | .error e => throw e

def listForNetwork (networkID userID : UUID) : Svc (List Device) := do
  let _ ← requireMembership networkID userID
  let devices ← call (.devices (.listByNetwork networkID))
  mergePresence devices

/-- `authorizeDeviceAccess`: the device's own user, or an owner or admin of its
    network. -/
def authorizeDeviceAccess (deviceID userID : UUID) : Svc Device := do
  let d ← call (.devices (.getByID deviceID))
  if d.userID = userID then return d
  else
    let member ← requireMembership d.networkID userID
    require (member.role = .owner ∨ member.role = .admin) .forbidden
    return d

def get (deviceID userID : UUID) : Svc Device := do
  let d ← authorizeDeviceAccess deviceID userID
  mergeOne d

/-- `Delete`: the peers are told, whether or not the presence entry could be removed. -/
def delete (deviceID userID : UUID) : Svc Unit := do
  let d ← authorizeDeviceAccess deviceID userID
  call (.devices (.delete deviceID))
  let _ ← tryCall (.setOffline d.id)
  let _ ← tryCall (.publish ⟨.left, d.networkID, d.id⟩)

/-- `Heartbeat`: the REST path, for the device's own user only. -/
def heartbeat (deviceID userID : UUID) (publicIP privateIP natType : Option String)
    (bytesSent bytesReceived : Int) : Svc Unit := do
  let d ← call (.devices (.getByID deviceID))
  require (d.userID = userID) .forbidden
  call (.devices
    (.updateHeartbeat deviceID .online publicIP privateIP natType bytesSent bytesReceived))
  let now ← call .now
  let _ ← tryCall (.setOnline d.networkID deviceID
    ⟨publicIP.getD "", 0, privateIP.getD "", 0, natType.getD "", now⟩ restPresenceTTL)
  let _ ← tryCall (.publish ⟨.statusChanged, d.networkID, deviceID⟩)

def listPeers (deviceID userID : UUID) : Svc (List Device) := do
  let d ← authorizeDeviceAccess deviceID userID
  let peers ← call (.devices (.listPeers d.id))
  mergePresence peers

end DeviceService

end NexusVPN.Backend
