import NexusVPN.Backend.CoordinationService
import NexusVPN.Proto

/-! # The gRPC transport

    `transport/grpc/coordination_server.go` and `interceptors.go`: the interceptor
    that authenticates every call, and the handlers in front of the coordination
    service.  Checking an access token and parsing a UUID are left to their
    libraries, as a `GrpcLib` about which nothing is assumed. -/

namespace NexusVPN.Backend

open Proto CoordinationService

/-! ## Statuses -/

inductive StatusCode where
  | unauthenticated
  | invalidArgument
  | notFound
  | permissionDenied
  | alreadyExists
  | resourceExhausted
  | internal
deriving DecidableEq

structure Status where
  code : StatusCode
  message : String
deriving DecidableEq

def toGRPCError (err : DomainError) : Status :=
  match err with
  | .notFound => ⟨.notFound, err.error⟩
  | .forbidden => ⟨.permissionDenied, err.error⟩
  | .unauthorized => ⟨.unauthenticated, err.error⟩
  | .invalidInput => ⟨.invalidArgument, err.error⟩
  | .alreadyExists => ⟨.alreadyExists, err.error⟩
  | .noRelayAvailable => ⟨.resourceExhausted, err.error⟩
  | .networkFull => ⟨.resourceExhausted, err.error⟩
  | .invalidCredentials | .mfaRequired | .invalidMFACode | .tokenExpired | .tokenRevoked
  | .tokenInvalid | .inviteInvalid | .lastOwner | .other _ => ⟨.internal, "internal error"⟩

/-! ## Authentication -/

structure GrpcLib where
  /-- The user id claim of an access token that is valid. -/
  parseAccessToken : String → Option String
  /-- `uuid.Parse`. -/
  parseUUID : String → Option UUID

/-- `strings.TrimPrefix(s, "Bearer ")`. -/
def trimBearer (s : String) : String :=
  if "Bearer ".toList.isPrefixOf s.toList then String.ofList (s.toList.drop 7) else s

/-- `authenticate`: the metadata of the call, if there is any, is the list of values
    under `authorization`. -/
def authenticate (g : GrpcLib) (metadata : Option (List String)) : Except Status UUID :=
  match metadata with
  | none => .error ⟨.unauthenticated, "missing metadata"⟩
  | some [] => .error ⟨.unauthenticated, "missing authorization metadata"⟩
  | some (value :: _) =>
    let raw := trimSpace (trimBearer value)
    if raw = "" then .error ⟨.unauthenticated, "empty bearer token"⟩
    else
      match g.parseAccessToken raw with
      | none => .error ⟨.unauthenticated, "invalid or expired access token"⟩
      | some subject =>
        match g.parseUUID subject with
        | none => .error ⟨.unauthenticated, "malformed subject claim"⟩
        | some userID => .ok userID

/-! ## Handlers -/

/-- Handlers call the services, and end with a status if something is wrong. -/
abbrev Grpc := ExceptT Status (Prog repoIface)

/-- Call the service, and translate its error. -/
def service {α : Type} (p : Svc α) : Grpc α :=
  ExceptT.mk (p.run >>= fun
    | .ok a => .ret (.ok a)
    | .error e => .ret (.error (toGRPCError e)))

/-- `userIDFromContext`, or the status for a context without a user. -/
def requireUser (ctx : Option UUID) : Grpc UUID :=
  match ctx with
  | none => throw ⟨.unauthenticated, "authentication required"⟩
  | some userID => return userID

/-- `uuid.Parse` of a field of the request. -/
def parseField (g : GrpcLib) (value message : String) : Grpc UUID :=
  match g.parseUUID value with
  | none => throw ⟨.invalidArgument, message⟩
  | some id => return id

def natTypeFromProto : NATType → String
  | .openInternet => "open"
  | .fullCone => "full_cone"
  | .restrictedCone => "restricted_cone"
  | .portRestrictedCone => "port_restricted_cone"
  | .symmetric => "symmetric"
  | .unspecified => ""

def natTypeToProto (lib : StdLib) (s : String) : NATType :=
  let s := lib.toLower s
  if s = "open" then .openInternet
  else if s = "full_cone" ∨ s = "fullcone" then .fullCone
  else if s = "restricted_cone" ∨ s = "restricted" then .restrictedCone
  else if s = "port_restricted_cone" ∨ s = "port_restricted" then .portRestrictedCone
  else if s = "symmetric" then .symmetric
  else .unspecified

def peerUpdateTypeToProto : PeerEventType → PeerUpdateType
  | .joined => .joined
  | .left => .left
  | .endpointChanged => .endpointChanged
  | .statusChanged => .statusChanged

/-- `string(d.OS)`. -/
def DeviceOS.text : DeviceOS → String
  | .windows => "windows"
  | .windowsServer => "windows_server"
  | .linux => "linux"
  | .macOS => "macos"
  | .android => "android"
  | .iOS => "ios"
  | .unknown => "unknown"

/-- `toProtoPeer`: the live presence endpoint, if there is one, is preferred to the
    columns of the row. -/
def toProtoPeer (lib : StdLib) (d : Device) : Svc Peer := do
  let presence ← devicePresence d.id
  let rowNAT := (d.natType.map (natTypeToProto lib)).getD .unspecified
  return {
    deviceId := d.id.string
    deviceName := d.name
    publicKey := d.publicKey
    virtualIp := d.virtualIP
    os := d.os.text
    exitNode := d.advertisesExitNode
    online := d.status = .online || presence.isSome
    lastSeen := d.lastSeenAt
    natType :=
      match presence with
      | some ep => if ep.natType ≠ "" then natTypeToProto lib ep.natType else rowNAT
      | none => rowNAT
    lastKnownEndpoint :=
      match presence with
      | some ep => some ⟨ep.publicIP, ep.publicPort, "udp"⟩
      | none => d.lastPublicIP.map fun ip => ⟨ip, 0, "udp"⟩ }

namespace CoordinationServer

variable (lib : StdLib) (g : GrpcLib) (presenceTTL : Int)

def registerDevice (ctx : Option UUID) (req : RegisterDeviceRequest) :
    Grpc RegisterDeviceResponse := do
  let userID ← requireUser ctx
  let networkID ← parseField g req.networkId "malformed network_id"
  if req.devicePublicKey = "" then throw ⟨.invalidArgument, "device_public_key is required"⟩
  else
    let result ← service (CoordinationService.registerDevice userID networkID
      ⟨req.devicePublicKey, req.deviceName, req.os, req.osVersion, req.advertiseExitNode⟩)
    let peers ← service (result.existingPeers.mapM (toProtoPeer lib))
    return ⟨result.device.id.string, result.device.virtualIP, result.networkCIDR,
      result.dnsServers, peers⟩

/-- The endpoint of a heartbeat without addresses. -/
def noEndpoint : PresenceEndpoint := ⟨"", 0, "", 0, "", 0⟩

def publicEndpoint (ep : Option Endpoint) : PresenceEndpoint :=
  match ep with
  | some ep => { noEndpoint with publicIP := ep.ip, publicPort := ep.port }
  | none => noEndpoint

def privateEndpoint (ep : Option Endpoint) : PresenceEndpoint :=
  match ep with
  | some ep => { noEndpoint with privateIP := ep.ip, privatePort := ep.port }
  | none => noEndpoint

def heartbeat (ctx : Option UUID) (req : HeartbeatRequest) : Grpc HeartbeatResponse := do
  let _ ← requireUser ctx
  let deviceID ← parseField g req.deviceId "malformed device_id"
  let next ← service (CoordinationService.heartbeat presenceTTL deviceID
    (publicEndpoint req.publicEndpoint) (privateEndpoint req.privateEndpoint)
    (natTypeFromProto req.natType) req.bytesSent req.bytesReceived)
  return ⟨true, next⟩

/-- The peer of an update about a device that may be gone already. -/
def peerOf (deviceID : UUID) : Svc Peer := do
  match ← tryCall (.devices (.getByID deviceID)) with
  | .ok d => toProtoPeer lib d
  | .error _ =>
    return ⟨deviceID.string, "", "", "", none, .unspecified, false, none, "", false⟩

/-- One event of the stream; a device's own updates are not echoed back to it. -/
def updateFor (deviceID : UUID) (ev : PeerEvent) : Svc (Option PeerUpdate) := do
  if ev.deviceID = deviceID then return none
  else
    let peer ← peerOf lib ev.deviceID
    return some ⟨peerUpdateTypeToProto ev.type, some peer, ev.networkID.string⟩

/-- `StreamPeerUpdates`: what is sent until the client goes away, `events` being what
    the subscription delivers until then. -/
def streamPeerUpdates (ctx : Option UUID) (req : StreamPeerUpdatesRequest)
    (events : List PeerEvent) : Grpc (List PeerUpdate) := do
  let _ ← requireUser ctx
  let deviceID ← parseField g req.deviceId "malformed device_id"
  let device ← service (networksForDevice deviceID)
  service (CoordinationService.subscribe [device.networkID])
  let updates ← service (events.mapM (updateFor lib deviceID))
  return updates.filterMap id

/-- A candidate without an endpoint is skipped. -/
def candidateOf (c : Proto.ICECandidate) : Option ICECandidate :=
  c.endpoint.map fun ep => ⟨ep.ip, ep.port, ep.protocol, c.type, c.priority⟩

def candidateToProto (c : ICECandidate) : Proto.ICECandidate where
  endpoint := some ⟨c.ip, c.port, if c.protocol = "" then "udp" else c.protocol⟩
  type := c.type
  priority := c.priority

def exchangeICECandidates (ctx : Option UUID) (req : ICEExchangeRequest) :
    Grpc ICEExchangeResponse := do
  let _ ← requireUser ctx
  let deviceID ← parseField g req.deviceId "malformed device_id"
  let targetID ← parseField g req.targetDeviceId "malformed target_device_id"
  let peerCandidates ← service
    (exchangeICE deviceID targetID (req.candidates.filterMap candidateOf))
  return ⟨peerCandidates.map candidateToProto⟩

def requestRelay (ctx : Option UUID) (req : Proto.RequestRelayRequest) :
    Grpc RequestRelayResponse := do
  let _ ← requireUser ctx
  let deviceID ← parseField g req.deviceId "malformed device_id"
  let networkID ← parseField g req.networkId "malformed network_id"
  let alloc ← service (CoordinationService.requestRelay ⟨deviceID, networkID, req.preferredRegion⟩)
  return ⟨alloc.relay.id.string, alloc.relay.hostname, UInt32.ofInt alloc.relay.relayPort,
    alloc.relay.publicKey, alloc.sessionToken⟩

end CoordinationServer

end NexusVPN.Backend
