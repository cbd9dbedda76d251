import NexusVPN.Basic

/-! # The control plane's domain types

    `backend/internal/domain`.  Fields that no modelled function reads or writes
    are left out (`Network.CIDRv6`, `Device.LastHandshakeAt`, and the e-mail and
    display name that the Postgres queries join onto a membership row). -/

namespace NexusVPN.Backend

/-! ## Errors -/

/-- The sentinel errors of `domain/errors.go`; `other` is any error that a library
    or a database driver reports, by its text. -/
inductive DomainError where
  | notFound
  | alreadyExists
  | invalidCredentials
  | unauthorized
  | forbidden
  | invalidInput
  | mfaRequired
  | invalidMFACode
  | tokenExpired
  | tokenRevoked
  | tokenInvalid
  | inviteInvalid
  | networkFull
  | lastOwner
  | noRelayAvailable
  | other (text : String)
deriving DecidableEq

/-- `err.Error()`. -/
def DomainError.error : DomainError → String
  | .notFound => "resource not found"
  | .alreadyExists => "resource already exists"
  | .invalidCredentials => "invalid credentials"
  | .unauthorized => "unauthorized"
  | .forbidden => "forbidden"
  | .invalidInput => "invalid input"
  | .mfaRequired => "mfa code required"
  | .invalidMFACode => "invalid mfa code"
  | .tokenExpired => "token expired"
  | .tokenRevoked => "token revoked"
  | .tokenInvalid => "token invalid"
  | .inviteInvalid => "invite code invalid or expired"
  | .networkFull => "network has no free addresses"
  | .lastOwner => "cannot remove or demote the last owner"
  | .noRelayAvailable => "no relay servers available"
  | .other text => text

/-! ## Networks and members -/

/-- `NetworkRole`, a Go string type with three named values.  Any other string can
    arrive in a request, and is kept apart from the three by its own proof. -/
inductive NetworkRole where
  | owner
  | admin
  | member
  | other (text : String) (unnamed : text ∉ ["owner", "admin", "member"])
deriving DecidableEq

/-- The value of a `NetworkRole` that was never set. -/
def NetworkRole.unset : NetworkRole := .other "" (by decide)

structure Network where
  id : UUID
  name : String
  description : String
  cidr : String
  dnsServers : List String
  ownerID : UUID
  inviteCode : String
  inviteCodeExpiresAt : Option Time
  inviteEnabled : Bool
  allowBroadcast : Bool
  createdAt : Time
  updatedAt : Time
  /-- Filled in by the services for the caller, together with the next two. -/
  memberCount : Nat
  deviceCount : Nat
  callerRole : NetworkRole

/-- A user's place in a network. -/
structure NetworkMember where
  id : UUID
  networkID : UUID
  userID : UUID
  role : NetworkRole
  joinedAt : Time

/-! ## Devices -/

inductive DeviceStatus where
  | online
  | offline
  | unknown
deriving DecidableEq

inductive DeviceOS where
  | windows
  | windowsServer
  | linux
  | macOS
  | android
  | iOS
  | unknown

/-- `NormalizeDeviceOS`: a string that names no known system becomes `unknown`. -/
def normalizeDeviceOS (s : String) : DeviceOS :=
  if s = "windows" then .windows
  else if s = "windows_server" then .windowsServer
  else if s = "linux" then .linux
  else if s = "macos" then .macOS
  else if s = "android" then .android
  else if s = "ios" then .iOS
  else .unknown

/-- A registered endpoint of a user on a network. -/
structure Device where
  id : UUID
  userID : UUID
  networkID : UUID
  name : String
  os : DeviceOS
  osVersion : String
  publicKey : String
  virtualIP : String
  lastPublicIP : Option String
  lastPrivateIP : Option String
  natType : Option String
  status : DeviceStatus
  lastSeenAt : Option Time
  bytesSent : Int
  bytesReceived : Int
  advertisesExitNode : Bool
  createdAt : Time
  updatedAt : Time

/-! ## Relays -/

/-- A relay node that the control plane can allocate.  `status` is free text in
    both repositories. -/
structure RelayServer where
  id : UUID
  region : String
  hostname : String
  publicKey : String
  controlPort : Int
  relayPort : Int
  capacity : Int
  currentLoad : Int
  status : String
  lastHeartbeatAt : Option Time
  createdAt : Time
deriving DecidableEq

/-! ## Presence, events and candidates -/

structure PresenceEndpoint where
  publicIP : String
  publicPort : UInt32
  privateIP : String
  privatePort : UInt32
  natType : String
  updatedAt : Time

inductive PeerEventType where
  | joined
  | left
  | endpointChanged
  | statusChanged

/-- A topology change broadcast to everyone watching a network. -/
structure PeerEvent where
  type : PeerEventType
  networkID : UUID
  deviceID : UUID

structure ICECandidate where
  ip : String
  port : UInt32
  protocol : String
  type : String
  priority : UInt32

end NexusVPN.Backend
