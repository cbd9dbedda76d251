import NexusVPN.Basic

/-! # Messages of the coordination service

    `proto/coordination/v1/coordination.proto`, as the server fills them in and the
    client reads them.  A message field that may be absent is an `Option`; a string
    that is absent is empty, and so on, as in proto3. -/

namespace NexusVPN.Proto

structure Endpoint where
  ip : String
  port : UInt32
  protocol : String
deriving DecidableEq

inductive NATType where
  | unspecified
  | openInternet
  | fullCone
  | restrictedCone
  | portRestrictedCone
  | symmetric
deriving DecidableEq

structure Peer where
  deviceId : String
  deviceName : String
  publicKey : String
  virtualIp : String
  lastKnownEndpoint : Option Endpoint
  natType : NATType
  online : Bool
  lastSeen : Option Time
  os : String
  exitNode : Bool
deriving DecidableEq

structure RegisterDeviceRequest where
  devicePublicKey : String
  networkId : String
  deviceName : String
  os : String
  osVersion : String
  clientVersion : String
  advertiseExitNode : Bool

structure RegisterDeviceResponse where
  deviceId : String
  assignedVirtualIp : String
  networkCidr : String
  dnsServers : List String
  existingPeers : List Peer
deriving DecidableEq

structure HeartbeatRequest where
  deviceId : String
  publicEndpoint : Option Endpoint
  privateEndpoint : Option Endpoint
  natType : NATType
  bytesSent : UInt64
  bytesReceived : UInt64

structure HeartbeatResponse where
  ok : Bool
  nextHeartbeatSeconds : Int

structure StreamPeerUpdatesRequest where
  deviceId : String

inductive PeerUpdateType where
  | unspecified
  | joined
  | left
  | endpointChanged
  | statusChanged

structure PeerUpdate where
  type : PeerUpdateType
  peer : Option Peer
  networkId : String

structure ICECandidate where
  endpoint : Option Endpoint
  type : String
  priority : UInt32

structure ICEExchangeRequest where
  deviceId : String
  targetDeviceId : String
  candidates : List ICECandidate

structure ICEExchangeResponse where
  peerCandidates : List ICECandidate

structure RequestRelayRequest where
  deviceId : String
  networkId : String
  preferredRegion : String

structure RequestRelayResponse where
  relayId : String
  hostname : String
  relayPort : UInt32
  relayPublicKey : String
  sessionToken : String

end NexusVPN.Proto
