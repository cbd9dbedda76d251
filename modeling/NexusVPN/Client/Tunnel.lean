import NexusVPN.Client.WireGuard
import NexusVPN.Lib.Prog
import NexusVPN.Proto

/-! # The tunnel: state and atomic steps

    `client/internal/tunnel`: what the orchestrator keeps, and the sections of code that run
    without interruption.  A section is what happens between taking and releasing one of the
    locks (`t.mu`, `pr.mu`, `exit.mu`), one call of the WireGuard device, one RPC, one host
    command, or opening or closing a relay proxy.

    A `*peer` that was taken out of `t.peers` lives on in the goroutines that hold the
    pointer.  So peers sit in a heap, and `t.peers` holds references.  What the world
    answers is part of the input of a step. -/

namespace NexusVPN.Client

open Proto

/-! ## Peers and proxies -/

/-- Functions of libraries that the client calls. -/
structure ClientLib where
  /-- `uuid.Parse`. -/
  parseUUID : String → Option UUID
  /-- `net.ParseIP`. -/
  parseIP : String → Option Bytes
  /-- `UDPAddr.String`. -/
  addrString : UDPAddr → String
  /-- `IP.String`. -/
  ipString : Bytes → String
  /-- `base64KeyToHex`, as the bytes. -/
  decodeKey : String → Option Bytes

/-- What a tunnel is built with: the optional parts, and the timers. -/
structure TunnelConfig where
  router : Bool
  killSwitch : Bool
  discoverer : Bool
  paths : Bool
  monitorInterval : Int
  renegotiateInterval : Int

inductive ConnectionMode where
  | connecting
  | direct
  | relay
  | offline
deriving DecidableEq

/-- A `*relayproxy.Proxy`: which one, and what never changes about it. -/
structure ProxyRef where
  id : Nat
  peerDeviceID : UUID
  localEndpoint : UDPAddr
  relayAddr : UDPAddr
deriving DecidableEq

/-- A `*peer`: where it sits in the heap, and the fields that are never written again. -/
structure PeerRef where
  ref : Nat
  deviceID : UUID
  publicKey : String
  virtualIP : String
deriving DecidableEq

/-- The fields of a peer that change, under `pr.mu`. -/
structure PeerVars where
  deviceName : String
  deviceOS : String
  exitNode : Bool
  remote : Option UDPAddr
  localCandidate : Option UDPAddr
  mode : ConnectionMode
  proxy : Option ProxyRef
  lastAttempt : Time
  lastRx : UInt64
  lastRxMove : Time

structure DiscoveryResult where
  publicEndpoint : Option UDPAddr
  localEndpoint : Option UDPAddr

/-- `netroute.Default`. -/
structure DefaultRoute where
  gateway : Option Bytes
  interface : String

/-- `exitState`: what has to be undone when exit-node mode ends. -/
structure ExitState where
  deviceID : UUID
  priorDefault : DefaultRoute
  pinned : List Bytes
  captured : Bool
  locked : Bool

/-- The tunnel, the WireGuard device it drives, and the proxies that are open. -/
structure TunnelState where
  deviceID : String
  networkID : String
  virtualIP : String
  cidr : String
  dnsServers : List String
  preferredRegion : String
  started : Bool
  discovery : DiscoveryResult
  peers : GoMap UUID PeerRef
  heap : PeerRef → PeerVars
  nextRef : Nat
  exit : ExitState
  wg : WGDevice
  openProxies : List ProxyRef
  nextProxy : Nat

/-- What one goroutine reads of the tunnel in one section. -/
structure Identity where
  deviceID : String
  networkID : String
  preferredRegion : String
  discovery : DiscoveryResult

/-- A candidate for hole punching. -/
structure Candidate where
  addr : UDPAddr
  type : String
  priority : UInt32

/-- What `PeerStats` reads of a peer of the interface. -/
structure PeerStats where
  lastHandshake : Time
  rxBytes : UInt64

/-! ## Calls -/

/-- What the tunnel asks of the world: the control plane, the network, the host. -/
inductive EnvCall where
  | registerDevice
  | discover
  | exchangeICE (req : ICEExchangeRequest)
  | requestRelay (req : RequestRelayRequest)
  | resolve (hostname : String) (port : UInt32)
  | peerStats (publicKey : String)
  | punch (before : Time) (candidates : List Candidate)
  | ctxErr
  | startProxy (x : ProxyRef)
  | pathResult (d : UUID)
  | ping (addr : UDPAddr)
  | now
  | snapshotRoutes
  | pinEndpoint (ip : Bytes) (prior : DefaultRoute)
  | unpinEndpoint (ip : Bytes)
  | captureDefault
  | releaseDefault
  | localNetworks
  | engageKillSwitch (endpoints : List UDPAddr) (localNetworks : List IPRange) (allowLAN : Bool)
  | releaseKillSwitch

/-- An answer that is absent, or false, is an error. -/
@[reducible] def EnvCall.Result : EnvCall → Type
  | .registerDevice => Option RegisterDeviceResponse
  | .discover => Option DiscoveryResult
  | .exchangeICE _ => Option ICEExchangeResponse
  | .requestRelay _ => Option RequestRelayResponse
  | .resolve _ _ => Option UDPAddr
  | .peerStats _ => Option PeerStats
  | .pathResult _ => Option Time
  | .now => Time
  | .snapshotRoutes => Option DefaultRoute
  | .localNetworks => Option (List IPRange)
  | .punch .. | .ctxErr | .startProxy _ | .ping _ | .pinEndpoint .. | .unpinEndpoint _
  | .captureDefault | .releaseDefault | .engageKillSwitch .. | .releaseKillSwitch => Bool

/-- Nothing answers, and everything fails. -/
def EnvCall.unanswered : (c : EnvCall) → c.Result
  | .registerDevice | .discover | .exchangeICE _ | .requestRelay _ | .resolve _ _ | .peerStats _
  | .pathResult _ | .snapshotRoutes | .localNetworks => none
  | .now => (0 : Int)
  | .punch .. | .ctxErr | .startProxy _ | .ping _ | .pinEndpoint .. | .unpinEndpoint _
  | .captureDefault | .releaseDefault | .engageKillSwitch .. | .releaseKillSwitch => false

/-- What `addPeer` finds under `t.mu`. -/
inductive Insertion where
  | existing (pr : PeerRef)
  | inserted (pr : PeerRef)

inductive TunnelCall where
  | env (c : EnvCall)
  -- Sections under `t.mu`.
  | identity
  | setRegistration (resp : RegisterDeviceResponse)
  | beginStart
  | setDiscovery (d : DiscoveryResult)
  | lookupPeer (d : UUID)
  | insertPeer (d : UUID) (publicKey virtualIP : String) (vars : PeerVars)
  | deletePeer (d : UUID)
  | listPeers
  -- Sections under `pr.mu`.
  | readPeer (pr : PeerRef)
  | refreshPeer (pr : PeerRef) (p : Peer)
  | beginAttempt (pr : PeerRef) (renegotiateInterval : Int)
  | clearAttempt (pr : PeerRef)
  | setLocalCandidate (pr : PeerRef) (addr : UDPAddr)
  | establishDirect (pr : PeerRef)
  | adoptProxy (pr : PeerRef) (x : ProxyRef)
  | takeProxy (pr : PeerRef)
  | setMode (pr : PeerRef) (mode : ConnectionMode)
  | moveEndpoint (pr : PeerRef) (ep : UDPAddr)
  | observe (pr : PeerRef) (rxBytes : UInt64) (now : Time)
  -- Sections under `exit.mu`.
  | takeExit
  | recordExit (d : UUID) (prior : DefaultRoute) (pinned : List Bytes)
  | recordLocked
  -- The WireGuard device.
  | upsertPeer (cfg : PeerConfig)
  | updateEndpoint (publicKey : String) (ep : UDPAddr)
  | removeWGPeer (publicKey : String)
  -- Relay proxies, and `go t.negotiate(ctx, pr)`.
  | newProxy (peerDeviceID : UUID) (relayAddr : UDPAddr)
  | closeProxy (x : ProxyRef)
  | goNegotiate (pr : PeerRef)

@[reducible] def tunnelIface : Iface where
  Call := TunnelCall
  Ans
    | .env c => c.Result
    | .identity => Identity
    | .beginStart => Bool × Bool
    | .lookupPeer _ | .deletePeer _ => Option PeerRef
    | .insertPeer .. => Insertion
    | .listPeers => List PeerRef
    | .readPeer _ => PeerVars
    | .beginAttempt _ _ => Bool
    | .establishDirect _ | .adoptProxy _ _ | .takeProxy _ => Option ProxyRef
    | .moveEndpoint _ _ => Bool × ConnectionMode
    | .takeExit => ExitState
    | .upsertPeer _ | .updateEndpoint _ _ | .removeWGPeer _ => Except WGError Unit
    | .newProxy _ _ => Option ProxyRef
    | .setRegistration _ | .setDiscovery _ | .refreshPeer .. | .clearAttempt _
    | .setLocalCandidate .. | .setMode .. | .observe .. | .recordExit .. | .recordLocked
    | .closeProxy _ | .goNegotiate _ => Unit

/-- What a step reads from outside. -/
structure TunnelInput where
  now : Time
  order : MapOrder UUID
  /-- How the world answers. -/
  env : (c : EnvCall) → c.Result
  /-- What the WireGuard engine complains about, if it does. -/
  fault : Option String
  /-- The loopback address of a new proxy, if its sockets can be bound. -/
  loopback : Option UDPAddr

/-! ## What each step does -/

def endpointFromProto (lib : ClientLib) (ep : Option Endpoint) : Option UDPAddr :=
  match ep with
  | none => none
  | some ep =>
    if ep.ip = "" ∨ ep.port = 0 then none
    else (lib.parseIP ep.ip).map fun ip => ⟨ip, ep.port.toNat⟩

namespace PeerVars

/-- Take over what the control plane says now. -/
def refresh (lib : ClientLib) (vars : PeerVars) (p : Peer) : PeerVars :=
  { vars with
    deviceName := p.deviceName
    deviceOS := if p.os ≠ "" then p.os else vars.deviceOS
    exitNode := p.exitNode
    remote := endpointFromProto lib p.lastKnownEndpoint <|> vars.remote }

/-- The peer is not where it was last known to be. -/
def moved (lib : ClientLib) (vars : PeerVars) (ep : UDPAddr) : Bool :=
  match vars.remote with
  | none => true
  | some old => lib.addrString old != lib.addrString ep

/-- Do not renegotiate the same peer more than once per interval. -/
def throttled (vars : PeerVars) (now : Time) (renegotiateInterval : Int) : Bool :=
  !vars.lastAttempt.isZero && decide (Time.sub now vars.lastAttempt < renegotiateInterval)

/-- `PeerSilentAfter`, 75 seconds. -/
def peerSilentAfter : Int := 75000000000

/-- Note that the receive counter has moved, if it has. -/
def received (vars : PeerVars) (rxBytes : UInt64) (now : Time) : PeerVars :=
  if rxBytes ≠ vars.lastRx then { vars with lastRx := rxBytes, lastRxMove := now } else vars

/-- Something has arrived from the peer lately. -/
def present (vars : PeerVars) (now : Time) : Bool :=
  !vars.lastRxMove.isZero && decide (Time.sub now vars.lastRxMove < peerSilentAfter)

/-- The body of `observePeerModes`' loop, from the reading of the counter on. -/
def observe (vars : PeerVars) (rxBytes : UInt64) (now : Time) : PeerVars :=
  let vars := vars.received rxBytes now
  if vars.present now ∧ vars.mode = .offline then
    { vars with mode := if vars.proxy.isSome then .relay else .direct }
  -- A peer still negotiating is left alone: it has never been heard from yet.
  else if ¬ vars.present now ∧ vars.mode ≠ .offline ∧ vars.mode ≠ .connecting then
    { vars with mode := .offline }
  else vars

end PeerVars

namespace TunnelState

def setVars (s : TunnelState) (pr : PeerRef) (vars : PeerVars) : TunnelState :=
  { s with heap := Function.update s.heap pr vars }

/-- The section of `addPeer` under `t.mu`. -/
def insertPeer (s : TunnelState) (d : UUID) (publicKey virtualIP : String) (vars : PeerVars) :
    Insertion × TunnelState :=
  match s.peers.lookup d with
  | some pr => (.existing pr, s)
  | none =>
    let pr : PeerRef := ⟨s.nextRef, d, publicKey, virtualIP⟩
    (.inserted pr, { s.setVars pr vars with
      peers := s.peers.insert d pr, nextRef := s.nextRef + 1 })

/-- The section of `removePeer` under `t.mu`. -/
def deletePeer (s : TunnelState) (d : UUID) : Option PeerRef × TunnelState :=
  match s.peers.lookup d with
  | some pr => (some pr, { s with peers := s.peers.erase d })
  | none => (none, s)

def handler (lib : ClientLib) : Handler tunnelIface TunnelState TunnelInput
  | .env c, i, s => (i.env c, s)
  | .identity, _, s => (⟨s.deviceID, s.networkID, s.preferredRegion, s.discovery⟩, s)
  | .setRegistration resp, _, s =>
    ((), { s with
      deviceID := resp.deviceId, virtualIP := resp.assignedVirtualIp, cidr := resp.networkCidr
      dnsServers := resp.dnsServers })
  | .beginStart, _, s =>
    ((s.deviceID ≠ "", s.started), if s.started then s else { s with started := true })
  | .setDiscovery d, _, s => ((), { s with discovery := d })
  | .lookupPeer d, _, s => (s.peers.lookup d, s)
  | .insertPeer d publicKey virtualIP vars, _, s => s.insertPeer d publicKey virtualIP vars
  | .deletePeer d, _, s => s.deletePeer d
  | .listPeers, i, s => ((GoMap.range i.order s.peers).map Prod.snd, s)
  | .readPeer pr, _, s => (s.heap pr, s)
  | .refreshPeer pr p, _, s => ((), s.setVars pr ((s.heap pr).refresh lib p))
  | .beginAttempt pr interval, i, s =>
    if (s.heap pr).throttled i.now interval then (false, s)
    else (true, s.setVars pr { s.heap pr with lastAttempt := i.now })
  | .clearAttempt pr, _, s => ((), s.setVars pr { s.heap pr with lastAttempt := 0 })
  | .setLocalCandidate pr addr, _, s =>
    ((), s.setVars pr { s.heap pr with localCandidate := some addr })
  | .establishDirect pr, _, s =>
    ((s.heap pr).proxy, s.setVars pr { s.heap pr with mode := .direct, proxy := none })
  | .adoptProxy pr x, _, s =>
    ((s.heap pr).proxy, s.setVars pr { s.heap pr with mode := .relay, proxy := some x })
  | .takeProxy pr, _, s => ((s.heap pr).proxy, s.setVars pr { s.heap pr with proxy := none })
  | .setMode pr mode, _, s => ((), s.setVars pr { s.heap pr with mode := mode })
  | .moveEndpoint pr ep, _, s =>
    if (s.heap pr).moved lib ep then
      ((true, (s.heap pr).mode), s.setVars pr { s.heap pr with remote := some ep })
    else ((false, (s.heap pr).mode), s)
  | .observe pr rxBytes now, _, s => ((), s.setVars pr ((s.heap pr).observe rxBytes now))
  | .takeExit, _, s =>
    (s.exit, { s with
      exit := { s.exit with deviceID := .nil, pinned := [], captured := false, locked := false } })
  | .recordExit d prior pinned, _, s =>
    ((), { s with
      exit :=
        { s.exit with deviceID := d, priorDefault := prior, pinned := pinned, captured := true } })
  | .recordLocked, _, s => ((), { s with exit := { s.exit with locked := true } })
  | .upsertPeer cfg, i, s =>
    let (r, wg) := WGDevice.upsertPeer lib.decodeKey i.fault cfg s.wg
    (r, { s with wg := wg })
  | .updateEndpoint publicKey ep, i, s =>
    let (r, wg) := WGDevice.updateEndpoint lib.decodeKey i.fault publicKey ep s.wg
    (r, { s with wg := wg })
  | .removeWGPeer publicKey, i, s =>
    let (r, wg) := WGDevice.removePeer lib.decodeKey i.fault publicKey s.wg
    (r, { s with wg := wg })
  | .newProxy d relayAddr, i, s =>
    match i.loopback with
    | none => (none, s)
    | some addr =>
      let x : ProxyRef := ⟨s.nextProxy, d, addr, relayAddr⟩
      (some x, { s with openProxies := x :: s.openProxies, nextProxy := s.nextProxy + 1 })
  | .closeProxy x, _, s => ((), { s with openProxies := s.openProxies.filter (· ≠ x) })
  | .goNegotiate _, _, s => ((), s)

end TunnelState

end NexusVPN.Client
