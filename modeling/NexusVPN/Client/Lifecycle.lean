import NexusVPN.Client.Peer

/-! # Registering, starting, and following the network

    `client/internal/tunnel/tunnel.go`: `Register`, `Start` up to the point where its
    three loops begin, what the update loop does with an update, and what the monitor
    loop does in one round. -/

namespace NexusVPN.Client

/-- Why `Register` or `Start` gave up. -/
inductive StartError where
  | registerDevice
  | alreadyStarted

section

variable (lib : ClientLib) (cfg : TunnelConfig)

/-! ## Starting -/

/-- `New`, on a device that may have peers already. -/
def TunnelState.new (networkID preferredRegion : String) (wg : WGDevice) : TunnelState where
  deviceID := ""
  networkID := networkID
  virtualIP := ""
  cidr := ""
  dnsServers := []
  preferredRegion := preferredRegion
  started := false
  discovery := ⟨none, none⟩
  peers := ∅
  heap := fun _ => ⟨"", "", false, none, none, .connecting, none, 0, 0, 0⟩
  nextRef := 0
  exit := ⟨.nil, ⟨none, ""⟩, [], false, false⟩
  wg := wg
  openProxies := []
  nextProxy := 0

/-- `for _, p := range peers { t.addPeer(ctx, p) }`; an error is only logged. -/
def addPeers : List Proto.Peer → TunnelM Unit
  | [] => return ()
  | p :: ps => do
    let _ ← addPeer lib p
    addPeers ps

def register : TunnelM (Except StartError Proto.RegisterDeviceResponse) := do
  match ← askEnv .registerDevice with
  | none => return .error .registerDevice
  | some resp =>
    ask (.setRegistration resp)
    return .ok resp

def useCachedRegistration (resp : Proto.RegisterDeviceResponse) : TunnelM Unit := do
  ask (.setRegistration resp)
  addPeers lib resp.existingPeers

def runDiscovery : TunnelM Unit := do
  if cfg.discoverer then
    match ← askEnv .discover with
    | none => return ()
    | some result => ask (.setDiscovery result)
  else return ()

/-- Discover this device's endpoint, then install the peers. -/
def bringUp (existingPeers : List Proto.Peer) : TunnelM (Except StartError Unit) := do
  runDiscovery cfg
  addPeers lib existingPeers
  return .ok ()

/-- `Start`, up to its three loops. -/
def start : TunnelM (Except StartError Unit) := do
  let (alreadyRegistered, started) ← ask .beginStart
  if started then return .error .alreadyStarted
  else if alreadyRegistered then bringUp lib cfg []
  else
    match ← register with
    | .error e => return .error e
    | .ok resp => bringUp lib cfg resp.existingPeers

/-- What the agent does: `Register`, then `Start`. -/
def registerThenStart : TunnelM (Except StartError Unit) := do
  match ← register with
  | .error e => return .error e
  | .ok _ => start lib cfg

/-! ## Updates -/

/-- `go t.negotiate(ctx, pr)` unless the device could be told where the peer is now. -/
def followEndpoint (pr : PeerRef) (ep : UDPAddr) : TunnelM Unit := do
  match ← ask (.updateEndpoint pr.publicKey ep) with
  | .error _ => ask (.goNegotiate pr)
  | .ok () => return ()

def handleEndpointChange (d : UUID) (p : Proto.Peer) : TunnelM Unit := do
  match ← ask (.lookupPeer d) with
  | none =>
    let _ ← addPeer lib p
  | some pr =>
    match endpointFromProto lib p.lastKnownEndpoint with
    | none => return ()
    | some ep =>
      let (moved, mode) ← ask (.moveEndpoint pr ep)
      if !moved then return ()
      -- A peer that moved is worth re-punching: it may now be directly reachable.
      else if mode ≠ .direct then ask (.goNegotiate pr)
      else followEndpoint pr ep

def applyPeerUpdate (update : Proto.PeerUpdate) : TunnelM Unit :=
  match update.peer with
  | none => return ()
  | some p =>
    match lib.parseUUID p.deviceId with
    | none => return ()
    | some d => do
      let self ← ask .identity
      -- Never treat ourselves as a peer.
      if p.deviceId = self.deviceID then return ()
      else
        match update.type with
        | .left => removePeer d
        | .endpointChanged | .statusChanged => handleEndpointChange lib d p
        | .joined | .unspecified =>
          let _ ← addPeer lib p

/-! ## Monitoring -/

/-- `HandshakeStaleAfter`, three minutes. -/
def handshakeStaleAfter : Int := 180000000000

/-- The loop of `observePeerModes`, at `now`. -/
def observeAll (now : Time) : List PeerRef → TunnelM Unit
  | [] => return ()
  | pr :: prs => do
    match ← askEnv (.peerStats pr.publicKey) with
    | none => observeAll now prs
    | some stats =>
      ask (.observe pr stats.rxBytes now)
      observeAll now prs

def observePeerModes : TunnelM Unit := do
  let peers ← ask .listPeers
  observeAll (← askEnv .now) peers

/-- Send a probe to each of the addresses. -/
def pingAll : List UDPAddr → TunnelM Unit
  | [] => return ()
  | addr :: addrs => do
    let _ ← askEnv (.ping addr)
    pingAll addrs

/-- A reply at `replied` means that a direct path is available now. -/
def recentReply (replied : Option Time) (now : Time) : Bool :=
  replied.any fun t => decide (Time.sub now t < cfg.monitorInterval * 2)

def probeForDirectPath (pr : PeerRef) : TunnelM Unit := do
  if !cfg.paths then return ()
  else
    let replied ← askEnv (.pathResult pr.deviceID)
    if recentReply cfg replied (← askEnv .now) then
      -- Clear the throttle so the upgrade isn't deferred.
      ask (.clearAttempt pr)
      ask (.goNegotiate pr)
    else
      let vars ← ask (.readPeer pr)
      pingAll ((vars.remote.toList ++ vars.localCandidate.toList).filterMap addrPort)

/-- A handshake at `last` still counts. -/
def fresh (last now : Time) : Bool :=
  !last.isZero && decide (Time.sub now last < handshakeStaleAfter)

/-- The body of `checkPeerHealth`'s loop, for a peer the device knows. -/
def checkPeer (pr : PeerRef) (stats : PeerStats) : TunnelM Unit := do
  if fresh stats.lastHandshake (← askEnv .now) then
    let vars ← ask (.readPeer pr)
    -- A relayed path works, but keep probing for a direct one.
    if vars.mode = .relay then probeForDirectPath cfg pr
    else return ()
  else
    let vars ← ask (.readPeer pr)
    if Time.sub (← askEnv .now) vars.lastAttempt < cfg.renegotiateInterval then return ()
    else ask (.goNegotiate pr)

/-- The loop of `checkPeerHealth`. -/
def checkAll : List PeerRef → TunnelM Unit
  | [] => return ()
  | pr :: prs => do
    match ← askEnv (.peerStats pr.publicKey) with
    | none => checkAll prs
    | some stats =>
      checkPeer cfg pr stats
      checkAll prs

def checkPeerHealth : TunnelM Unit := do
  checkAll cfg (← ask .listPeers)

end

end NexusVPN.Client
