import NexusVPN.Client.Tunnel

/-! # Adding, removing and reaching peers

    `client/internal/tunnel/peer.go`.  `addPeer` installs a peer and starts a goroutine
    that negotiates a path to it: exchange candidates, try a hole punch, and fall back
    to a relay.  `removePeer` takes a peer out again.  Nothing tells a negotiation that
    is under way that its peer has been removed. -/

namespace NexusVPN.Client

/-- A goroutine of the tunnel. -/
abbrev TunnelM := Prog tunnelIface

/-- One section, or one call out of the tunnel. -/
abbrev ask (c : TunnelCall) : TunnelM (tunnelIface.Ans c) := Prog.ask (I := tunnelIface) c

/-- One question to the world. -/
abbrev askEnv (c : EnvCall) : TunnelM c.Result := ask (.env c)

/-- Why `addPeer` gave up. -/
inductive AddPeerError where
  | malformedDeviceID (deviceId : String)
  | noPublicKey (d : UUID)
  | noVirtualIP
  | malformedVirtualIP (virtualIP : String)
  | wireguard (e : WGError)

def keepaliveSeconds : Nat := 25

section

variable (lib : ClientLib) (cfg : TunnelConfig)

/-- `allowedIPsFor`: just the peer's single virtual address. -/
def allowedIPsFor (virtualIP : String) : Except AddPeerError (List IPRange) :=
  if virtualIP = "" then .error .noVirtualIP
  else
    match lib.parseIP virtualIP with
    | none => .error (.malformedVirtualIP virtualIP)
    | some ip =>
      match to4 ip with
      | some v4 => .ok [⟨v4, 32⟩]
      | none => .ok [⟨ip, 128⟩]

/-- The peer as `addPeer` first makes it. -/
def PeerVars.connecting (p : Proto.Peer) : PeerVars where
  deviceName := p.deviceName
  deviceOS := p.os
  exitNode := p.exitNode
  remote := endpointFromProto lib p.lastKnownEndpoint
  localCandidate := none
  mode := .connecting
  proxy := none
  lastAttempt := 0
  lastRx := 0
  lastRxMove := 0

/-- The part of `addPeer` after its checks. -/
def installPeer (d : UUID) (allowed : List IPRange) (p : Proto.Peer) :
    TunnelM (Except AddPeerError Unit) := do
  match ← ask (.insertPeer d p.publicKey p.virtualIp (.connecting lib p)) with
  | .existing pr =>
    -- Already known: refresh what we learned and let the existing negotiation continue.
    ask (.refreshPeer pr p)
    return .ok ()
  | .inserted pr =>
    let remote := endpointFromProto lib p.lastKnownEndpoint
    match ← ask (.upsertPeer ⟨pr.publicKey, remote, allowed, keepaliveSeconds⟩) with
    | .error e => return .error (.wireguard e)
    | .ok () =>
      ask (.goNegotiate pr)
      return .ok ()

def addPeer (p : Proto.Peer) : TunnelM (Except AddPeerError Unit) :=
  match lib.parseUUID p.deviceId with
  | none => return .error (.malformedDeviceID p.deviceId)
  | some d =>
    if p.publicKey = "" then return .error (.noPublicKey d)
    else
      match allowedIPsFor lib p.virtualIp with
      | .error e => return .error e
      | .ok allowed => installPeer lib d allowed p

/-- `if proxy != nil { _ = proxy.Close() }`. -/
def closeIfAny : Option ProxyRef → TunnelM Unit
  | some x => ask (.closeProxy x)
  | none => return ()

/-- `peer.close`. -/
def closePeer (pr : PeerRef) : TunnelM Unit := do
  closeIfAny (← ask (.takeProxy pr))

def removePeer (d : UUID) : TunnelM Unit := do
  match ← ask (.deletePeer d) with
  | none => return ()
  | some pr =>
    closePeer pr
    let _ ← ask (.removeWGPeer pr.publicKey)

/-! ## Negotiation -/

def endpointToProto (addr : UDPAddr) : Proto.Endpoint :=
  ⟨lib.ipString addr.ip, addr.port.toUInt32, "udp"⟩

/-- This device's own candidates. -/
def ownCandidates (discovery : DiscoveryResult) : List Proto.ICECandidate :=
  (discovery.publicEndpoint.toList.map fun addr =>
    ⟨some (endpointToProto lib addr), "srflx", 100⟩) ++
  (discovery.localEndpoint.toList.map fun addr => ⟨some (endpointToProto lib addr), "host", 200⟩)

/-- The loop over the candidates of the peer. -/
def collectCandidates (pr : PeerRef) : List Proto.ICECandidate → TunnelM (List Candidate)
  | [] => return []
  | c :: cs =>
    match endpointFromProto lib c.endpoint with
    | none => collectCandidates pr cs
    | some addr => do
      if c.type = "host" then ask (.setLocalCandidate pr addr)
      let rest ← collectCandidates pr cs
      return ⟨addr, c.type, if c.priority = 0 then 50 else c.priority⟩ :: rest

/-- `exchangeCandidates`; a failed exchange gives no candidates. -/
def exchangeCandidates (pr : PeerRef) : TunnelM (List Candidate) := do
  let self ← ask .identity
  let answer ← askEnv (.exchangeICE
    ⟨self.deviceID, pr.deviceID.string, ownCandidates lib self.discovery⟩)
  match answer with
  | none => return []
  | some resp => collectCandidates lib pr resp.peerCandidates

def tryDirect (pr : PeerRef) : TunnelM Bool := do
  let received ← exchangeCandidates lib pr
  let vars ← ask (.readPeer pr)
  -- The last known endpoint from the control plane is worth punching at in any case.
  let candidates := received ++ vars.remote.toList.map fun addr => ⟨addr, "srflx", 100⟩
  if candidates.isEmpty then return false
  else
    let stats ← askEnv (.peerStats pr.publicKey)
    let before := (stats.map (·.lastHandshake)).getD 0
    if ← askEnv (.punch before candidates) then
      -- Any relay path is now redundant.
      closeIfAny (← ask (.establishDirect pr))
      return true
    else return false

/-- `fallBackToRelay` once the proxy runs: point WireGuard at it and keep it. -/
def repointToProxy (pr : PeerRef) (x : ProxyRef) : TunnelM Unit :=
  match allowedIPsFor lib pr.virtualIP with
  | .error _ => ask (.closeProxy x)
  | .ok allowed => do
    match ← ask (.upsertPeer ⟨pr.publicKey, some x.localEndpoint, allowed, keepaliveSeconds⟩) with
    | .error _ =>
      ask (.closeProxy x)
      ask (.setMode pr .offline)
    | .ok () => closeIfAny (← ask (.adoptProxy pr x))

/-- `relayproxy.New` and `Start` for the relay that was allocated. -/
def relayThrough (pr : PeerRef) (sessionToken : String) (relayAddr : UDPAddr) : TunnelM Unit := do
  if sessionToken = "" then ask (.setMode pr .offline)
  else
    match ← ask (.newProxy pr.deviceID relayAddr) with
    | none => ask (.setMode pr .offline)
    | some x =>
      if ← askEnv (.startProxy x) then repointToProxy lib pr x
      else
        ask (.closeProxy x)
        ask (.setMode pr .offline)

def fallBackToRelay (pr : PeerRef) : TunnelM Unit := do
  let self ← ask .identity
  let allocation ← askEnv (.requestRelay ⟨self.deviceID, self.networkID, self.preferredRegion⟩)
  match allocation with
  | none => ask (.setMode pr .offline)
  | some alloc =>
    match ← askEnv (.resolve alloc.hostname alloc.relayPort) with
    | none => ask (.setMode pr .offline)
    | some relayAddr =>
      if (lib.parseUUID self.deviceID).isNone then ask (.setMode pr .offline)
      else relayThrough lib pr alloc.sessionToken relayAddr

def negotiate (pr : PeerRef) : TunnelM Unit := do
  if ← ask (.beginAttempt pr cfg.renegotiateInterval) then
    if ← tryDirect lib pr then return ()
    else if ← askEnv .ctxErr then return ()
    else fallBackToRelay lib pr
  else return ()

end

end NexusVPN.Client
