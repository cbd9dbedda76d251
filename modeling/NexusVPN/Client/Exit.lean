import NexusVPN.Client.Peer

/-! # Exit-node mode

    `client/internal/tunnel/exit.go`: send all of the machine's traffic through one
    peer, and undo that again.  Turning the mode on widens the peer's allowed IPs,
    pins every transport endpoint around the tunnel and captures the default route;
    if a step fails the ones before it are undone. -/

namespace NexusVPN.Client

structure ExitNodeOptions where
  killSwitch : Bool
  allowLAN : Bool

/-- Why `SetExitNode` or `ClearExitNode` gave up. -/
inductive ExitError where
  | noRouter
  | notAPeer (d : UUID)
  | noDefaultRoute
  | virtualIP (e : AddPeerError)
  | allowedIPs (e : WGError)
  | pin (ip : Bytes)
  | capture
  | noKillSwitch
  | localNetworks
  | engage
  | releaseKillSwitch
  | releaseDefault

/-- `exitAllowedIPs`: the whole address space, in both families. -/
def exitAllowedIPs : List IPRange := [⟨List.replicate 4 0, 0⟩, ⟨List.replicate 16 0, 0⟩]

section

variable (lib : ClientLib) (cfg : TunnelConfig)

/-! ## The peer that carries the default route -/

/-- Where WireGuard should send to: the proxy while the peer is relayed. -/
def PeerVars.wgEndpoint (vars : PeerVars) : Option UDPAddr :=
  match vars.proxy with
  | some x => some x.localEndpoint
  | none => vars.remote

def updatePeerAllowedIPs (pr : PeerRef) (allowed : List IPRange) :
    TunnelM (Except ExitError Unit) :=
  do
  let vars ← ask (.readPeer pr)
  match ← ask (.upsertPeer ⟨pr.publicKey, vars.wgEndpoint, allowed, keepaliveSeconds⟩) with
  | .error e => return .error (.allowedIPs e)
  | .ok () => return .ok ()

def widenPeer (pr : PeerRef) : TunnelM (Except ExitError Unit) :=
  updatePeerAllowedIPs pr exitAllowedIPs

def narrowPeer (pr : PeerRef) : TunnelM (Except ExitError Unit) :=
  match allowedIPsFor lib pr.virtualIP with
  | .error e => return .error (.virtualIP e)
  | .ok allowed => updatePeerAllowedIPs pr allowed

/-! ## Transport endpoints -/

/-- Where packets for the peer really go: the relay while it is relayed. -/
def PeerVars.transport (vars : PeerVars) : Option UDPAddr :=
  match vars.proxy with
  | some x => some x.relayAddr
  | none => vars.remote

/-- The transports of all peers that leave this host. -/
def readTransports : List PeerRef → TunnelM (List UDPAddr)
  | [] => return []
  | pr :: prs => do
    let vars ← ask (.readPeer pr)
    let rest ← readTransports prs
    return vars.transport.toList.filter (fun a => !a.ip.isEmpty && !isLoopback a.ip) ++ rest

/-- Keep the first of those that look the same. -/
def firstOfEach {α : Type} (same : α → α → Bool) (xs : List α) : List α :=
  xs.foldl (fun out x => if out.any (same x) then out else out ++ [x]) []

def transportEndpoints : TunnelM (List Bytes) := do
  let transports ← readTransports (← ask .listPeers)
  return firstOfEach (fun a b => unmap a == unmap b) (transports.map (·.ip))

def transportAddrPorts : TunnelM (List UDPAddr) := do
  let transports ← readTransports (← ask .listPeers)
  return firstOfEach (· == ·) (transports.filterMap addrPort)

/-! ## Routes and the kill switch -/

def unpinAll : List Bytes → TunnelM Unit
  | [] => return ()
  | ip :: ips => do
    let _ ← askEnv (.unpinEndpoint ip)
    unpinAll ips

/-- The loop that pins, up to the first address that cannot be pinned. -/
def pinAll (prior : DefaultRoute) : List Bytes → List Bytes → TunnelM (Option Bytes × List Bytes)
  | [], pinned => return (none, pinned)
  | ip :: ips, pinned => do
    if ← askEnv (.pinEndpoint ip prior) then pinAll prior ips (pinned ++ [ip])
    else return (some ip, pinned)

/-- The local networks that the policy leaves alone. -/
def lanFor (allowLAN : Bool) : TunnelM (Option (List IPRange)) :=
  if allowLAN then askEnv .localNetworks else return some []

def engageKillSwitch (allowLAN : Bool) : TunnelM (Except ExitError Unit) := do
  if !cfg.killSwitch then return .error .noKillSwitch
  else
    let endpoints ← transportAddrPorts
    match ← lanFor allowLAN with
    | none => return .error .localNetworks
    | some lan =>
      if ← askEnv (.engageKillSwitch endpoints lan allowLAN) then
        ask .recordLocked
        return .ok ()
      else return .error .engage

/-- The error of a step whose answer says whether it succeeded. -/
def failed (ok : Bool) (e : ExitError) : Option ExitError := if ok then none else some e

/-- `note(t.killSwitch.Release())`, if it is engaged. -/
def releaseLock (state : ExitState) : TunnelM (Option ExitError) := do
  if state.locked && cfg.killSwitch then
    return failed (← askEnv .releaseKillSwitch) .releaseKillSwitch
  else return none

/-- `note(t.router.ReleaseDefault(t.dev.Name()))`, if it is captured. -/
def releaseRoute (state : ExitState) : TunnelM (Option ExitError) := do
  if state.captured && cfg.router then
    return failed (← askEnv .releaseDefault) .releaseDefault
  else return none

/-- `note(t.narrowPeer(pr))`, if the peer is still there. -/
def narrowExit (state : ExitState) : TunnelM (Option ExitError) := do
  if state.deviceID = .nil then return none
  else
    match ← ask (.lookupPeer state.deviceID) with
    | none => return none
    | some pr =>
      match ← narrowPeer lib pr with
      | .error e => return some e
      | .ok () => return none

/-- `ClearExitNode`: every step is attempted, and the first error is reported. -/
def clearExitNode : TunnelM (Option ExitError) := do
  let state ← ask .takeExit
  if state.deviceID = .nil ∧ ¬ state.captured ∧ ¬ state.locked then return none
  else
    let e₁ ← releaseLock cfg state
    let e₂ ← releaseRoute cfg state
    if cfg.router then unpinAll state.pinned
    let e₃ ← narrowExit lib state
    return e₁ <|> e₂ <|> e₃

/-- Undo what `SetExitNode` has done so far. -/
def unwind (pr : PeerRef) (pinned : List Bytes) : TunnelM Unit := do
  unpinAll pinned
  let _ ← narrowPeer lib pr

/-- `SetExitNode` once the peer has been widened. -/
def captureThrough (pr : PeerRef) (prior : DefaultRoute) (d : UUID) (opts : ExitNodeOptions) :
    TunnelM (Except ExitError Unit) := do
  match ← pinAll prior (← transportEndpoints) [] with
  | (some ip, pinned) =>
    unwind lib pr pinned
    return .error (.pin ip)
  | (none, pinned) =>
    if ← askEnv .captureDefault then
      ask (.recordExit d prior pinned)
      if opts.killSwitch then engageKillSwitch cfg opts.allowLAN
      else return .ok ()
    else
      unwind lib pr pinned
      return .error .capture

def setExitNode (d : UUID) (opts : ExitNodeOptions) : TunnelM (Except ExitError Unit) := do
  if !cfg.router then return .error .noRouter
  else
    match ← ask (.lookupPeer d) with
    | none => return .error (.notAPeer d)
    | some pr =>
      match ← clearExitNode lib cfg with
      | some e => return .error e
      | none =>
        match ← askEnv .snapshotRoutes with
        | none => return .error .noDefaultRoute
        | some prior =>
          match ← widenPeer pr with
          | .error e => return .error e
          | .ok () => captureThrough lib cfg pr prior d opts

end

end NexusVPN.Client
