import NexusVPN.Client.Exit
import NexusVPN.Client.Lifecycle
import NexusVPN.Lib.Discipline

/-! # A walk through the programs of the tunnel

    What is proved of the goroutines of a tunnel, be it that they put away what they take in
    hand or that they leave the exit record alone, is proved along their code.  Here the walk
    is made once, for any `Discipline`. -/

namespace NexusVPN.Client

open Prog

variable {D : Discipline tunnelIface} {lib : ClientLib} {cfg : TunnelConfig}

/-! ## Exit-node mode -/

/-- The call only looks at the peers or at the host. -/
def TunnelCall.looks : TunnelCall → Bool
  | .listPeers | .readPeer _ | .env .localNetworks => true
  | _ => false

/-- Calls by which the mode is left again. -/
def TunnelCall.undoes : TunnelCall → Bool
  | .readPeer _ | .lookupPeer _ | .upsertPeer _ | .env (.unpinEndpoint _) | .env .releaseDefault
  | .env .releaseKillSwitch => true
  | _ => false

section

variable (h : ∀ c : TunnelCall, c.looks = true → D.legal c)
include h

theorem holds_readTransports (prs : List PeerRef) : D.Holds (readTransports prs) := by
  induction prs with
  | nil => exact D.ret _
  | cons pr prs ih => exact D.next (h _ rfl) fun _ => D.bind ih fun _ => D.ret _

theorem holds_transportEndpoints : D.Holds transportEndpoints :=
  D.next (h _ rfl) fun _ => D.bind (holds_readTransports h _) fun _ => D.ret _

theorem holds_transportAddrPorts : D.Holds transportAddrPorts :=
  D.next (h _ rfl) fun _ => D.bind (holds_readTransports h _) fun _ => D.ret _

theorem holds_lanFor (allowLAN : Bool) : D.Holds (lanFor allowLAN) := by
  unfold lanFor
  split
  · exact D.ask (h _ rfl)
  · exact D.ret _

end

section

variable (h : ∀ c : TunnelCall, c.undoes = true → D.legal c)
include h

theorem holds_unpinAll (ips : List Bytes) : D.Holds (unpinAll ips) := by
  induction ips with
  | nil => exact D.ret _
  | cons ip ips ih => exact D.next (h _ rfl) fun _ => ih

theorem holds_updatePeerAllowedIPs (pr : PeerRef) (allowed : List IPRange) :
    D.Holds (updatePeerAllowedIPs pr allowed) := by
  refine D.next (h _ rfl) fun vars => D.next (h _ rfl) fun r => ?_
  cases r <;> exact D.ret _

theorem holds_narrowPeer (pr : PeerRef) : D.Holds (narrowPeer lib pr) := by
  unfold narrowPeer
  split
  · exact D.ret _
  · exact holds_updatePeerAllowedIPs h pr _

theorem holds_narrowExit (state : ExitState) : D.Holds (narrowExit lib state) := by
  unfold narrowExit
  split
  · exact D.ret _
  · refine D.next (h _ rfl) fun pr => ?_
    cases pr with
    | none => exact D.ret _
    | some pr =>
      refine D.bind (holds_narrowPeer h pr) fun r => ?_
      cases r <;> exact D.ret _

theorem holds_releaseLock (state : ExitState) : D.Holds (releaseLock cfg state) := by
  unfold releaseLock
  split
  · exact D.next (h _ rfl) fun _ => D.ret _
  · exact D.ret _

theorem holds_releaseRoute (state : ExitState) : D.Holds (releaseRoute cfg state) := by
  unfold releaseRoute
  split
  · exact D.next (h _ rfl) fun _ => D.ret _
  · exact D.ret _

theorem holds_unwind (pr : PeerRef) (pinned : List Bytes) : D.Holds (unwind lib pr pinned) :=
  D.bind (holds_unpinAll h pinned) fun _ => D.bind (holds_narrowPeer h pr) fun _ => D.ret _

end

theorem holds_pinAll (prior : DefaultRoute)
    (h : ∀ ip, D.legal (.env (.pinEndpoint ip prior))) (ips pinned : List Bytes) :
    D.Holds (pinAll prior ips pinned) := by
  induction ips generalizing pinned with
  | nil => exact D.ret _
  | cons ip ips ih =>
    refine D.next (h ip) fun ok => ?_
    split
    · exact ih _
    · exact D.ret _

/-! ## Negotiating, following and monitoring -/

/-- The command changes routes or the kill switch. -/
def EnvCall.steers : EnvCall → Bool
  | .pinEndpoint .. | .unpinEndpoint _ | .captureDefault | .releaseDefault | .engageKillSwitch ..
  | .releaseKillSwitch => true
  | _ => false

/-- Calls that concern neither the list of peers, nor proxies, nor the exit record, nor what
    WireGuard sends to whom. -/
def TunnelCall.routine : TunnelCall → Bool
  | .env c => !c.steers
  | .identity | .setRegistration _ | .beginStart | .setDiscovery _ | .lookupPeer _ | .listPeers
  | .readPeer _ | .refreshPeer .. | .beginAttempt .. | .clearAttempt _ | .setLocalCandidate ..
  | .setMode .. | .moveEndpoint .. | .observe .. => true
  | _ => false

/-- The control plane gives no other address for the peer. -/
def At (lib : ClientLib) (Fits : UDPAddr → Prop) (p : Proto.Peer) : Prop :=
  ∀ a ∈ endpointFromProto lib p.lastKnownEndpoint, Fits a

/-- Routine calls are in order, and so are the sections that make others.  `Knows` is what can
    be said of a peer that is listed, and `Fits` of an address that comes in. -/
structure Manners (lib : ClientLib) (Knows : PeerRef → Prop) (Fits : UDPAddr → Prop)
    (D : Discipline tunnelIface) : Prop where
  routine : ∀ c : TunnelCall, c.routine = true → D.legal c
  found : ∀ d pr, D.may (.lookupPeer d) (some pr) → Knows pr
  listed : ∀ prs : List PeerRef, D.may .listPeers prs → ∀ pr ∈ prs, Knows pr
  goNegotiate : ∀ pr, Knows pr → D.legal (.goNegotiate pr)
  updateEndpoint : ∀ key ep, Fits ep → D.legal (.updateEndpoint key ep)
  resolved : ∀ host port a, D.may (.env (.resolve host port)) (some a) → Fits a
  installPeer : ∀ d allowed p, allowedIPsFor lib p.virtualIp = .ok allowed → At lib Fits p →
    D.Holds (installPeer lib d allowed p)
  removePeer : ∀ d, D.Holds (removePeer d)
  establishDirect : ∀ pr, D.Holds (ask (.establishDirect pr) >>= closeIfAny)
  relayThrough : ∀ pr token relayAddr, Knows pr → Fits relayAddr →
    D.Holds (relayThrough lib pr token relayAddr)

namespace Manners

variable {Knows : PeerRef → Prop} {Fits : UDPAddr → Prop} (m : Manners lib Knows Fits D)
include m

theorem addPeer {p : Proto.Peer} (hp : At lib Fits p) : D.Holds (addPeer lib p) := by
  unfold Client.addPeer
  split
  · exact D.ret _
  · split
    · exact D.ret _
    · split
      · exact D.ret _
      · next hallow => exact m.installPeer _ _ p hallow hp

theorem addPeers {ps : List Proto.Peer} (hps : ∀ p ∈ ps, At lib Fits p) :
    D.Holds (addPeers lib ps) := by
  induction ps with
  | nil => exact D.ret _
  | cons p ps ih =>
    have hrest := ih fun p' hp' => hps p' (List.mem_cons_of_mem _ hp')
    exact D.bind (m.addPeer (hps p List.mem_cons_self)) fun _ => hrest

theorem collectCandidates (pr : PeerRef) (cs : List Proto.ICECandidate) :
    D.Holds (collectCandidates lib pr cs) := by
  induction cs with
  | nil => exact D.ret _
  | cons c cs ih =>
    unfold Client.collectCandidates
    split
    · exact ih
    · dsimp only
      split
      · exact D.next (m.routine _ rfl) fun _ => D.bind ih fun _ => D.ret _
      · exact D.bind ih fun _ => D.ret _

theorem tryDirect (pr : PeerRef) : D.Holds (tryDirect lib pr) := by
  have hexch : D.Holds (exchangeCandidates lib pr) := by
    refine D.next (m.routine _ rfl) fun _ => D.next (m.routine _ rfl) fun answer => ?_
    cases answer with
    | none => exact D.ret _
    | some resp => exact m.collectCandidates pr _
  refine D.bind hexch fun received => D.next (m.routine _ rfl) fun vars => ?_
  dsimp only
  split
  · exact D.ret _
  · refine D.next (m.routine _ rfl) fun _ => D.next (m.routine _ rfl) fun punched => ?_
    cases punched with
    | false => exact D.ret _
    | true =>
      have hdirect : D.Holds ((ask (.establishDirect pr) >>= closeIfAny) >>= fun _ => pure true) :=
        D.bind (m.establishDirect pr) fun _ => D.ret true
      exact hdirect

variable {pr : PeerRef}

theorem fallBackToRelay (hpr : Knows pr) : D.Holds (fallBackToRelay lib pr) := by
  have hoff : D.Holds (ask (.setMode pr .offline)) := D.ask (m.routine _ rfl)
  refine D.next (m.routine _ rfl) fun self => D.next (m.routine _ rfl) fun allocation => ?_
  cases allocation with
  | none => exact hoff
  | some alloc =>
    refine D.after (m.routine _ rfl) fun relayAddr hres => ?_
    cases relayAddr with
    | none => exact hoff
    | some relayAddr =>
      dsimp only
      split
      · exact hoff
      · exact m.relayThrough pr _ _ hpr (m.resolved _ _ _ hres)

theorem negotiate (hpr : Knows pr) : D.Holds (negotiate lib cfg pr) := by
  refine D.next (m.routine _ rfl) fun go => ?_
  split
  · refine D.bind (m.tryDirect pr) fun direct => ?_
    split
    · exact D.ret _
    · refine D.next (m.routine _ rfl) fun cancelled => ?_
      split
      · exact D.ret _
      · exact m.fallBackToRelay hpr
  · exact D.ret _

theorem handleEndpointChange (d : UUID) {p : Proto.Peer} (hp : At lib Fits p) :
    D.Holds (handleEndpointChange lib d p) := by
  refine D.after (m.routine _ rfl) fun pr hpr => ?_
  cases pr with
  | none => exact D.bind (m.addPeer hp) fun _ => D.ret _
  | some pr =>
    have hgo : D.Holds (ask (.goNegotiate pr)) := D.ask (m.goNegotiate pr (m.found d pr hpr))
    dsimp only
    split
    · exact D.ret _
    · next ep hep =>
      refine D.next (m.routine _ rfl) fun r => ?_
      split
      · exact D.ret _
      · split
        · exact hgo
        · refine D.next (m.updateEndpoint _ ep (hp ep hep)) fun r => ?_
          cases r with
          | error e => exact hgo
          | ok u => exact D.ret _

theorem applyPeerUpdate {update : Proto.PeerUpdate} (hup : ∀ p ∈ update.peer, At lib Fits p) :
    D.Holds (applyPeerUpdate lib update) := by
  unfold Client.applyPeerUpdate
  split
  · exact D.ret _
  · next p hpeer =>
    have hp := hup p hpeer
    split
    · exact D.ret _
    · refine D.next (m.routine _ rfl) fun self => ?_
      split
      · exact D.ret _
      · split
        · exact m.removePeer _
        · exact m.handleEndpointChange _ hp
        · exact m.handleEndpointChange _ hp
        · exact D.bind (m.addPeer hp) fun _ => D.ret _
        · exact D.bind (m.addPeer hp) fun _ => D.ret _

theorem observePeerModes : D.Holds observePeerModes := by
  have hall : ∀ now prs, D.Holds (observeAll now prs) := by
    intro now prs
    induction prs with
    | nil => exact D.ret _
    | cons pr prs ih =>
      refine D.next (m.routine _ rfl) fun stats => ?_
      cases stats with
      | none => exact ih
      | some stats => exact D.next (m.routine _ rfl) fun _ => ih
  exact D.next (m.routine _ rfl) fun _ => D.next (m.routine _ rfl) fun _ => hall _ _

theorem probeForDirectPath (hpr : Knows pr) : D.Holds (probeForDirectPath cfg pr) := by
  have hping : ∀ addrs, D.Holds (pingAll addrs) := by
    intro addrs
    induction addrs with
    | nil => exact D.ret _
    | cons addr addrs ih => exact D.next (m.routine _ rfl) fun _ => ih
  unfold Client.probeForDirectPath
  split
  · exact D.ret _
  · refine D.next (m.routine _ rfl) fun _ => D.next (m.routine _ rfl) fun _ => ?_
    split
    · exact D.next (m.routine _ rfl) fun _ => D.ask (m.goNegotiate pr hpr)
    · exact D.next (m.routine _ rfl) fun _ => hping _

theorem checkPeer (hpr : Knows pr) (stats : PeerStats) : D.Holds (checkPeer cfg pr stats) := by
  refine D.next (m.routine _ rfl) fun now => ?_
  split
  · refine D.next (m.routine _ rfl) fun vars => ?_
    split
    · exact m.probeForDirectPath hpr
    · exact D.ret _
  · refine D.next (m.routine _ rfl) fun vars => D.next (m.routine _ rfl) fun now' => ?_
    split
    · exact D.ret _
    · exact D.ask (m.goNegotiate pr hpr)

theorem checkPeerHealth : D.Holds (checkPeerHealth cfg) := by
  refine D.after (m.routine _ rfl) fun prs hprs => ?_
  replace hprs := m.listed prs hprs
  induction prs with
  | nil => exact D.ret _
  | cons pr prs ih =>
    have hrest := ih fun pr' hpr' => hprs pr' (List.mem_cons_of_mem _ hpr')
    refine D.next (m.routine _ rfl) fun stats => ?_
    cases stats with
    | none => exact hrest
    | some stats => exact D.bind (m.checkPeer (hprs pr List.mem_cons_self) stats) fun _ => hrest

theorem start (hall : ∀ a, Fits a) : D.Holds (start lib cfg) := by
  have hdiscovery : D.Holds (runDiscovery cfg) := by
    unfold runDiscovery
    split
    · refine D.next (m.routine _ rfl) fun result => ?_
      cases result with
      | none => exact D.ret _
      | some result => exact D.ask (m.routine _ rfl)
    · exact D.ret _
  have hup : ∀ ps, D.Holds (bringUp lib cfg ps) := fun ps =>
    D.bind hdiscovery fun _ => D.bind (m.addPeers fun _ _ a _ => hall a) fun _ => D.ret _
  have hregister : D.Holds register := by
    refine D.next (m.routine _ rfl) fun resp => ?_
    cases resp with
    | none => exact D.ret _
    | some resp => exact D.next (m.routine _ rfl) fun _ => D.ret _
  refine D.next (m.routine _ rfl) fun r => ?_
  dsimp only
  split
  · exact D.ret _
  · split
    · exact hup []
    · refine D.bind hregister fun r => ?_
      cases r with
      | error e => exact D.ret _
      | ok resp => exact hup _

end Manners

end NexusVPN.Client
