import NexusVPN.Client.Bookkeeping
import NexusVPN.Client.Programs

/-! # The goroutines of the tunnel

    Any number of goroutines run in a `Pool`, one section or device call at a time.  Each of
    them is honest: what it takes in hand, be it a proxy that it opened or took from a peer or
    a peer that it took off the list, it puts away again, whatever the network, the device and
    the other goroutines do meanwhile. -/

namespace NexusVPN.Client

open List Prog Discipline Honest

/-! ## Goroutines -/

/-- What a goroutine was started for. -/
inductive Task where
  | addPeer (p : Proto.Peer)
  | removePeer (d : UUID)
  | negotiate (pr : PeerRef)
  | handleEndpointChange (d : UUID) (p : Proto.Peer)
  | applyPeerUpdate (update : Proto.PeerUpdate)
  | setExitNode (d : UUID) (opts : ExitNodeOptions)
  | clearExitNode
  | checkPeerHealth
  | observePeerModes
  | useCachedRegistration (resp : Proto.RegisterDeviceResponse)
  | start

def Task.body (lib : ClientLib) (cfg : TunnelConfig) : Task → TunnelM Unit
  | .addPeer p => do let _ ← Client.addPeer lib p
  | .removePeer d => Client.removePeer d
  | .negotiate pr => Client.negotiate lib cfg pr
  | .handleEndpointChange d p => Client.handleEndpointChange lib d p
  | .applyPeerUpdate update => Client.applyPeerUpdate lib update
  | .setExitNode d opts => do let _ ← Client.setExitNode lib cfg d opts
  | .clearExitNode => do let _ ← Client.clearExitNode lib cfg
  | .checkPeerHealth => Client.checkPeerHealth cfg
  | .observePeerModes => Client.observePeerModes
  | .useCachedRegistration resp => Client.useCachedRegistration lib resp
  | .start => do let _ ← Client.start lib cfg

/-- `go t.negotiate(ctx, pr)`. -/
def Task.fork : TunnelCall → Option Task
  | .goNegotiate pr => some (.negotiate pr)
  | _ => none

abbrev TunnelPool := Pool tunnelIface TunnelState Task Unit

abbrev TaskStep := Pool.Action Task TunnelInput

def tunnelStep (lib : ClientLib) (cfg : TunnelConfig) :
    TunnelPool → TaskStep → Option TunnelPool :=
  Pool.step (TunnelState.handler lib) (Task.body lib cfg) Task.fork

/-- A tunnel as `New` makes it, on an interface without peers. -/
def newTunnel (networkID region : String) : TunnelPool := ⟨.new networkID region ∅, []⟩

/-! ## They are honest -/

/-- The call can leave its caller with something to put away, or asks something of its
    caller. -/
def TunnelCall.burdens : TunnelCall → Bool
  | .insertPeer .. | .deletePeer _ | .newProxy .. | .establishDirect _ | .adoptProxy ..
  | .takeProxy _ => true
  | _ => false

variable {c : TunnelCall}

theorem legal_of_plain (h : c.burdens = false) : (honest ledger).legal c := by
  cases c with
  | insertPeer | deletePeer | newProxy | establishDirect | adoptProxy | takeProxy => cases h
  | _ => exact ⟨trivial, fun _ => rfl⟩

theorem honest_plain (h : c.burdens = false) : (ask c).Honest ledger :=
  (honest ledger).ask (legal_of_plain h)

theorem honest_then {α : Type} {f : tunnelIface.Ans c → TunnelM α} (h : c.burdens = false)
    (hf : ∀ a, (f a).Honest ledger) : (ask c >>= f).Honest ledger :=
  (honest_plain h).bind hf

section

variable (lib : ClientLib) (cfg : TunnelConfig)

theorem honest_installPeer (d : UUID) (allowed : List IPRange) (p : Proto.Peer) :
    (installPeer lib d allowed p).Honest ledger := by
  apply Honest.bind (honest_ask rfl fun _ => rfl)
  intro r
  cases r with
  | existing pr => exact honest_then rfl fun _ => trivial
  | inserted pr =>
    apply honest_then rfl
    intro r
    cases r with
    | error e => trivial
    | ok u => exact honest_then rfl fun _ => trivial

theorem honest_closeTaken (hfine : ledger.fine c) (take : tunnelIface.Ans c → Option ProxyRef)
    (htake : ∀ a, Debt.incurred c a = (take a).toList.map .close) :
    (ask c >>= fun a => closeIfAny (take a)).Honest ledger := by
  refine ⟨hfine, ?_⟩
  intro a _
  show (closeIfAny (take a)).Honest ledger ∧
    ∀ x ∈ Debt.incurred c a, (closeIfAny (take a)).Owes ledger x
  rw [htake a]
  cases take a with
  | none => exact ⟨trivial, by simp⟩
  | some x =>
    refine ⟨honest_plain rfl, ?_⟩
    intro y hy
    rw [mem_singleton.mp hy]
    exact .inl (mem_singleton_self _)

theorem honest_closePeer (pr : PeerRef) : (closePeer pr).Honest ledger :=
  honest_closeTaken (c := .takeProxy pr) trivial id fun a => by cases a <;> rfl

theorem honest_removePeer (d : UUID) : (removePeer d).Honest ledger := by
  refine ⟨trivial, ?_⟩
  intro a _
  cases a with
  | none =>
    refine ⟨trivial, ?_⟩
    intro x hx
    cases hx
  | some pr =>
    have hdrop : (ask (.removeWGPeer pr.publicKey) >>= fun _ => (pure () : TunnelM Unit)).Honest
        ledger := honest_then rfl fun _ => trivial
    show (closePeer pr >>= fun _ => _).Honest ledger ∧
      ∀ x ∈ _, (closePeer pr >>= fun _ => ask (.removeWGPeer pr.publicKey) >>= _).Owes ledger x
    refine ⟨(honest_closePeer pr).bind fun _ => hdrop, ?_⟩
    intro x hx
    -- It closes what the peer holds first, and then drops the entry.
    rcases mem_cons.mp hx with rfl | hx
    · have hfirst : (closePeer pr).Owes ledger (.empty pr) := .inl (mem_singleton_self _)
      exact hfirst.bind _
    · rw [mem_singleton.mp hx]
      apply Owes.bind_right
      intro _
      exact .inl (mem_singleton_self _)

theorem repointToProxy_pays (pr : PeerRef) (x : ProxyRef) (hx : x.peerDeviceID = pr.deviceID) :
    (repointToProxy lib pr x).Honest ledger ∧ (repointToProxy lib pr x).Owes ledger (.close x) := by
  unfold repointToProxy
  split
  · exact ⟨honest_plain rfl, .inl (mem_singleton_self _)⟩
  · constructor
    · -- A refused entry closes the proxy; otherwise the one it displaces is closed.
      apply honest_then rfl
      intro r
      cases r with
      | error e => exact honest_then rfl fun _ => honest_plain rfl
      | ok u => exact honest_closeTaken (c := .adoptProxy pr x) hx id fun a => by cases a <;> rfl
    · apply Or.inr
      intro r
      cases r with
      | error | ok => exact .inl (mem_singleton_self _)

theorem honest_relayThrough (pr : PeerRef) (token : String) (relayAddr : UDPAddr) :
    (relayThrough lib pr token relayAddr).Honest ledger := by
  unfold relayThrough
  split
  · exact honest_plain rfl
  · refine ⟨trivial, ?_⟩
    intro a ha
    cases a with
    | none =>
      refine ⟨honest_plain rfl, ?_⟩
      intro x hx
      cases hx
    | some x =>
      obtain ⟨hhon, howes⟩ := repointToProxy_pays lib pr x ha
      constructor
      · apply honest_then rfl
        intro started
        split
        · exact hhon
        · exact honest_then rfl fun _ => honest_plain rfl
      · -- Whether or not it starts, the proxy is put away.
        intro y hy
        rw [mem_singleton.mp hy]
        apply Or.inr
        intro started
        cases started with
        | true => exact howes
        | false => exact .inl (mem_singleton_self _)

/-! ### What the rest of the programs do is routine -/

theorem manners_honest : Manners lib (fun _ => True) (fun _ => True) (honest ledger) where
  routine c hc := legal_of_plain (by cases c <;> first | rfl | cases hc)
  found _ _ _ := trivial
  listed _ _ _ _ := trivial
  goNegotiate _ _ := legal_of_plain rfl
  updateEndpoint _ _ _ := legal_of_plain rfl
  resolved _ _ _ _ := trivial
  installPeer d allowed p _ _ := honest_installPeer lib d allowed p
  removePeer := honest_removePeer
  establishDirect pr :=
    honest_closeTaken (c := .establishDirect pr) trivial id fun a => by cases a <;> rfl
  relayThrough pr token relayAddr _ _ := honest_relayThrough lib pr token relayAddr

theorem plain_of_looks (hc : c.looks = true) : c.burdens = false := by
  cases c <;> first | rfl | cases hc

theorem plain_of_undoes (hc : c.undoes = true) : c.burdens = false := by
  cases c <;> first | rfl | cases hc

theorem honest_engageKillSwitch (allowLAN : Bool) :
    (engageKillSwitch cfg allowLAN).Honest ledger := by
  have hlooks : ∀ c : TunnelCall, c.looks = true → (honest ledger).legal c :=
    fun c hc => legal_of_plain (plain_of_looks hc)
  unfold engageKillSwitch
  split
  · trivial
  · apply bind (holds_transportAddrPorts hlooks)
    intro endpoints
    apply bind (holds_lanFor hlooks allowLAN)
    intro lan
    cases lan with
    | none => trivial
    | some lan =>
      apply honest_then rfl
      intro ok
      split
      · exact honest_then rfl fun _ => trivial
      · trivial

section

variable (hundo : ∀ c : TunnelCall, c.undoes = true → (honest ledger).legal c)
include hundo

theorem honest_clearExitNode : (clearExitNode lib cfg).Honest ledger := by
  apply honest_then rfl
  intro state
  split
  · trivial
  · apply bind (holds_releaseLock hundo state)
    intro e₁
    apply bind (holds_releaseRoute hundo state)
    intro e₂
    have hend : (narrowExit lib state).Honest ledger := holds_narrowExit hundo state
    split
    · exact bind (holds_unpinAll hundo _) fun _ => bind hend fun _ => trivial
    · exact bind hend fun _ => trivial

theorem honest_captureThrough (pr : PeerRef) (prior : DefaultRoute) (d : UUID)
    (opts : ExitNodeOptions) : (captureThrough lib cfg pr prior d opts).Honest ledger := by
  have hunwind : ∀ pinned, (unwind lib pr pinned).Honest ledger := holds_unwind hundo pr
  apply bind (holds_transportEndpoints fun c hc => legal_of_plain (plain_of_looks hc))
  intro endpoints
  apply bind (holds_pinAll prior (fun _ => legal_of_plain rfl) endpoints [])
  rintro ⟨refused, pinned⟩
  cases refused with
  | some ip => exact (hunwind pinned).bind fun _ => trivial
  | none =>
    apply honest_then rfl
    intro ok
    split
    · apply honest_then rfl
      intro _
      split
      · exact honest_engageKillSwitch cfg _
      · trivial
    · exact (hunwind pinned).bind fun _ => trivial

theorem honest_setExitNode (d : UUID) (opts : ExitNodeOptions) :
    (setExitNode lib cfg d opts).Honest ledger := by
  unfold setExitNode
  split
  · trivial
  · apply honest_then rfl
    intro pr
    cases pr with
    | none => trivial
    | some pr =>
      apply bind (honest_clearExitNode lib cfg hundo)
      intro e
      cases e with
      | some e => trivial
      | none =>
        apply honest_then rfl
        intro prior
        cases prior with
        | none => trivial
        | some prior =>
          apply bind (holds_updatePeerAllowedIPs hundo pr exitAllowedIPs)
          intro r
          cases r with
          | error e => trivial
          | ok u => exact honest_captureThrough lib cfg hundo pr prior d opts

end

/-- Every goroutine puts away what it has taken in hand. -/
theorem honest_body (t : Task) : (t.body lib cfg).Honest ledger := by
  have hundo : ∀ c : TunnelCall, c.undoes = true → (honest ledger).legal c :=
    fun c hc => legal_of_plain (plain_of_undoes hc)
  have m := manners_honest lib
  cases t with
  | addPeer p => exact bind (m.addPeer fun _ _ => trivial) fun _ => trivial
  | removePeer d => exact honest_removePeer d
  | negotiate pr => exact m.negotiate trivial
  | handleEndpointChange d p => exact m.handleEndpointChange d fun _ _ => trivial
  | applyPeerUpdate update => exact m.applyPeerUpdate fun _ _ _ _ => trivial
  | setExitNode d opts => exact (honest_setExitNode lib cfg hundo d opts).bind fun _ => trivial
  | clearExitNode => exact (honest_clearExitNode lib cfg hundo).bind fun _ => trivial
  | checkPeerHealth => exact m.checkPeerHealth
  | observePeerModes => exact m.observePeerModes
  | useCachedRegistration resp => exact honest_then rfl fun _ => m.addPeers fun _ _ _ _ => trivial
  | start => exact bind (m.start fun _ => trivial) fun _ => trivial

end

end NexusVPN.Client
