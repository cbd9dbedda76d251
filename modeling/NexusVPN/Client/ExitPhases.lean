import NexusVPN.Client.Tasks

/-! # What goroutines still have to do about an exit node

    The WireGuard entries are written by `addPeer`, by `narrowPeer` and `widenPeer`, and by
    a negotiation that falls back to a relay.  Some of the writers leave the entry of a
    peer for later: whoever has listed a peer still has to give it its own prefix, whoever
    has taken the exit record still has to narrow the peer that was recorded, and whoever
    has widened a peer still has to record it. -/

namespace NexusVPN.Client

open Prog Obeys

/-! ## What is known about the devices -/

/-- The key and the address of each device. -/
structure Directory where
  key : UUID → Bytes
  address : UUID → IPRange
  key_injective : Function.Injective key
  address_injective : Function.Injective address
  address_not_exit : ∀ d, address d ∉ exitAllowedIPs

namespace Directory

variable (dir : Directory) (lib : ClientLib)

/-- The key and the virtual address are those of the device. -/
def Describes (d : UUID) (publicKey virtualIP : String) : Prop :=
  d ≠ .nil ∧ lib.decodeKey publicKey = some (dir.key d) ∧
    allowedIPsFor lib virtualIP = .ok [dir.address d]

def Knows (pr : PeerRef) : Prop := dir.Describes lib pr.deviceID pr.publicKey pr.virtualIP

/-- The entry gives the device its own host prefix. -/
def Narrows (d : UUID) (c : PeerConfig) : Prop :=
  lib.decodeKey c.publicKey = some (dir.key d) ∧ c.allowedIPs = [dir.address d]

/-- The entry gives the device the whole address space. -/
def Widens (d : UUID) (c : PeerConfig) : Prop :=
  lib.decodeKey c.publicKey = some (dir.key d) ∧ c.allowedIPs = exitAllowedIPs

end Directory

/-! ## What goroutines still have to do -/

inductive ExitPhase where
  | idle
  /-- It will give the device its own prefix, or find that it is not listed. -/
  | narrowing (d : UUID)
  /-- It has given the device everything, and will record it as exit node. -/
  | widened (d : UUID)

namespace ExitPhase

/-- Where a goroutine is once it has widened a peer. -/
def widening : Task → ExitPhase
  | .setExitNode d _ => .widened d
  | _ => .idle

def next (t : Task) : ExitPhase → (c : TunnelCall) → tunnelIface.Ans c → ExitPhase
  | .idle, .insertPeer d _ _ _, .inserted _ => .narrowing d
  | .idle, .takeExit, e => if e.deviceID = .nil then .idle else .narrowing e.deviceID
  | .idle, .upsertPeer c, _ => if c.allowedIPs = exitAllowedIPs then widening t else .idle
  | .narrowing _, .upsertPeer _, _ => .idle
  | .narrowing _, .lookupPeer _, none => .idle
  | .widened _, .recordExit .., _ => .idle
  | ph, _, _ => ph

section

variable (dir : Directory) (lib : ClientLib) (t : Task)

def idleLegal : TunnelCall → Prop
  | .upsertPeer c =>
    (∃ d, dir.Narrows lib d c) ∨ ∃ d opts, t = .setExitNode d opts ∧ dir.Widens lib d c
  | .goNegotiate pr => dir.Knows lib pr
  | .recordExit .. => False
  | _ => True

def narrowingLegal (d : UUID) : TunnelCall → Prop
  | .env _ | .readPeer _ => True
  | .lookupPeer d' => d' = d
  | .upsertPeer c => dir.Narrows lib d c
  | _ => False

def widenedLegal (d : UUID) : TunnelCall → Prop
  | .env _ | .readPeer _ | .listPeers => True
  | .recordExit d' _ _ => d' = d
  | _ => False

def legal : ExitPhase → TunnelCall → Prop
  | .idle, c => idleLegal dir lib t c
  | .narrowing d, c => narrowingLegal dir lib d c
  | .widened d, c => (∃ opts, t = .setExitNode d opts) ∧ widenedLegal d c

/-- What the steps answer if every device is as the directory says. -/
def may : (c : TunnelCall) → tunnelIface.Ans c → Prop
  | .lookupPeer d, some pr => pr.deviceID = d ∧ dir.Knows lib pr
  | .listPeers, prs => ∀ pr ∈ prs, dir.Knows lib pr
  | .insertPeer d publicKey virtualIP _, .inserted pr =>
    pr.deviceID = d ∧ pr.publicKey = publicKey ∧ pr.virtualIP = virtualIP ∧ dir.Knows lib pr
  | .env (.pinEndpoint ..), ok => ok = true
  | .env .captureDefault, ok => ok = true
  | .upsertPeer c, r => (lib.decodeKey c.publicKey).isSome → r = .ok ()
  | _, _ => True

end

end ExitPhase

open ExitPhase

def exitProtocol (dir : Directory) (lib : ClientLib) (t : Task) :
    Protocol tunnelIface ExitPhase where
  may := may dir lib
  legal := legal dir lib t
  next := next t

/-! ## The goroutines keep to it -/

section

variable {dir : Directory} {lib : ClientLib} {t : Task}

/-- Nothing is left to do afterwards, if nothing was before. -/
def Calm (dir : Directory) (lib : ClientLib) (t : Task) {α : Type} (p : TunnelM α) : Prop :=
  p.Obeys (exitProtocol dir lib t) (fun _ ph => ph = .idle) .idle

/-- The call neither writes an entry nor touches the exit record, and starts nothing. -/
def TunnelCall.calm : TunnelCall → Bool
  | .insertPeer .. | .takeExit | .upsertPeer _ | .goNegotiate _ | .recordExit .. => false
  | _ => true

/-- `Calm` as a discipline. -/
abbrev exitDiscipline (dir : Directory) (lib : ClientLib) (t : Task) : Discipline tunnelIface :=
  .staying (exitProtocol dir lib t) .idle

variable {α : Type} {pr : PeerRef} {ph : ExitPhase} {c : TunnelCall}

theorem legal_of_calm (hc : c.calm = true) : (exitDiscipline dir lib t).legal c := by
  cases c with
  | insertPeer | takeExit | upsertPeer | goNegotiate | recordExit => cases hc
  | _ => exact ⟨trivial, fun _ => rfl⟩

theorem calm_then {f : tunnelIface.Ans c → TunnelM α} (hc : c.calm = true)
    (hf : ∀ a, may dir lib c a → Calm dir lib t (f a)) : Calm dir lib t (ask c >>= f) :=
  (exitDiscipline dir lib t).after (legal_of_calm hc) hf

theorem calm_ask (hc : c.calm = true) : Calm dir lib t (ask c) :=
  (exitDiscipline dir lib t).ask (legal_of_calm hc)

theorem calm_return (a : α) : Calm dir lib t (pure a) := rfl

theorem Calm.bind {β : Type} {p : TunnelM α} {f : α → TunnelM β} (hp : Calm dir lib t p)
    (hf : ∀ a, Calm dir lib t (f a)) : Calm dir lib t (p >>= f) :=
  (exitDiscipline dir lib t).bind hp hf

theorem calm_narrow {c : PeerConfig} {d : UUID} {f : Except WGError Unit → TunnelM α}
    (hc : dir.Narrows lib d c) (hf : ∀ r, Calm dir lib t (f r)) :
    Calm dir lib t (ask (.upsertPeer c) >>= f) := by
  have hne : c.allowedIPs ≠ exitAllowedIPs := by
    rw [hc.2]
    simp [exitAllowedIPs]
  refine ⟨.inl ⟨d, hc⟩, ?_⟩
  intro r _
  show (f r).Obeys _ _ (if c.allowedIPs = exitAllowedIPs then widening t else .idle)
  rw [if_neg hne]
  exact hf r

theorem calm_goNegotiate (h : dir.Knows lib pr) : Calm dir lib t (ask (.goNegotiate pr)) :=
  ⟨h, fun _ _ => rfl⟩

theorem Directory.Knows.narrows (h : dir.Knows lib pr) {own : List IPRange}
    (hown : allowedIPsFor lib pr.virtualIP = .ok own) (endpoint : Option UDPAddr)
    (keepalive : Nat) :
    dir.Narrows lib pr.deviceID ⟨pr.publicKey, endpoint, own, keepalive⟩ :=
  ⟨h.2.1, Except.ok.inj (hown.symm.trans h.2.2)⟩

/-! ### Adding and removing -/

theorem calm_installPeer {d : UUID} {allowed : List IPRange} {p : Proto.Peer}
    (hallow : allowedIPsFor lib p.virtualIp = .ok allowed) :
    Calm dir lib t (installPeer lib d allowed p) := by
  refine ⟨trivial, ?_⟩
  intro r hr
  cases r with
  | existing pr => exact calm_then rfl fun _ _ => calm_return _
  | inserted pr =>
    obtain ⟨rfl, hkey, hip, hknows⟩ := hr
    -- The peer is listed, and its entry is still to be written.
    have hown : allowedIPsFor lib pr.virtualIP = .ok allowed := by
      rw [hip]
      exact hallow
    have hnarrows := hknows.narrows hown (endpointFromProto lib p.lastKnownEndpoint)
      keepaliveSeconds
    refine ⟨hnarrows, ?_⟩
    intro r _
    cases r with
    | error e => exact calm_return _
    | ok u => exact (calm_goNegotiate hknows).bind fun _ => calm_return _

theorem calm_closeIfAny (x : Option ProxyRef) : Calm dir lib t (closeIfAny x) := by
  cases x with
  | none => exact calm_return _
  | some x => exact calm_ask rfl

theorem calm_removePeer (d : UUID) : Calm dir lib t (removePeer d) := by
  refine calm_then rfl fun r _ => ?_
  cases r with
  | none => exact calm_return _
  | some pr =>
    have hclose : Calm dir lib t (closePeer pr) := calm_then rfl fun _ _ => calm_closeIfAny _
    exact hclose.bind fun _ => calm_then rfl fun _ _ => calm_return _

theorem calm_repointToProxy (h : dir.Knows lib pr) (x : ProxyRef) :
    Calm dir lib t (repointToProxy lib pr x) := by
  unfold repointToProxy
  split
  · exact calm_ask rfl
  · next allowed hallow =>
    refine calm_narrow (h.narrows hallow _ _) fun r => ?_
    cases r with
    | error e => exact calm_then rfl fun _ _ => calm_ask rfl
    | ok u => exact calm_then rfl fun _ _ => calm_closeIfAny _

theorem calm_relayThrough (h : dir.Knows lib pr) (token : String) (relayAddr : UDPAddr) :
    Calm dir lib t (relayThrough lib pr token relayAddr) := by
  unfold relayThrough
  split
  · exact calm_ask rfl
  · refine calm_then rfl fun x _ => ?_
    cases x with
    | none => exact calm_ask rfl
    | some x =>
      refine calm_then rfl fun started _ => ?_
      cases started with
      | true => exact calm_repointToProxy h x
      | false => exact calm_then rfl fun _ _ => calm_ask rfl

theorem manners_calm :
    Manners lib (dir.Knows lib) (fun _ => True) (exitDiscipline dir lib t) where
  routine c hc := legal_of_calm (by cases c <;> first | rfl | cases hc)
  found _ _ hmay := hmay.2
  listed _ hmay := hmay
  goNegotiate _ hknows := ⟨hknows, fun _ => rfl⟩
  updateEndpoint _ _ _ := legal_of_calm rfl
  resolved _ _ _ _ := trivial
  installPeer _ _ _ hallow _ := calm_installPeer hallow
  removePeer := calm_removePeer
  establishDirect _ := calm_then rfl fun _ _ => calm_closeIfAny _
  relayThrough _ token relayAddr hknows _ := calm_relayThrough hknows token relayAddr

/-! ### Exit-node mode -/

variable (cfg : TunnelConfig)

theorem calm_engageKillSwitch (allowLAN : Bool) :
    Calm dir lib t (engageKillSwitch cfg allowLAN) := by
  have hlooks : ∀ c : TunnelCall, c.looks = true → (exitDiscipline dir lib t).legal c :=
    fun c hc => legal_of_calm (by cases c <;> first | rfl | cases hc)
  unfold engageKillSwitch
  split
  · exact calm_return _
  · refine Calm.bind (holds_transportAddrPorts hlooks) fun endpoints =>
      Calm.bind (holds_lanFor hlooks allowLAN) fun lan => ?_
    cases lan with
    | none => exact calm_return _
    | some lan =>
      refine calm_then rfl fun ok _ => ?_
      cases ok with
      | true => exact calm_then rfl fun _ _ => calm_return _
      | false => exact calm_return _

theorem obeys_env {Q : α → ExitPhase → Prop} {c : EnvCall} {f : c.Result → TunnelM α}
    (hlegal : legal dir lib t ph (.env c))
    (hf : ∀ a, may dir lib (.env c) a → (f a).Obeys (exitProtocol dir lib t) Q ph) :
    (askEnv c >>= f).Obeys (exitProtocol dir lib t) Q ph := by
  refine ⟨hlegal, ?_⟩
  intro a ha
  have hnext : next t ph (.env c) a = ph := by cases ph <;> rfl
  show (f a).Obeys _ _ (next t ph (.env c) a)
  rw [hnext]
  exact hf a ha

theorem obeys_unpinAll {Q : Unit → ExitPhase → Prop} (ips : List Bytes)
    (hlegal : ∀ c, legal dir lib t ph (.env c)) (hQ : Q () ph) :
    (unpinAll ips).Obeys (exitProtocol dir lib t) Q ph := by
  induction ips with
  | nil => exact hQ
  | cons ip ips ih => exact obeys_env (hlegal _) fun _ _ => ih

theorem obeys_narrowPeer (h : dir.Knows lib pr) :
    (narrowPeer lib pr).Obeys (exitProtocol dir lib t) (fun _ ph => ph = .idle)
      (.narrowing pr.deviceID) := by
  unfold narrowPeer
  split
  · next e he => exact nomatch he.symm.trans h.2.2
  · next allowed hallow =>
    refine ⟨trivial, fun vars _ => ⟨h.narrows hallow vars.wgEndpoint keepaliveSeconds, ?_⟩⟩
    intro r _
    cases r <;> rfl

theorem obeys_narrowExit (state : ExitState) (hne : state.deviceID ≠ .nil) :
    (narrowExit lib state).Obeys (exitProtocol dir lib t) (fun _ ph => ph = .idle)
      (.narrowing state.deviceID) := by
  unfold narrowExit
  rw [if_neg hne]
  refine ⟨rfl, ?_⟩
  intro r hr
  cases r with
  | none => rfl
  | some pr =>
    obtain ⟨hd, hknows⟩ := hr
    show Obeys _ _ (narrowPeer lib pr >>= fun _ => _) (narrowing state.deviceID)
    rw [← hd]
    refine bind ((obeys_narrowPeer hknows).mono ?_)
    rintro r ph rfl
    cases r <;> rfl

theorem obeys_release (henv : ∀ c, legal dir lib t ph (.env c)) (cfg : TunnelConfig)
    (state : ExitState) :
    (releaseLock cfg state).Obeys (exitProtocol dir lib t) (fun _ ph' => ph' = ph) ph ∧
    (releaseRoute cfg state).Obeys (exitProtocol dir lib t) (fun _ ph' => ph' = ph) ph := by
  constructor
  · unfold releaseLock
    split
    · exact obeys_env (henv _) fun _ _ => rfl
    · rfl
  · unfold releaseRoute
    split
    · exact obeys_env (henv _) fun _ _ => rfl
    · rfl

theorem calm_clearExitNode : Calm dir lib t (clearExitNode lib cfg) := by
  refine obeys_ask trivial fun state _ => ?_
  obtain ⟨ph, hph, henv, hnarrow⟩ : ∃ ph : ExitPhase,
      (exitProtocol dir lib t).next .idle .takeExit state = ph ∧
      (∀ c, legal dir lib t ph (.env c)) ∧
      (narrowExit lib state).Obeys (exitProtocol dir lib t) (fun _ ph => ph = .idle) ph := by
    by_cases hnil : state.deviceID = .nil
    · refine ⟨.idle, if_pos hnil, fun _ => trivial, ?_⟩
      unfold narrowExit
      rw [if_pos hnil]
      rfl
    · exact ⟨_, if_neg hnil, fun _ => trivial, obeys_narrowExit state hnil⟩
  -- Whoever has taken a record still has its peer to narrow.
  by_cases hoff : state.deviceID = .nil ∧ ¬ state.captured ∧ ¬ state.locked
  · rw [if_pos hoff]
    exact if_pos hoff.1
  · rw [if_neg hoff, hph]
    obtain ⟨hlock, hroute⟩ := obeys_release henv cfg state
    refine bind (hlock.mono ?_)
    rintro e₁ ph rfl
    refine bind (hroute.mono ?_)
    rintro e₂ ph rfl
    split
    · exact bind (obeys_unpinAll _ henv (bind (hnarrow.mono fun _ _ h => h)))
    · exact bind (hnarrow.mono fun _ _ h => h)

theorem obeys_pinAll (henv : ∀ c, legal dir lib t ph (.env c)) (prior : DefaultRoute)
    (ips pinned : List Bytes) :
    (pinAll prior ips pinned).Obeys (exitProtocol dir lib t) (fun r ph' => r.1 = none ∧ ph' = ph)
      ph := by
  induction ips generalizing pinned with
  | nil => exact ⟨rfl, rfl⟩
  | cons ip ips ih =>
    refine obeys_env (henv _) fun ok hok => ?_
    rw [hok]
    exact ih _

section

variable {d : UUID} {opts : ExitNodeOptions}

theorem obeys_widenPeer (hd : pr.deviceID = d) (h : dir.Knows lib pr) :
    (widenPeer pr).Obeys (exitProtocol dir lib (.setExitNode d opts))
      (fun r ph => r = .ok () ∧ ph = .widened d) .idle := by
  refine obeys_ask trivial fun vars _ => ?_
  have hkey : lib.decodeKey pr.publicKey = some (dir.key d) := hd ▸ h.2.1
  refine obeys_ask (.inr ⟨d, opts, rfl, hkey, rfl⟩) fun r hr => ?_
  -- The device takes any entry under a key that it can read.
  obtain rfl : r = .ok () := hr (by rw [hkey]; rfl)
  refine ⟨rfl, ?_⟩
  show (if exitAllowedIPs = exitAllowedIPs then widened d else .idle) = .widened d
  exact if_pos rfl

theorem obeys_transportEndpoints :
    transportEndpoints.Obeys (exitProtocol dir lib (.setExitNode d opts))
      (fun _ ph => ph = .widened d) (.widened d) := by
  refine holds_transportEndpoints
    (D := .staying (exitProtocol dir lib (.setExitNode d opts)) (.widened d)) fun c hc => ?_
  cases c with
  | env | listPeers | readPeer => exact ⟨⟨⟨opts, rfl⟩, trivial⟩, fun _ => rfl⟩
  | _ => cases hc

theorem obeys_captureThrough (pr : PeerRef) (prior : DefaultRoute) :
    (captureThrough lib cfg pr prior d opts).Obeys (exitProtocol dir lib (.setExitNode d opts))
      (fun _ ph => ph = .idle) (.widened d) := by
  have henv : ∀ c, legal dir lib (.setExitNode d opts) (.widened d) (.env c) :=
    fun _ => ⟨⟨opts, rfl⟩, trivial⟩
  refine bind (obeys_transportEndpoints.mono ?_)
  rintro endpoints ph rfl
  refine bind ((obeys_pinAll henv prior endpoints []).mono ?_)
  rintro ⟨refused, pinned⟩ ph ⟨hnone, rfl⟩
  obtain rfl : refused = none := hnone
  refine obeys_env (henv _) fun ok hok => ?_
  rw [hok]
  refine obeys_ask ⟨⟨opts, rfl⟩, rfl⟩ fun _ _ => ?_
  split
  · exact calm_engageKillSwitch cfg _
  · exact calm_return _

theorem calm_setExitNode :
    Calm dir lib (.setExitNode d opts) (setExitNode lib cfg d opts) := by
  unfold setExitNode
  split
  · exact calm_return _
  · refine calm_then rfl fun pr hpr => ?_
    cases pr with
    | none => exact calm_return _
    | some pr =>
      refine (calm_clearExitNode cfg).bind fun e => ?_
      cases e with
      | some e => exact calm_return _
      | none =>
        refine calm_then rfl fun prior _ => ?_
        cases prior with
        | none => exact calm_return _
        | some prior =>
          refine bind ((obeys_widenPeer hpr.1 hpr.2).mono ?_)
          rintro r ph ⟨rfl, rfl⟩
          exact obeys_captureThrough cfg pr prior

end

theorem calm_body (t : Task)
    (hpr : ∀ pr, t = .negotiate pr → dir.Knows lib pr) : Calm dir lib t (t.body lib cfg) := by
  have m : Manners lib (dir.Knows lib) (fun _ => True) (exitDiscipline dir lib t) := manners_calm
  cases t with
  | addPeer p => exact Calm.bind (m.addPeer fun _ _ => trivial) fun _ => calm_return _
  | removePeer d => exact calm_removePeer d
  | negotiate pr => exact m.negotiate (hpr pr rfl)
  | handleEndpointChange d p => exact m.handleEndpointChange d fun _ _ => trivial
  | applyPeerUpdate update => exact m.applyPeerUpdate fun _ _ _ _ => trivial
  | setExitNode d opts => exact (calm_setExitNode cfg).bind fun _ => calm_return _
  | clearExitNode => exact (calm_clearExitNode cfg).bind fun _ => calm_return _
  | checkPeerHealth => exact m.checkPeerHealth
  | observePeerModes => exact m.observePeerModes
  | useCachedRegistration resp => exact calm_then rfl fun _ _ => m.addPeers fun _ _ _ _ => trivial
  | start => exact Calm.bind (m.start fun _ => trivial) fun _ => calm_return _

end

end NexusVPN.Client
