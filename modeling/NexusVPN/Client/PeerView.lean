import NexusVPN.Client.Lifecycle
import NexusVPN.Client.Bookkeeping
import NexusVPN.Lib.Mirror

/-! # Updates and the peer map

    `applyPeerUpdate` keeps `t.peers` up with the control plane, so that the map is a mirror
    of the devices on the network.  An update says that a device is gone, that it is there, or
    nothing; a peer without a key is not added. -/

namespace NexusVPN.Client

open Prog Option TunnelState

variable (lib : ClientLib)

/-- The device is in `t.peers`. -/
def TunnelState.Lists (s : TunnelState) (d : UUID) : Bool := (s.peers.lookup d).isSome

/-- The device that `addPeer` can add. -/
def addable (p : Proto.Peer) : Option UUID :=
  if p.publicKey = "" then none else lib.parseUUID p.deviceId

/-- What an update says about the devices of the network. -/
def noticeOf (u : Proto.PeerUpdate) : Notice UUID :=
  match u.peer with
  | none => .silent
  | some p =>
    match u.type with
    | .left => (lib.parseUUID p.deviceId).elim .silent .gone
    | _ => (addable lib p).elim .silent .there

/-! ## Programs that add at most one peer -/

/-- The call may add another peer than `only`, or give the tunnel another identity. -/
def TunnelCall.Enlists (only : Option UUID) : TunnelCall → Prop
  | .insertPeer d _ _ _ => some d ≠ only
  | .setRegistration _ => True
  | _ => False

/-- From `s₀` on no peer has been added but `only`. -/
structure Enlisted (only : Option UUID) (s₀ s : TunnelState) : Prop where
  deviceID : s.deviceID = s₀.deviceID
  lists : ∀ d, some d ≠ only → s.Lists d = true → s₀.Lists d = true

variable {lib} {only : Option UUID} {s s₀ : TunnelState}

theorem Enlisted.refl (only : Option UUID) (s : TunnelState) : Enlisted only s s :=
  ⟨rfl, fun _ _ h => h⟩

theorem Enlisted.call {c : TunnelCall} (h : Enlisted only s₀ s) (hc : ¬ c.Enlists only)
    (i : TunnelInput) : Enlisted only s₀ (handler lib c i s).2 := by
  constructor
  · rw [← h.deviceID]
    cases c with
    | setRegistration resp => exact absurd trivial hc
    | insertPeer d publicKey virtualIP vars =>
      simp only [handler, insertPeer]
      split <;> rfl
    | deletePeer d =>
      simp only [handler, deletePeer]
      split <;> rfl
    | beginStart | beginAttempt | moveEndpoint | newProxy =>
      simp only [handler]
      split <;> rfl
    | _ => rfl
  · intro d hd hlist
    obtain ⟨pr, hpr⟩ := isSome_iff_exists.mp hlist
    rcases listed_of_handler hpr with hold | ⟨publicKey, virtualIP, vars, rfl, -, -⟩
    · exact h.lists d hd (isSome_iff_exists.mpr ⟨pr, hold⟩)
    · exact absurd hd hc

theorem wp_enlisted {α : Type} {p : TunnelM α} (hp : p.Avoids (TunnelCall.Enlists only))
    (h : Enlisted only s₀ s) :
    wp (handler lib) p (fun _ => Enlisted only s₀) s :=
  wp_avoids (fun _ i _ hc hs => hs.call hc i) hp h

theorem avoids_addPeer (p : Proto.Peer) :
    (addPeer lib p).Avoids (TunnelCall.Enlists (addable lib p)) := by
  unfold addPeer addable
  cases lib.parseUUID p.deviceId with
  | none => trivial
  | some d =>
    by_cases hkey : p.publicKey = ""
    · simp only [hkey, ↓reduceIte]
      trivial
    · simp only [hkey, ↓reduceIte]
      cases allowedIPsFor lib p.virtualIp with
      | error e => trivial
      | ok allowed =>
        refine ⟨by simp [TunnelCall.Enlists], ?_⟩
        intro r
        cases r with
        | existing pr => exact ⟨by simp [TunnelCall.Enlists], fun _ => trivial⟩
        | inserted pr =>
          refine ⟨by simp [TunnelCall.Enlists], ?_⟩
          intro r
          cases r with
          | error e => trivial
          | ok _ => exact ⟨by simp [TunnelCall.Enlists], fun _ => trivial⟩

theorem avoids_closePeer (pr : PeerRef) : (closePeer pr).Avoids (TunnelCall.Enlists only) := by
  refine ⟨by simp [TunnelCall.Enlists], ?_⟩
  intro x
  cases x with
  | none => trivial
  | some x => exact ⟨by simp [TunnelCall.Enlists], fun _ => trivial⟩

theorem avoids_handleEndpointChange (d : UUID) (p : Proto.Peer) :
    (handleEndpointChange lib d p).Avoids (TunnelCall.Enlists (addable lib p)) := by
  refine ⟨by simp [TunnelCall.Enlists], ?_⟩
  intro r
  cases r with
  | none => exact (avoids_addPeer p).bind fun _ => trivial
  | some pr =>
    cases endpointFromProto lib p.lastKnownEndpoint with
    | none => trivial
    | some ep =>
      refine ⟨by simp [TunnelCall.Enlists], ?_⟩
      rintro ⟨moved, mode⟩
      show Avoids _ (if (!moved) = true then _ else _)
      split
      · trivial
      · split
        · exact ⟨by simp [TunnelCall.Enlists], fun _ => trivial⟩
        · refine ⟨by simp [TunnelCall.Enlists], ?_⟩
          intro r
          cases r with
          | error e => exact ⟨by simp [TunnelCall.Enlists], fun _ => trivial⟩
          | ok _ => trivial

/-! ## Updates -/

theorem wp_removePeer (d : UUID) :
    wp (handler lib) (removePeer d)
      (fun _ s' => s'.deviceID = s.deviceID ∧
        ∀ d', s'.Lists d' = true → (Notice.gone d).after d' (s.Lists d') = true) s := by
  intro i
  have hstart : Enlisted none s (handler lib (.deletePeer d) i s).2 :=
    (Enlisted.refl none s).call (by simp [TunnelCall.Enlists]) i
  have hgone : (handler lib (.deletePeer d) i s).2.Lists d = false := by
    simp only [handler, deletePeer, TunnelState.Lists]
    cases hlook : s.peers.lookup d with
    | none => simp [hlook]
    | some pr => simp
  generalize (handler lib (.deletePeer d) i s).2 = s₁ at hstart hgone
  generalize (handler lib (.deletePeer d) i s).1 = r
  -- Whatever follows adds nobody to what is left then.
  refine wp_mono (Q := fun _ => Enlisted none s₁) ?listed (wp_enlisted ?quiet (.refl none s₁))
  case quiet =>
    cases r with
    | none => trivial
    | some pr =>
      exact (avoids_closePeer pr).bind fun _ => ⟨by simp [TunnelCall.Enlists], fun _ => trivial⟩
  case listed =>
    intro _ s' h
    refine ⟨h.deviceID.trans hstart.deviceID, ?_⟩
    intro d' hd'
    have hlist := h.lists d' (by simp) hd'
    have hne : d ≠ d' := by
      rintro rfl
      rw [hgone] at hlist
      cases hlist
    simp [Notice.after, hne, hstart.lists d' (by simp) hlist]

theorem Enlisted.after {p : Proto.Peer} (h : Enlisted (addable lib p) s₀ s) :
    s.deviceID = s₀.deviceID ∧ ∀ d, s.Lists d = true →
      ((addable lib p).elim Notice.silent .there).after d (s₀.Lists d) = true := by
  refine ⟨h.deviceID, ?_⟩
  intro d hd
  cases hadd : addable lib p with
  | none => exact h.lists d (by simp [hadd]) hd
  | some d' =>
    by_cases heq : d' = d
    · simp [Notice.after, heq]
    · have hold := h.lists d (by rw [hadd]; exact fun he => heq (some.inj he).symm) hd
      simp [Notice.after, hold]

variable (lib) in
theorem wp_applyPeerUpdate (u : Proto.PeerUpdate)
    (hself : ∀ p, u.peer = some p → p.deviceId ≠ s.deviceID) :
    wp (handler lib) (applyPeerUpdate lib u)
      (fun _ s' => s'.deviceID = s.deviceID ∧
        ∀ d, s'.Lists d = true → (noticeOf lib u).after d (s.Lists d) = true) s := by
  unfold applyPeerUpdate noticeOf
  cases hpeer : u.peer with
  | none => exact ⟨rfl, fun _ h => h⟩
  | some p =>
    dsimp only
    cases hid : lib.parseUUID p.deviceId with
    | none =>
      refine ⟨rfl, fun d hd => ?_⟩
      have hnobody : addable lib p = none := by simp [addable, hid]
      cases u.type <;> simpa [hnobody, Notice.after] using hd
    | some d =>
      intro i
      show wp _ (if p.deviceId = s.deviceID then _ else _) _ s
      rw [if_neg (hself p hpeer)]
      -- All but a departure can only enlist the peer that is named.
      have hadd : wp (handler lib) (addPeer lib p >>= fun _ => return ())
          (fun _ => Enlisted (addable lib p) s) s :=
        wp_enlisted ((avoids_addPeer p).bind fun _ => trivial) (Enlisted.refl _ s)
      cases u.type with
      | left => exact wp_removePeer d
      | joined | unspecified => exact wp_mono (fun _ _ h => h.after) hadd
      | endpointChanged | statusChanged =>
        exact wp_mono (fun _ _ h => h.after)
          (wp_enlisted (avoids_handleEndpointChange d p) (Enlisted.refl _ s))

end NexusVPN.Client
