import NexusVPN.Backend.Announcements
import NexusVPN.Backend.CoordinationServer

/-! # The peer event bus

    `bus` and `subscription` of the embedded store, and what the calls that devices make
    publish on it.  A subscriber has a channel of 64 slots; an event that finds it full is
    dropped for this subscriber. -/

namespace NexusVPN.Backend

open List Prog CoordinationService Store CoordinationServer

/-! ## Subscriptions -/

/-- `subscription`.  Each event in the channel has a note on how it was published; nothing
    is decided by the notes. -/
structure Subscription (τ : Type) where
  networks : List UUID
  queue : List (PeerEvent × τ)

namespace Subscription

variable {τ : Type}

/-- `make(chan domain.PeerEvent, 64)`. -/
def capacity : Nat := 64

/-- An event about the network would go into the channel. -/
abbrev Takes (sub : Subscription τ) (networkID : UUID) : Prop :=
  networkID ∈ sub.networks ∧ sub.queue.length < capacity

/-- The body of `Publish`' loop. -/
def offer (note : τ) (sub : Subscription τ) (e : PeerEvent) : Subscription τ :=
  if sub.Takes e.networkID then { sub with queue := sub.queue ++ [(e, note)] } else sub

section

variable (note : τ) (sub : Subscription τ)
include note sub

@[simp] theorem networks_offer (e : PeerEvent) : (sub.offer note e).networks = sub.networks := by
  unfold offer
  split <;> rfl

theorem queue_offer (e : PeerEvent) :
    (sub.offer note e).queue = sub.queue ∨
    (sub.offer note e).queue = sub.queue ++ [(e, note)] := by
  unfold offer
  split
  · exact .inr rfl
  · exact .inl rfl

theorem queue_offers (es : List PeerEvent) :
    ∃ taken : List PeerEvent, (∀ e ∈ taken, e ∈ es) ∧
      (es.foldl (offer note) sub).queue = sub.queue ++ taken.map (·, note) := by
  induction es generalizing sub with
  | nil => exact ⟨[], by simp, by simp⟩
  | cons e es ih =>
    obtain ⟨taken, hmem, hqueue⟩ := ih (sub.offer note e)
    rcases queue_offer note sub e with hdrop | htaken
    · refine ⟨taken, fun e' he' => mem_cons_of_mem _ (hmem e' he'), ?_⟩
      rw [foldl_cons, hqueue, hdrop]
    · refine ⟨e :: taken, ?_, ?_⟩
      · exact forall_mem_cons.mpr ⟨mem_cons_self, fun e' he' => mem_cons_of_mem _ (hmem e' he')⟩
      · rw [foldl_cons, hqueue, htaken]
        simp

end

end Subscription

/-- What has been published since the store was `before`, oldest first. -/
def Store.newsSince (before s : Store) : List PeerEvent :=
  (s.published.take (s.published.length - before.published.length)).reverse

theorem newsSince_of_append {before s : Store} {new : List PeerEvent}
    (h : s.published = new ++ before.published) : before.newsSince s = new.reverse := by
  unfold newsSince
  rw [h, length_append, Nat.add_sub_cancel, take_left']
  rfl

/-! ## Devices that stay -/

/-- The device is in the store. -/
abbrev Store.Has (s : Store) (d : UUID) : Prop := (s.devices.get d).isSome = true

variable {lib : StdLib} {s : Store} {d : UUID} {c : RepoCall}

theorem has_put {dev : Device} {t : Table UUID Device Device.id} (h : (t.get d).isSome = true) :
    ((t.put dev).get d).isSome = true := by
  rw [Table.get_put]
  split
  · rfl
  · exact h

theorem has_robust (d : UUID) : Robust lib fun s => s.Has d := by
  intro c hc i s hs
  have howned := congrArg Option.isSome ((mild_method lib hc i s).1 d)
  rw [Option.isSome_map, Option.isSome_map] at howned
  exact howned.trans hs

variable (lib) in
theorem has_placed {dev : Device} (hc : c.placed = some dev) (i : RepoInput) {s : Store}
    (hs : s.Has d) : (method lib c i s).2.Has d := by
  have hout := outcome_method lib i s c
  generalize method lib c i s = r at hout ⊢
  cases hout with
  | same a => exact hs
  | aside a _ _ hdevs => rwa [Has, hdevs]
  | createDevice | updateDevice => exact has_put hs
  | _ => cases hc

/-! ## What is published -/

/-- Since the store was `before`, only events in `A` have been published. -/
def Published (A : PeerEvent → Prop) (before s : Store) : Prop :=
  ∃ new, s.published = new ++ before.published ∧ ∀ e ∈ new, A e

theorem published_refl (A : PeerEvent → Prop) (s : Store) : Published A s s := ⟨[], rfl, nofun⟩

variable (lib s) in
theorem published_method (hc : ∀ e, c ≠ .publish e) (i : RepoInput) :
    (method lib c i s).2.published = s.published := by
  have hout := outcome_method lib i s c
  generalize method lib c i s = r at hout ⊢
  cases hout with
  | aside a _ _ _ hpub => exact hpub
  | publish => exact absurd rfl (hc _)
  | _ => rfl

theorem published_kept {A : PeerEvent → Prop} {before : Store} (hc : ∀ e, c = .publish e → A e) :
    Kept lib (Published A before) c := by
  intro i s hs
  obtain ⟨new, hnew, hA⟩ := hs
  by_cases hpub : ∃ e, c = .publish e
  · obtain ⟨e, rfl⟩ := hpub
    refine ⟨e :: new, congrArg (e :: ·) hnew, ?_⟩
    exact forall_mem_cons.mpr ⟨hc _ rfl, hA⟩
  · refine ⟨new, ?_, hA⟩
    rw [published_method lib s (fun e he => hpub ⟨e, he⟩) i]
    exact hnew

/-! ## Calls about devices -/

/-- The calls by which devices come, stay and go. -/
inductive TopologyCall where
  /-- `CoordinationService.RegisterDevice`. -/
  | registerDevice (u n : UUID) (input : RegisterDeviceInput)
  /-- `CoordinationService.Heartbeat`. -/
  | heartbeat (presenceTTL : Int) (d : UUID) (publicEP privateEP : PresenceEndpoint)
      (natType : String) (bytesSent bytesReceived : UInt64)
  /-- `DeviceService.Heartbeat`. -/
  | restHeartbeat (d u : UUID) (publicIP privateIP natType : Option String)
      (bytesSent bytesReceived : Int)
  /-- `DeviceService.Delete`. -/
  | delete (d u : UUID)

@[reducible] def TopologyCall.Result : TopologyCall → Type
  | .registerDevice .. => RegisteredDevice
  | .heartbeat .. => Int
  | .restHeartbeat .. | .delete .. => Unit

def TopologyCall.serve : (c : TopologyCall) → Svc c.Result
  | .registerDevice u n input => CoordinationService.registerDevice u n input
  | .heartbeat ttl d pub priv nat sent received =>
    CoordinationService.heartbeat ttl d pub priv nat sent received
  | .restHeartbeat d u pub priv nat sent received =>
    DeviceService.heartbeat d u pub priv nat sent received
  | .delete d u => DeviceService.delete d u

/-- The store after the call. -/
def TopologyCall.exec (lib : StdLib) (c : TopologyCall) (w : Nat → RepoInput) (s : Store) :
    Store := (c.serve.run.exec (handler lib) w s).2

/-- The call takes no device away, and announces no departure. -/
structure Growing (before s : Store) : Prop where
  has : ∀ d, before.Has d → s.Has d
  published : Published (fun e => e.type ≠ .left) before s

section

variable {before : Store}

theorem growing_kept (hc : c.mild = true ∨ ∃ dev, c.placed = some dev)
    (hstay : ∀ e, c = .publish e → e.type ≠ .left) : Kept lib (Growing before) c := by
  intro i s hs
  refine ⟨fun d hd => ?_, published_kept hstay i s hs.published⟩
  rcases hc with hmild | ⟨dev, hplace⟩
  · exact has_robust d c hmild i s (hs.has d hd)
  · exact has_placed lib hplace i (hs.has d hd)

theorem quiet_kept (hc : c.mild = true) (hquiet : ∀ e, c ≠ .publish e) :
    Kept lib (Growing before) c :=
  growing_kept (.inl hc) fun e he => absurd he (hquiet e)

theorem announce_kept {e : PeerEvent} (he : e.type ≠ .left) :
    Kept lib (Growing before) (.publish e) :=
  growing_kept (.inl rfl) fun _ heq => RepoCall.publish.inj heq ▸ he

theorem growing_findOrCreate (u n : UUID) (cidr : String)
    (input : RegisterDeviceInput) :
    Preserves (handler lib) (Growing before) (findOrCreate u n cidr input) := by
  apply (preserves_try (quiet_kept rfl (by simp))).bind
  intro r
  split
  · exact (preserves_require _ _).bind fun _ =>
      preserves_call (growing_kept (.inr ⟨_, rfl⟩) (by simp))
  · exact (preserves_call (quiet_kept rfl (by simp))).bind fun _ =>
      (preserves_call (quiet_kept rfl (by simp))).bind fun _ =>
      preserves_call (growing_kept (.inr ⟨_, rfl⟩) (by simp))
  · exact preserves_throw _

/-- Unless it deletes a device, a call takes none away and announces no departure. -/
theorem growing_serve {c : TopologyCall} (hc : ∀ d u, c ≠ .delete d u) :
    Preserves (handler lib) (Growing before) c.serve := by
  cases c with
  | registerDevice u n input =>
    refine (preserves_requireMembership _ _).bind fun _ => ?_
    refine (preserves_call (quiet_kept rfl (by simp))).bind fun net => ?_
    refine (growing_findOrCreate _ _ _ _).bind fun d => ?_
    refine (preserves_call (quiet_kept rfl (by simp))).bind fun peers => ?_
    refine (preserves_mergePresence (fun _ => quiet_kept rfl (by simp)) _).bind fun peers => ?_
    exact (preserves_try (announce_kept (by simp))).bind fun _ => preserves_pure _
  | heartbeat ttl d pub priv nat sent received =>
    refine (preserves_call (quiet_kept rfl (by simp))).bind fun dev => ?_
    iterate 3 refine (preserves_call (quiet_kept rfl (by simp))).bind fun _ => ?_
    exact (preserves_try (announce_kept (by simp))).bind fun _ => preserves_pure _
  | restHeartbeat d u pub priv nat sent received =>
    refine (preserves_call (quiet_kept rfl (by simp))).bind fun dev => ?_
    refine (preserves_require _ _).bind fun _ => ?_
    iterate 2 refine (preserves_call (quiet_kept rfl (by simp))).bind fun _ => ?_
    refine (preserves_try (quiet_kept rfl (by simp))).bind fun _ => ?_
    exact (preserves_try (announce_kept (by simp))).bind fun _ => preserves_pure _
  | delete d u => exact absurd rfl (hc d u)

end

theorem TopologyCall.effect (c : TopologyCall) (w : Nat → RepoInput) (s : Store) :
    Growing s (c.exec lib w s) ∨
    ∃ d u dev, c = .delete d u ∧ s.devices.get d = some dev ∧
      (c.exec lib w s).devices = s.devices.del d ∧
      (c.exec lib w s).published = ⟨.left, dev.networkID, d⟩ :: s.published := by
  by_cases hdel : ∃ d u, c = .delete d u
  · obtain ⟨d, u, rfl⟩ := hdel
    have hend := wp_exec (wpe_deleteDevice lib (s := s) d u) w
    cases hres : ((DeviceService.delete d u).run.exec (handler lib) w s).1 with
    | ok r =>
      rw [hres] at hend
      obtain ⟨dev, hdev, hdevs, hpub⟩ := hend
      exact .inr ⟨d, u, dev, rfl, hdev, hdevs, hpub⟩
    | error e =>
      rw [hres] at hend
      have hsame : (TopologyCall.delete d u).exec lib w s = s := hend
      rw [hsame]
      exact .inl ⟨fun _ h => h, published_refl _ s⟩
  · have hc : ∀ d u, c ≠ .delete d u := fun d u heq => hdel ⟨d, u, heq⟩
    exact .inl ((growing_serve hc).exec ⟨fun _ hd => hd, published_refl _ s⟩ w)

/-! ## What a stream sends -/

/-- What is sent for an event to the device `me`: nothing about itself, and for another
    device its id, with a key only if it is in the store. -/
def Tells (s : Store) (me : UUID) (e : PeerEvent) : Option Proto.PeerUpdate → Prop
  | none => e.deviceID = me
  | some u => e.deviceID ≠ me ∧ u.type = peerUpdateTypeToProto e.type ∧
    ∃ p, u.peer = some p ∧ p.deviceId = e.deviceID.string ∧ (p.publicKey ≠ "" → s.Has e.deviceID)

variable (lib s) in
theorem wpe_updateFor (me : UUID) (e : PeerEvent) :
    wpe (handler lib) (updateFor lib me e)
      (fun u s' => s' = s ∧ Tells s me e u) (fun _ _ => False) s := by
  unfold updateFor
  split
  · next hself => exact ⟨rfl, hself⟩
  · next hother =>
    rw [wpe_bind]
    have hpeer : wpe (handler lib) (peerOf lib e.deviceID)
        (fun p s' => s' = s ∧ p.deviceId = e.deviceID.string ∧
          (p.publicKey ≠ "" → s.Has e.deviceID)) (fun _ _ => False) s := by
      unfold peerOf
      rw [wpe_bind, wpe_try]
      intro i
      simp only [method, deviceMethod, DeviceRepo.getByID]
      cases hdev : s.devices.get e.deviceID with
      | none => exact ⟨rfl, rfl, fun hkey => absurd rfl hkey⟩
      | some dev =>
        -- Only a device that is there has a key to tell.
        have hid : dev.id = e.deviceID := Table.key_of_get hdev
        unfold toProtoPeer
        rw [wpe_bind]
        unfold devicePresence
        rw [wpe_bind, wpe_try]
        intro i
        have hread : (method lib (.presence dev.id) i s).2 = s := by
          simp only [method, PresenceStore.get]
          repeat' split
          all_goals rfl
        rw [hread]
        have hhas : s.Has e.deviceID := by rw [Has, hdev]; rfl
        split <;> exact ⟨rfl, congrArg UUID.string hid, fun _ => hhas⟩
    refine wpe_mono ?_ (fun _ _ h => h) hpeer
    rintro p s' ⟨rfl, hdevice, hkey⟩
    exact ⟨rfl, hother, rfl, p, rfl, hdevice, hkey⟩

variable (lib s) in
theorem exec_updateFor (me : UUID) (e : PeerEvent) (w : Nat → RepoInput) :
    ∃ u, (updateFor lib me e).run.exec (handler lib) w s = (.ok u, s) ∧ Tells s me e u := by
  have hwp := wpe_updateFor lib s me e
  obtain ⟨u, hok⟩ := exec_ok hwp w
  obtain ⟨hsame, htells⟩ := of_exec_ok hwp hok
  exact ⟨u, Prod.ext hok hsame, htells⟩

variable (lib s) in
theorem exec_networksForDevice (d : UUID) (w : Nat → RepoInput) :
    ((networksForDevice d).run.exec (handler lib) w s).2 = s := by
  show (DeviceRepo.getByID d (w 0) s).2 = s
  unfold DeviceRepo.getByID
  split <;> rfl

end NexusVPN.Backend
