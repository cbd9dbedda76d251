import NexusVPN.Backend.Bus
import NexusVPN.Client.PeerView

/-! # From the control plane to a client

    A client learns of its peers from `StreamPeerUpdates`.  On the way an event passes the
    bus, which drops what finds a full channel, and a stream that can break and be opened
    again.  Nothing is sent twice: the bus relies on the next heartbeat to refresh what was
    missed. -/

namespace NexusVPN

open List Backend Client Prog Machine Notice CoordinationServer

/-! ## The system -/

/-- An update on its way to the client, with the event it tells of. -/
structure Sent where
  event : PeerEvent
  /-- When the event was published. -/
  stamp : Nat
  update : Proto.PeerUpdate

structure Feed where
  store : Store
  /-- The subscription behind the client's stream, while there is one. -/
  stream : Option (Subscription Nat)
  wire : List Sent
  client : TunnelState
  /-- The number of calls on the control plane so far. -/
  clock : Nat
  /-- When each device was deleted. -/
  deletedAt : UUID → Nat
  /-- For each device, when the last of its heartbeats was published that the client has
      processed. -/
  heardAt : UUID → Nat

inductive FeedStep where
  /-- A call on the control plane by anybody. -/
  | call (c : TopologyCall) (w : Nat → RepoInput)
  /-- The server takes the next event from the channel and sends it. -/
  | send (w : Nat → RepoInput)
  /-- The client processes the next update. -/
  | receive (w : Nat → TunnelInput)
  /-- The stream breaks, and the client still receives `n` updates. -/
  | cut (n : Nat)
  /-- The client opens the stream again, once it has noticed that it broke. -/
  | connect (w : Nat → RepoInput)

/-- The event is published by heartbeats only. -/
def isHeartbeat : PeerEventType → Bool
  | .endpointChanged | .statusChanged => true
  | .joined | .left => false

namespace Feed

variable (lib : StdLib) (clib : ClientLib) (me : UUID)

/-- What the call publishes is offered to the client's subscription. -/
def served (f : Feed) (c : TopologyCall) (w : Nat → RepoInput) : Feed :=
  let store := c.exec lib w f.store
  { f with
    store := store
    stream := f.stream.map fun sub =>
      (f.store.newsSince store).foldl (Subscription.offer (f.clock + 1)) sub
    clock := f.clock + 1
    deletedAt := fun d =>
      if (f.store.devices.get d).isSome && (store.devices.get d).isNone then f.clock + 1
      else f.deletedAt d }

/-- The client's update, processed. -/
def received (f : Feed) (m : Sent) (w : Nat → TunnelInput) : Feed :=
  { f with
    client := ((applyPeerUpdate clib m.update).exec (TunnelState.handler clib) w f.client).2
    heardAt :=
      if isHeartbeat m.event.type then Function.update f.heardAt m.event.deviceID m.stamp
      else f.heardAt }

/-- `me` is the client's own device. -/
def step (f : Feed) : FeedStep → Option Feed
  | .call c w => some (f.served lib c w)
  | .send w =>
    match f.stream with
    | some ⟨networks, (e, stamp) :: queue⟩ =>
      let r := (updateFor lib me e).run.exec (Store.handler lib) w f.store
      some { f with
        store := r.2
        stream := some ⟨networks, queue⟩
        wire := f.wire ++ r.1.toOption.join.toList.map fun u => ⟨e, stamp, u⟩ }
    | _ => none
  | .receive w =>
    match f.wire with
    | m :: wire => some { f.received clib m w with wire := wire }
    | [] => none
  | .cut n =>
    match f.stream with
    | some _ => some { f with stream := none, wire := f.wire.take n }
    | none => none
  | .connect w =>
    match f.stream, f.wire with
    | none, [] =>
      match (CoordinationService.networksForDevice me).run.exec (Store.handler lib) w f.store with
      | (.ok device, store) =>
        some { f with store := store, stream := some ⟨[device.networkID], []⟩ }
      | (.error _, _) => none
    | _, _ => none

/-! ## The property, and when it holds -/

/-- The client has processed everything, and from every other device on its network a
    heartbeat that was published after `d` was deleted. -/
def CaughtUp (f : Feed) (d : UUID) : Prop :=
  ∃ networks, f.stream = some ⟨networks, []⟩ ∧ f.wire = [] ∧
    ∀ id dev, f.store.devices.get id = some dev → id ≠ me → dev.networkID ∈ networks →
      f.deletedAt d < f.heardAt id

/-- A client that has caught up lists only devices that are in the store. -/
def Current (f : Feed) : Prop := ∀ d, f.client.Lists d = true → f.CaughtUp me d → f.store.Has d

/-- The client lists the device, or an update about it is on the way. -/
def InView (f : Feed) (d : UUID) : Prop :=
  f.client.Lists d = true ∨ ∃ m ∈ f.wire, m.event.deviceID = d

/-- A device in the client's view is deleted only while the client's stream is open, is
    about the device's network and has a slot free, and the stream breaks only while all
    devices in the client's view are in the store. -/
def Carried (f : Feed) : FeedStep → Prop
  | .call (.delete d _) _ =>
    f.InView d → ∃ sub, f.stream = some sub ∧
      ∀ dev, f.store.devices.get d = some dev → sub.Takes dev.networkID
  | .cut _ => ∀ d, f.InView d → f.store.Has d
  | _ => True

/-- Before the first stream: the client lists other devices that are in the store. -/
structure Fresh (me : UUID) (f : Feed) : Prop where
  stream : f.stream = none
  wire : f.wire = []
  deviceID : f.client.deviceID = me.string
  lists : ∀ d, f.client.Lists d = true → f.store.Has d ∧ d ≠ me

/-! ## The invariant -/

/-- The departure of the device is waiting in the channel. -/
def Leaving (f : Feed) (d : UUID) : Prop :=
  ∃ sub, f.stream = some sub ∧ ∃ x ∈ sub.queue, x.1.type = .left ∧ x.1.deviceID = d

/-- What the updates on the way say. -/
def notices (f : Feed) : List (Notice UUID) := f.wire.map fun m => noticeOf clib m.update

/-- What is on the wire is about other devices, under their own ids. -/
def Addressed (m : Sent) : Prop :=
  m.event.deviceID ≠ me ∧ m.update.type = peerUpdateTypeToProto m.event.type ∧
    ∃ p, m.update.peer = some p ∧ p.deviceId = m.event.deviceID.string

/-- A device that is not in the store is about to leave, or will not be listed once the
    updates on the way have been processed. -/
structure Sound (clib : ClientLib) (me : UUID) (f : Feed) : Prop where
  deviceID : f.client.deviceID = me.string
  unlisted : f.client.Lists me = false
  addressed : ∀ m ∈ f.wire, Addressed me m
  settled : ∀ d, d ≠ me → ¬ f.store.Has d →
    f.Leaving d ∨ outlook d (f.client.Lists d) (f.notices clib) = false

end Feed

section

open Feed

variable {lib : StdLib} {clib : ClientLib} {me : UUID} {f f' : Feed}
  (hparse : ∀ u : UUID, clib.parseUUID u.string = some u)

include hparse

variable {d : UUID} {e : PeerEvent}

theorem Feed.Addressed.notice {m : Sent} (h : Addressed me m)
    (hd : noticeOf clib m.update = .there d) : m.event.deviceID = d := by
  obtain ⟨-, -, p, hpeer, hid⟩ := h
  have hadd : ∀ {d'}, addable clib p = some d' → m.event.deviceID = d' := by
    intro d' hd'
    simp only [addable, hid, hparse] at hd'
    split at hd'
    · cases hd'
    · exact Option.some.inj hd'
  unfold noticeOf at hd
  rw [hpeer] at hd
  dsimp only at hd
  split at hd
  · rw [hid, hparse] at hd
    cases hd
  · cases hp : addable clib p with
    | none =>
      rw [hp] at hd
      cases hd
    | some d' =>
      rw [hp] at hd
      exact (hadd hp).trans (there.inj hd)

omit hparse in
theorem Feed.lists_of_not_inView (hd : ¬ f.InView d) : f.client.Lists d = false := by
  cases hl : f.client.Lists d with
  | false => rfl
  | true => exact absurd (.inl hl) hd

theorem Feed.Sound.unmentioned (h : Sound clib me f) (hd : ¬ f.InView d) :
    ∀ n ∈ f.notices clib, n ≠ .there d := by
  intro n hn heq
  obtain ⟨m, hm, rfl⟩ := mem_map.mp hn
  exact hd (.inr ⟨m, hm, (h.addressed m hm).notice hparse heq⟩)

/-! ### Calls on the control plane -/

omit hparse in
theorem leaving_served {c : TopologyCall} {w : Nat → RepoInput} (h : f.Leaving d) :
    (f.served lib c w).Leaving d := by
  obtain ⟨sub, hsub, x, hx, hleft⟩ := h
  refine ⟨_, congrArg (Option.map _) hsub, x, ?_, hleft⟩
  obtain ⟨taken, -, hqueue⟩ := Subscription.queue_offers (f.clock + 1) sub
    (f.store.newsSince (c.exec lib w f.store))
  rw [hqueue]
  exact mem_append_left _ hx

omit hparse in
theorem leaving_of_takes {u : UUID} {w : Nat → RepoInput} {dev : Device} {sub : Subscription Nat}
    (hsub : f.stream = some sub) (htakes : sub.Takes dev.networkID)
    (hpub : ((TopologyCall.delete d u).exec lib w f.store).published =
      ⟨.left, dev.networkID, d⟩ :: f.store.published) :
    (f.served lib (.delete d u) w).Leaving d := by
  have hnews : f.store.newsSince ((TopologyCall.delete d u).exec lib w f.store) =
      [⟨.left, dev.networkID, d⟩] := by
    rw [newsSince_of_append (hpub.trans singleton_append.symm)]
    rfl
  refine ⟨_, congrArg (Option.map _) hsub, (⟨.left, dev.networkID, d⟩, f.clock + 1), ?_, rfl, rfl⟩
  rw [hnews]
  show _ ∈ (sub.offer (f.clock + 1) ⟨.left, dev.networkID, d⟩).queue
  unfold Subscription.offer
  rw [if_pos htakes]
  exact mem_append_right _ (mem_singleton_self _)

theorem Feed.Sound.served (h : Sound clib me f) (c : TopologyCall) (w : Nat → RepoInput)
    (hcarry : f.Carried (.call c w)) : Sound clib me (f.served lib c w) := by
  refine ⟨h.deviceID, h.unlisted, h.addressed, ?_⟩
  -- A device that was outside the store before is where it was.
  have hold : ∀ d, d ≠ me → ¬ f.store.Has d → (f.served lib c w).Leaving d ∨
      outlook d (f.client.Lists d) (f.notices clib) = false := by
    intro d hd hgone
    exact (h.settled d hd hgone).imp leaving_served id
  intro d hd hgone
  rcases c.effect w f.store with hgrow | ⟨d', u, dev, rfl, hdev, hdevs, hpub⟩
  · exact hold d hd fun hhas => hgone (hgrow.has d hhas)
  · by_cases heq : d = d'
    · subst heq
      by_cases hview : f.InView d
      · obtain ⟨sub, hsub, htakes⟩ := hcarry hview
        exact .inl (leaving_of_takes hsub (htakes dev hdev) hpub)
      · right
        show outlook d (f.client.Lists d) (f.notices clib) = false
        rw [lists_of_not_inView hview]
        exact outlook_unmentioned (h.unmentioned hparse hview)
    · refine hold d hd fun hhas => hgone ?_
      show (((TopologyCall.delete d' u).exec lib w f.store).devices.get d).isSome = true
      rw [hdevs, Table.get_del, if_neg heq]
      exact hhas

/-! ### The stream -/

theorem addressed_of_tells {u : Proto.PeerUpdate} (h : Tells f.store me e (some u)) (stamp : Nat) :
    Addressed me ⟨e, stamp, u⟩ ∧
      (∀ d, ¬ f.store.Has d → noticeOf clib u ≠ .there d) ∧
      (e.type = .left → noticeOf clib u = .gone e.deviceID) := by
  obtain ⟨hother, htype, p, hpeer, hid, hkey⟩ := h
  have haddr : Addressed me ⟨e, stamp, u⟩ := ⟨hother, htype, p, hpeer, hid⟩
  refine ⟨haddr, ?_, ?_⟩
  · intro d hgone hd
    have heq : e.deviceID = d := haddr.notice hparse hd
    -- Without a row there is no key, and without a key nobody is added.
    have hnokey : p.publicKey = "" := by
      by_contra hne
      exact hgone (heq ▸ hkey hne)
    have hnobody : addable clib p = none := by simp [addable, hnokey]
    unfold noticeOf at hd
    rw [hpeer] at hd
    dsimp only at hd
    split at hd
    · rw [hid, hparse] at hd
      cases hd
    · rw [hnobody] at hd
      cases hd
  · intro hleft
    unfold noticeOf
    rw [hpeer, htype, hleft]
    dsimp only [peerUpdateTypeToProto]
    rw [hid, hparse]
    rfl

theorem Feed.Sound.sent (h : Sound clib me f) {networks : List UUID} {stamp : Nat}
    {queue : List (PeerEvent × Nat)} (hstr : f.stream = some ⟨networks, (e, stamp) :: queue⟩)
    {u : Proto.PeerUpdate} (htells : Tells f.store me e (some u)) :
    Sound clib me
      { f with stream := some ⟨networks, queue⟩, wire := f.wire ++ [⟨e, stamp, u⟩] } := by
  obtain ⟨haddr, hthere, hgone⟩ := addressed_of_tells hparse htells stamp
  have hnotices : ({ f with wire := f.wire ++ [⟨e, stamp, u⟩] } : Feed).notices clib =
      f.notices clib ++ [noticeOf clib u] := map_append
  refine ⟨h.deviceID, h.unlisted, ?_, ?_⟩
  · exact forall_mem_append.mpr ⟨h.addressed, forall_mem_singleton.mpr haddr⟩
  · intro d hd hnot
    show _ ∨ outlook d _ (({ f with wire := f.wire ++ [⟨e, stamp, u⟩] } : Feed).notices clib)
      = false
    rw [hnotices]
    rcases h.settled d hd hnot with ⟨sub, hsub, x, hx, hleft, hdev⟩ | hset
    · cases hstr.symm.trans hsub
      rcases mem_cons.mp hx with rfl | hrest
      · -- It is the departure itself that is sent.
        right
        rw [hgone hleft, hdev]
        exact outlook_gone d _ _
      · exact .inl ⟨_, rfl, x, hrest, hleft, hdev⟩
    · right
      rw [outlook_append, hset]
      exact after_unmentioned (hthere d hnot)

omit hparse in
theorem Feed.Sound.skipped (h : Sound clib me f) {networks : List UUID} {stamp : Nat}
    {queue : List (PeerEvent × Nat)} (hstr : f.stream = some ⟨networks, (e, stamp) :: queue⟩)
    (hown : e.deviceID = me) : Sound clib me { f with stream := some ⟨networks, queue⟩ } := by
  refine ⟨h.deviceID, h.unlisted, h.addressed, ?_⟩
  intro d hd hnot
  rcases h.settled d hd hnot with ⟨sub, hsub, x, hx, hleft, hdev⟩ | hset
  · cases hstr.symm.trans hsub
    rcases mem_cons.mp hx with rfl | hrest
    · exact absurd (hdev.symm.trans hown) hd
    · exact .inl ⟨_, rfl, x, hrest, hleft, hdev⟩
  · exact .inr hset

theorem Feed.Sound.received (h : Sound clib me f) {m : Sent} {wire : List Sent}
    (hwire : f.wire = m :: wire) (w : Nat → TunnelInput) :
    Sound clib me { f.received clib m w with wire := wire } := by
  have hm : Addressed me m := h.addressed m (hwire ▸ mem_cons_self)
  have hother : ∀ p, m.update.peer = some p → p.deviceId ≠ f.client.deviceID := by
    intro p hp heq
    obtain ⟨hne, -, p', hp', hid⟩ := hm
    cases hp.symm.trans hp'
    rw [hid, h.deviceID] at heq
    exact hne (UUID.string_injective heq)
  obtain ⟨hdev, hlists⟩ := wp_exec (wp_applyPeerUpdate clib m.update hother) w
  refine ⟨hdev.trans h.deviceID, ?_, ?_, ?_⟩
  · -- The update is not about the client itself.
    have hme : noticeOf clib m.update ≠ .there me := fun heq => hm.1 (hm.notice hparse heq)
    cases hl : (f.received clib m w).client.Lists me with
    | false => rfl
    | true =>
      have hafter := hlists me hl
      rw [h.unlisted, after_unmentioned hme] at hafter
      cases hafter
  · intro m' hm'
    exact h.addressed m' (hwire ▸ mem_cons_of_mem _ hm')
  · intro d hd hnot
    refine (h.settled d hd hnot).imp id ?_
    intro hset
    rw [Feed.notices, hwire, map_cons, outlook_cons] at hset
    show outlook d _ (wire.map fun m => noticeOf clib m.update) = false
    by_contra htrue
    rw [Bool.not_eq_false] at htrue
    rw [outlook_mono (hlists d) _ htrue] at hset
    cases hset

theorem Feed.Sound.cut (h : Sound clib me f) (hview : ∀ d, f.InView d → f.store.Has d) (n : Nat) :
    Sound clib me { f with stream := none, wire := f.wire.take n } := by
  refine ⟨h.deviceID, h.unlisted, fun m hm => h.addressed m (mem_of_mem_take hm), ?_⟩
  intro d hd hnot
  have hout : ¬ f.InView d := fun hd => hnot (hview d hd)
  right
  show outlook d (f.client.Lists d) ((f.wire.take n).map fun m => noticeOf clib m.update) = false
  rw [lists_of_not_inView hout, map_take]
  exact outlook_unmentioned fun k hk =>
    h.unmentioned hparse hout k (mem_of_mem_take hk)

omit hparse in
theorem Feed.Sound.connected (h : Sound clib me f) (hstr : f.stream = none)
    (networks : List UUID) : Sound clib me { f with stream := some ⟨networks, []⟩ } := by
  refine ⟨h.deviceID, h.unlisted, h.addressed, ?_⟩
  intro d hd hnot
  rcases h.settled d hd hnot with ⟨sub, hsub, -⟩ | hset
  · rw [hstr] at hsub
    cases hsub
  · exact .inr hset

/-! ### Every step -/

/-- A device that has gone is on its way out of the list, if its departure is carried. -/
theorem Feed.Sound.step {a : FeedStep} (h : Sound clib me f) (hcarry : f.Carried a)
    (hstep : f.step lib clib me a = some f') : Sound clib me f' := by
  cases a with
  | call c w =>
    cases hstep
    exact h.served hparse c w hcarry
  | send w =>
    simp only [Feed.step] at hstep
    split at hstep
    · next networks e stamp queue hstr =>
      cases hstep
      obtain ⟨u, hexec, htells⟩ := exec_updateFor lib f.store me e w
      rw [hexec]
      cases u with
      | none =>
        show Sound clib me { f with stream := some ⟨networks, queue⟩, wire := f.wire ++ [] }
        rw [append_nil]
        exact h.skipped hstr htells
      | some u => exact h.sent hparse hstr htells
    · cases hstep
  | receive w =>
    simp only [Feed.step] at hstep
    split at hstep
    · next m wire hwire =>
      cases hstep
      exact h.received hparse hwire w
    · cases hstep
  | cut n =>
    simp only [Feed.step] at hstep
    split at hstep
    · cases hstep
      exact h.cut hparse hcarry n
    · cases hstep
  | connect w =>
    simp only [Feed.step] at hstep
    split at hstep
    · next hstr _ =>
      split at hstep
      · next device store hexec =>
        cases hstep
        have hsame := exec_networksForDevice lib f.store me w
        rw [hexec] at hsame
        obtain rfl : store = f.store := hsame
        exact h.connected hstr [device.networkID]
      · cases hstep
    · cases hstep

omit hparse in
theorem Feed.Sound.current (h : Sound clib me f) : f.Current me := by
  intro d hlists hcaught
  by_contra hnot
  have hd : d ≠ me := by
    rintro rfl
    rw [h.unlisted] at hlists
    cases hlists
  obtain ⟨networks, hstr, hwire, -⟩ := hcaught
  rcases h.settled d hd hnot with ⟨sub, hsub, x, hx, -⟩ | hset
  · cases hstr.symm.trans hsub
    cases hx
  · rw [Feed.notices, hwire, hlists] at hset
    cases hset

end

/-! ## Whole runs -/

/-- As long as the stream can carry every deletion that concerns the client, a client that
    has caught up lists no device that is not in the store. -/
theorem peers_current (lib : StdLib) (clib : ClientLib)
    (hparse : ∀ u : UUID, clib.parseUUID u.string = some u) (me : UUID) (f : Feed)
    (hfresh : f.Fresh me) (as : List FeedStep)
    (hcarry : Along (Feed.step lib clib me) Feed.Carried f as) :
    Throughout (Feed.step lib clib me) (Feed.Current me) f as := by
  have hstart : Feed.Sound clib me f := by
    refine ⟨hfresh.deviceID, ?_, ?_, ?_⟩
    · cases hl : f.client.Lists me with
      | false => rfl
      | true => exact absurd rfl (hfresh.lists me hl).2
    · rw [hfresh.wire]
      exact fun m hm => nomatch hm
    · intro d _ hnot
      right
      rw [Feed.notices, hfresh.wire]
      cases hl : f.client.Lists d with
      | false => rfl
      | true => exact absurd (hfresh.lists d hl).1 hnot
  have hkept := Along.throughout
    (fun f a f' h hc hstep => Feed.Sound.step hparse h hc hstep) hstart hcarry
  exact hkept.mono fun f h => h.current

/-- A user's phone, on which the client runs, their desktop, and their tablet. -/
def phoneID : UUID := .ofBytes [9]

def desktopID : UUID := .ofBytes [8]

def tabletID : UUID := .ofBytes [6]

def feedStore : Store :=
  { Store.empty with
    networks := Table.empty.put ⟨.ofBytes [7], "home", "", "10.77.0.0/24", [], .ofBytes [1], "code",
      none, true, true, 0, 0, 0, 0, .unset⟩
    members := Table.empty.put ⟨.nil, .ofBytes [7], .ofBytes [1], .owner, 0⟩
    devices := ((Table.empty.put (newDevice phoneID (.ofBytes [1]) (.ofBytes [7]) "phone" "android"
      "" "phone-key" "10.77.0.2" false)).put (newDevice desktopID (.ofBytes [1]) (.ofBytes [7])
      "desktop" "linux" "" "desktop-key" "10.77.0.3" false)).put (newDevice tabletID (.ofBytes [1])
      (.ofBytes [7]) "tablet" "android" "" "tablet-key" "10.77.0.4" false) }

def feedLib : ClientLib where
  parseUUID := UUID.parse
  parseIP s := if s = "10.77.0.4" then some [10, 77, 0, 4] else none
  addrString _ := ""
  ipString _ := ""
  decodeKey s := if s = "tablet-key" then some [4] else none

theorem feedLib_parses (u : UUID) : feedLib.parseUUID u.string = some u := by
  dsimp only [feedLib]
  exact UUID.parse_string u

/-- Registration has told the phone of the desktop. -/
def homeFeed : Feed where
  store := feedStore
  stream := none
  wire := []
  client := { TunnelState.new "home" "" ∅ with
    deviceID := phoneID.string
    peers := (∅ : GoMap UUID PeerRef).insert desktopID ⟨0, desktopID, "desktop-key", "10.77.0.3"⟩
    nextRef := 1 }
  clock := 0
  deletedAt _ := 0
  heardAt _ := 0

theorem homeFeed_fresh : homeFeed.Fresh phoneID := by
  refine ⟨rfl, rfl, rfl, ?_⟩
  intro d hd
  have hdesktop : d = desktopID := by
    by_contra hne
    have hnone : homeFeed.client.peers.lookup d = none := by
      dsimp only [homeFeed]
      rw [GoMap.lookup_insert_if, if_neg hne]
      rfl
    rw [TunnelState.Lists, hnone] at hd
    cases hd
  rw [hdesktop]
  decide

/-- The desktop is deleted. -/
def deleteDesktop : FeedStep := .call (.delete desktopID (.ofBytes [1])) fun _ => default

/-- The tablet sends a heartbeat, which is sent on and processed. -/
def hearTablet : List FeedStep :=
  [.call (.heartbeat 60000000000 tabletID noEndpoint noEndpoint "" 0 0) fun _ => default,
   .send fun _ => default,
   .receive fun _ => ⟨0, .asStored, EnvCall.unanswered, none, none⟩]

/-- The desktop is deleted while the stream is open. -/
def carriedRun : List FeedStep :=
  [.connect fun _ => default, deleteDesktop, .send fun _ => default,
   .receive fun _ => ⟨0, .asStored, EnvCall.unanswered, none, none⟩] ++ hearTablet

/-- The desktop is deleted between a break of the stream and the next attempt to open it. -/
def brokenRun : List FeedStep :=
  [.connect fun _ => default, .cut 0, deleteDesktop, .connect fun _ => default] ++ hearTablet

theorem peers_current_phone :
    homeFeed.Fresh phoneID ∧
    Throughout (Feed.step lenientLib feedLib phoneID) (Feed.Current phoneID) homeFeed
      carriedRun := by
  refine ⟨homeFeed_fresh, peers_current lenientLib feedLib feedLib_parses phoneID homeFeed
    homeFeed_fresh carriedRun ?_⟩
  refine along_cons rfl trivial (along_cons rfl ?_ ?_)
  · intro _
    refine ⟨_, rfl, ?_⟩
    intro dev hdev
    cases hdev
    decide
  · -- What follows is neither a deletion nor a break.
    apply along_of_forall_mem
    simp [hearTablet, Feed.Carried]

/-- The departure of the desktop got lost, and no heartbeat brings it back: the phone has
    processed everything, and still lists the desktop. -/
theorem deleted_device_listed :
    homeFeed.Fresh phoneID ∧
    ∃ f, run (Feed.step lenientLib feedLib phoneID) homeFeed brokenRun = some f ∧
      f.CaughtUp phoneID desktopID ∧ f.client.Lists desktopID = true ∧ ¬ f.store.Has desktopID ∧
      ¬ f.Current phoneID := by
  refine ⟨homeFeed_fresh, _, rfl, ⟨_, rfl, rfl, ?others⟩, rfl, ?gone, fun hcur =>
    ?gone (hcur desktopID rfl ⟨_, rfl, rfl, ?others⟩)⟩
  · -- Besides the phone there is only the tablet.
    intro id dev hdev hother _
    have hentry := AList.mem_lookup_iff.mp (Option.mem_def.mpr hdev)
    rcases mem_cons.mp hentry with htablet | hphone
    · obtain ⟨rfl, -⟩ := Sigma.mk.inj htablet
      decide
    · obtain ⟨rfl, -⟩ := Sigma.mk.inj (mem_singleton.mp hphone)
      exact absurd rfl hother
  · decide

end NexusVPN
