import NexusVPN.Backend.Bus

/-! # Who is told of peer events

    `Hub.ServeHTTP` and `StreamPeerUpdates` look up what a connection is about when it is
    opened, and pass on from then on whatever the bus delivers.  Meanwhile members, devices and
    networks come and go.  Whatever is written to a connection should have been published
    while its user was a member, and its device there. -/

namespace NexusVPN.Backend

open List Prog Option Table Machine

/-! ## Connections -/

def MemberRepo.listNetworkIDsForUser (userID : UUID) : Method (List UUID) := fun i s =>
  (.ok (((s.members.values i.memberOrder).filter (·.userID == userID)).map (·.networkID)), s)

/-- A WebSocket, or the stream of a device. -/
structure Conn where
  user : UUID
  /-- The device that `StreamPeerUpdates` was called for. -/
  device : Option UUID
  networks : List UUID
  /-- Nothing between the lookup and `Subscribe`.  The note on an event is the store in
      which it was published. -/
  sub : Option (Subscription Store)

/-- An event that was written to a connection. -/
structure Written where
  user : UUID
  device : Option UUID
  event : PeerEvent
  publishedIn : Store

namespace Conn

/-- An event is published while the store is `s`. -/
def hear (s : Store) (e : PeerEvent) (k : Conn) : Conn :=
  { k with sub := k.sub.map fun sub => sub.offer s e }

/-- `Subscribe`. -/
def subscribed (k : Conn) : Option Conn :=
  match k.sub with
  | none => some { k with sub := some ⟨k.networks, []⟩ }
  | some _ => none

/-- The next event, with the store in which it was published. -/
def next (k : Conn) : Option ((PeerEvent × Store) × Conn) :=
  match k.sub with
  | some ⟨networks, x :: queue⟩ => some (x, { k with sub := some ⟨networks, queue⟩ })
  | _ => none

/-- What is written for an event; a device's own events are not echoed back to it. -/
def writes (k : Conn) (x : PeerEvent × Store) : List Written :=
  if k.device = some x.1.deviceID then [] else [⟨k.user, k.device, x.1, x.2⟩]

end Conn

/-! ## The system -/

structure Plane where
  store : Store
  conns : List Conn
  written : List Written

open Conn

/-- A repository call, which may publish an event. -/
def Plane.handler (lib : StdLib) : Handler repoIface Plane RepoInput := fun c i p =>
  let r := Store.method lib c i p.store
  let conns :=
    match c with
    | .publish e => p.conns.map (hear p.store e)
    | _ => p.conns
  (r.1, { p with store := r.2, conns := conns })

inductive Request where
  | rest (c : RestCall)
  /-- `CoordinationService.Heartbeat`. -/
  | heartbeat (presenceTTL : Int) (d : UUID) (publicEP privateEP : PresenceEndpoint)
      (natType : String) (bytesSent bytesReceived : UInt64)

def Request.body (lib : StdLib) : Request → Prog repoIface Unit
  | .rest c => (c.serve lib).run >>= fun _ => .ret ()
  | .heartbeat ttl d pub priv nat sent received =>
    (CoordinationService.heartbeat ttl d pub priv nat sent received).run >>= fun _ => .ret ()

abbrev PlanePool := Pool repoIface Plane Request Unit

inductive ConnStep where
  /-- `Hub.ServeHTTP` lists the networks of the user. -/
  | openSocket (u : UUID) (i : RepoInput)
  /-- `StreamPeerUpdates` looks up the device. -/
  | openStream (u d : UUID) (i : RepoInput)
  | subscribe (n : Nat)
  /-- The next event of the subscription is written to the connection. -/
  | write (n : Nat)
  | close (n : Nat)

def Plane.connStep (lib : StdLib) (p : Plane) : ConnStep → Option Plane
  | .openSocket u i =>
    match (MemberRepo.listNetworkIDsForUser u i p.store).1 with
    | .ok networks => some { p with conns := p.conns ++ [⟨u, none, networks, none⟩] }
    | .error _ => none
  | .openStream u d i =>
    match (Store.method lib (.devices (.getByID d)) i p.store).1 with
    | .ok device => some { p with conns := p.conns ++ [⟨u, some d, [device.networkID], none⟩] }
    | .error _ => none
  | .subscribe n =>
    (p.conns[n]?.bind subscribed).map fun k => { p with conns := p.conns.set n k }
  | .write n =>
    p.conns[n]?.bind fun k => k.next.map fun r =>
      { p with conns := p.conns.set n r.2, written := k.writes r.1 ++ p.written }
  | .close n => some { p with conns := p.conns.eraseIdx n }

inductive StreamStep where
  /-- A request comes in, or makes its next repository call. -/
  | request (a : Pool.Action Request RepoInput)
  | conn (a : ConnStep)

def streamStep (lib : StdLib) (p : PlanePool) : StreamStep → Option PlanePool
  | .request a => p.step (Plane.handler lib) (Request.body lib) (fun _ => none) a
  | .conn a => (p.shared.connStep lib a).map fun shared => { p with shared := shared }

/-! ## The property, and when it holds -/

/-- The user was a member of the event's network when the event was published, and the
    device that subscribed was there. -/
def Written.Entitled (w : Written) : Prop :=
  w.publishedIn.IsMember w.event.networkID w.user ∧ ∀ d ∈ w.device, w.publishedIn.Has d

def StreamsRespectMembership (p : PlanePool) : Prop := ∀ w ∈ p.shared.written, w.Entitled

instance (w : Written) : Decidable w.Entitled := inferInstanceAs (Decidable (_ ∧ _))

instance (p : PlanePool) : Decidable (StreamsRespectMembership p) :=
  inferInstanceAs (Decidable (∀ w ∈ _, _))

/-- The call removes a row that the connection was opened on. -/
def Undermines (s : Store) (k : Conn) : RepoCall → Prop
  | .members (.delete n u) =>
    (k.user = u ∧ n ∈ k.networks) ∨
      ∃ dev ∈ k.device.bind s.devices.get, dev.networkID = n ∧ dev.userID = u
  | .networks (.delete n) =>
    n ∈ k.networks ∨ ∃ dev ∈ k.device.bind s.devices.get, dev.networkID = n
  | .devices (.delete d) => k.device = some d
  | _ => False

instance (s : Store) (k : Conn) (c : RepoCall) : Decidable (Undermines s k c) := by
  unfold Undermines
  split <;> infer_instance

/-- A stream is opened only by a member of the device's network, and nothing is removed
    that a connection was opened on. -/
def Vetted (p : PlanePool) : StreamStep → Prop
  | .request (.advance n _) =>
    match p.threads[n]? with
    | some (_, .call c _) => ∀ k ∈ p.shared.conns, ¬ Undermines p.shared.store k c
    | _ => True
  | .conn (.openStream u d _) =>
    ∀ dev ∈ p.shared.store.devices.get d, p.shared.store.IsMember dev.networkID u
  | _ => True

instance (p : PlanePool) (a : StreamStep) : Decidable (Vetted p a) := by
  unfold Vetted
  split
  · split <;> infer_instance
  · infer_instance
  · infer_instance

/-! ## The invariant -/

/-- The rows that the connection was opened on are there. -/
structure Grounded (s : Store) (k : Conn) : Prop where
  member : ∀ n ∈ k.networks, s.IsMember n k.user
  device : ∀ d ∈ k.device, s.Has d

/-- What is waiting for the connection may be written to it. -/
structure Conn.Proper (k : Conn) : Prop where
  scope : ∀ sub ∈ k.sub, sub.networks = k.networks
  entitled : ∀ sub ∈ k.sub, ∀ x ∈ sub.queue, Written.Entitled ⟨k.user, k.device, x.1, x.2⟩

structure Plane.Sound (p : Plane) : Prop where
  conns : ∀ k ∈ p.conns, Grounded p.store k ∧ k.Proper
  entitled : ∀ w ∈ p.written, w.Entitled

variable {lib : StdLib} {s : Store} {k : Conn} {p p' : Plane}

/-! ### Repository calls -/

theorem get_deleteLoop_of_stays {K V : Type} [DecidableEq K] {key : V → K} {t : Table K V key}
    {ord : MapOrder K} {gone : V → Bool} {id : K} {v : V} (h : t.get id = some v)
    (hstays : gone v = false) : (t.deleteLoop ord gone).get id = some v := by
  rw [get_deleteLoop, h]
  simp [hstays]

/-- The device of the connection stays where the loop spares its row. -/
theorem Grounded.has_spared {gone : Device → Bool} {ord : MapOrder UUID} (h : Grounded s k)
    (hspared : ∀ dev ∈ k.device.bind s.devices.get, gone dev = false) :
    ∀ d ∈ k.device, ((s.devices.deleteLoop ord gone).get d).isSome := by
  intro d hd
  obtain ⟨dev, hdev⟩ := isSome_iff_exists.mp (h.device d hd)
  have hstays := hspared dev (bind_eq_some_iff.mpr ⟨d, hd, hdev⟩)
  exact isSome_iff_exists.mpr ⟨dev, get_deleteLoop_of_stays hdev hstays⟩

theorem Grounded.removeMember {n u : UUID} (h : Grounded s k)
    (hc : ¬ Undermines s k (.members (.delete n u))) (i : RepoInput) :
    Grounded (MemberRepo.delete n u i s).2 k := by
  unfold MemberRepo.delete
  split
  · exact h
  · refine ⟨?_, h.has_spared fun dev hdev => Bool.eq_false_iff.mpr fun hgone => ?_⟩
    · intro n' hn'
      obtain ⟨m, hm⟩ := h.member n' hn'
      refine ⟨m, ?_⟩
      show (s.members.del ⟨n, u⟩).get ⟨n', k.user⟩ = some m
      rw [get_del, if_neg]
      · exact hm
      · intro heq
        obtain ⟨rfl, huser⟩ := MemberKey.mk.inj heq
        exact hc (.inl ⟨huser, hn'⟩)
    · exact hc (.inr ⟨dev, hdev, by simpa using hgone⟩)

theorem Grounded.deleteNetwork {n : UUID} (h : Grounded s k)
    (hc : ¬ Undermines s k (.networks (.delete n))) (i : RepoInput) :
    Grounded (NetworkRepo.delete n i s).2 k := by
  unfold NetworkRepo.delete
  split
  · exact h
  · refine ⟨?_, h.has_spared fun dev hdev => Bool.eq_false_iff.mpr fun hgone => ?_⟩
    · intro n' hn'
      obtain ⟨m, hm⟩ := h.member n' hn'
      have hnet : m.networkID = n' := congrArg MemberKey.network (key_of_get hm)
      have hstays : (m.networkID == n) = false := by
        rw [hnet, beq_eq_false_iff_ne]
        rintro rfl
        exact hc (.inl hn')
      exact ⟨m, get_deleteLoop_of_stays hm hstays⟩
    · exact hc (.inr ⟨dev, hdev, eq_of_beq hgone⟩)

theorem Grounded.deleteDevice {d : UUID} (h : Grounded s k)
    (hc : ¬ Undermines s k (.devices (.delete d))) (i : RepoInput) :
    Grounded (DeviceRepo.delete d i s).2 k := by
  unfold DeviceRepo.delete
  split
  · exact h
  · refine ⟨h.member, ?_⟩
    intro d' hd'
    have hne : d' ≠ d := by
      rintro rfl
      exact hc hd'
    show ((s.devices.del d).get d').isSome = true
    rw [get_del, if_neg hne]
    exact h.device d' hd'

theorem Grounded.method {c : RepoCall} (h : Grounded s k) (hc : ¬ Undermines s k c)
    (i : RepoInput) : Grounded (Store.method lib c i s).2 k := by
  rcases c.mild_cases with hmild | ⟨dev, hplace⟩ | ⟨d, rfl⟩ | ⟨n, u, rfl⟩ | ⟨n, rfl⟩
  · exact ⟨fun n hn => (mild_method lib hmild i s).2 n _ (h.member n hn),
      fun d hd => has_robust d c hmild i s (h.device d hd)⟩
  · refine ⟨?_, fun d hd => has_placed lib hplace i (h.device d hd)⟩
    intro n hn
    show ∃ m, (Store.method lib c i s).2.members.get _ = some m
    rw [(placed_method lib hplace i s).1]
    exact h.member n hn
  · exact h.deleteDevice hc i
  · exact h.removeMember hc i
  · exact h.deleteNetwork hc i

/-! ### Events -/

theorem Conn.Proper.hear (h : k.Proper) (hground : Grounded s k) (e : PeerEvent) :
    (k.hear s e).Proper := by
  constructor
  · intro sub hsub
    obtain ⟨sub₀, hsub₀, rfl⟩ := map_eq_some_iff.mp hsub
    rw [Subscription.networks_offer]
    exact h.scope sub₀ hsub₀
  · intro sub hsub x hx
    obtain ⟨sub₀, hsub₀, rfl⟩ := map_eq_some_iff.mp hsub
    unfold Subscription.offer at hx
    split at hx
    · next htakes =>
      rcases mem_append.mp hx with hold | hnew
      · exact h.entitled sub₀ hsub₀ x hold
      · rw [mem_singleton.mp hnew]
        have hscope := htakes.1
        rw [h.scope sub₀ hsub₀] at hscope
        exact ⟨hground.member _ hscope, hground.device⟩
    · exact h.entitled sub₀ hsub₀ x hx

theorem Plane.Sound.call {c : RepoCall} (h : p.Sound)
    (hc : ∀ k ∈ p.conns, ¬ Undermines p.store k c) (i : RepoInput) :
    (Plane.handler lib c i p).2.Sound := by
  have hstays : ∀ k ∈ p.conns, Grounded (Store.method lib c i p.store).2 k ∧ k.Proper :=
    fun k hk => ⟨(h.conns k hk).1.method (hc k hk) i, (h.conns k hk).2⟩
  by_cases hpub : ∃ e, c = .publish e
  · obtain ⟨e, rfl⟩ := hpub
    refine ⟨?_, h.entitled⟩
    intro k hk
    obtain ⟨k₀, hk₀, rfl⟩ := mem_map.mp hk
    obtain ⟨hground, hprop⟩ := h.conns k₀ hk₀
    exact ⟨⟨(hstays k₀ hk₀).1.member, (hstays k₀ hk₀).1.device⟩, hprop.hear hground e⟩
  · have hconns : (Plane.handler lib c i p).2.conns = p.conns := by
      unfold Plane.handler
      split
      · next e => exact absurd ⟨e, rfl⟩ hpub
      · rfl
    refine ⟨?_, h.entitled⟩
    rw [hconns]
    exact hstays

/-! ### Connections -/

theorem Plane.Sound.open (h : p.Sound) {u : UUID} {device : Option UUID} {networks : List UUID}
    (hk : Grounded p.store ⟨u, device, networks, none⟩) :
    ({ p with conns := p.conns ++ [⟨u, device, networks, none⟩] } : Plane).Sound :=
  ⟨forall_mem_append.mpr ⟨h.conns, forall_mem_singleton.mpr ⟨hk, by simp, by simp⟩⟩, h.entitled⟩

/-- A connection goes on with another queue, which holds only what may be written to it. -/
theorem Plane.Sound.requeue (h : p.Sound) {n : Nat} {queue : List (PeerEvent × Store)}
    (hk : p.conns[n]? = some k)
    (hqueue : ∀ x ∈ queue, Written.Entitled ⟨k.user, k.device, x.1, x.2⟩) :
    ({ p with conns := p.conns.set n { k with sub := some ⟨k.networks, queue⟩ } } :
      Plane).Sound := by
  obtain ⟨hmember, hdevice⟩ := (h.conns k (mem_of_getElem? hk)).1
  refine ⟨forall_mem_set h.conns ⟨⟨hmember, hdevice⟩, ?_, ?_⟩, h.entitled⟩
  · rintro _ ⟨⟩
    rfl
  · rintro _ ⟨⟩
    exact hqueue

/-- Opening, subscribing, writing and closing keep the streams within their networks. -/
theorem Plane.Sound.connStep {a : ConnStep} (h : p.Sound)
    (hopen : ∀ u d i, a = .openStream u d i → ∀ dev ∈ p.store.devices.get d,
      p.store.IsMember dev.networkID u)
    (hstep : p.connStep lib a = some p') : p'.Sound := by
  cases a with
  | openSocket u i =>
    cases hstep
    refine h.open ⟨?_, nofun⟩
    -- The networks are read off the member rows.
    intro n hn
    obtain ⟨m, hm, rfl⟩ := mem_map.mp hn
    obtain ⟨hvalue, huser⟩ := mem_filter.mp hm
    have hrow : p.store.members.get m.key = some m := mem_values.mp hvalue
    rw [beq_iff_eq] at huser
    subst huser
    exact ⟨m, hrow⟩
  | openStream u d i =>
    simp only [Plane.connStep, Store.method, Store.deviceMethod, DeviceRepo.getByID] at hstep
    cases hdev : p.store.devices.get d with
    | none =>
      rw [hdev] at hstep
      cases hstep
    | some dev =>
      rw [hdev] at hstep
      cases hstep
      refine h.open ⟨?_, ?_⟩
      · intro n hn
        rw [mem_singleton.mp hn]
        exact hopen u d i rfl dev hdev
      · intro d' hd'
        cases hd'
        exact isSome_iff_exists.mpr ⟨dev, hdev⟩
  | subscribe n =>
    obtain ⟨k', hk', rfl⟩ := map_eq_some_iff.mp hstep
    obtain ⟨k, hk, hsubscribed⟩ := bind_eq_some_iff.mp hk'
    unfold subscribed at hsubscribed
    split at hsubscribed
    · cases hsubscribed
      exact h.requeue hk (forall_mem_nil _)
    · cases hsubscribed
  | write n =>
    obtain ⟨k, hk, hnext⟩ := bind_eq_some_iff.mp hstep
    obtain ⟨⟨x, k'⟩, hr, rfl⟩ := map_eq_some_iff.mp hnext
    unfold Conn.next at hr
    split at hr
    · next networks x' queue hsub =>
      obtain ⟨rfl, rfl⟩ := Prod.mk.inj (some.inj hr)
      obtain ⟨hscope, hqueue⟩ := (h.conns k (mem_of_getElem? hk)).2
      replace hqueue := forall_mem_cons.mp (hqueue _ hsub)
      obtain rfl : networks = k.networks := hscope _ hsub
      refine ⟨(h.requeue hk hqueue.2).conns, forall_mem_append.mpr ⟨?_, h.entitled⟩⟩
      intro w hnew
      unfold writes at hnew
      split at hnew
      · cases hnew
      · rw [mem_singleton.mp hnew]
        exact hqueue.1
    · cases hr
  | close n =>
    cases hstep
    exact ⟨fun k hk => h.conns k (mem_of_mem_eraseIdx hk), h.entitled⟩

/-! ## Whole runs -/

theorem sound_step {p p' : PlanePool} {a : StreamStep} (h : p.shared.Sound) (hvetted : Vetted p a)
    (hstep : streamStep lib p a = some p') : p'.shared.Sound := by
  cases a with
  | request a =>
    rcases Pool.step_cases hstep with ⟨t, -, rfl⟩ | ⟨n, i, t, c, next, rfl, hn, rfl⟩
    · exact h
    · simp only [Vetted, hn] at hvetted
      exact h.call hvetted i
  | conn a =>
    obtain ⟨shared, hshared, rfl⟩ := map_eq_some_iff.mp hstep
    refine h.connStep ?_ hshared
    rintro u d i rfl
    exact hvetted

/-- As long as streams are opened by members and nothing is removed that a connection was
    opened on, whatever is written to a connection was published while its user was a
    member of the network, and its device was there. -/
theorem streams_respect_membership (lib : StdLib) (store : Store) (as : List StreamStep)
    (hvetted : Along (streamStep lib) Vetted ⟨⟨store, [], []⟩, []⟩ as) :
    Throughout (streamStep lib) StreamsRespectMembership ⟨⟨store, [], []⟩, []⟩ as := by
  have hstart : (⟨store, [], []⟩ : Plane).Sound := ⟨by simp, by simp⟩
  have hkept := Along.throughout
    (fun p a p' (h : p.shared.Sound) hc hstep => sound_step h hc hstep) hstart hvetted
  exact hkept.mono fun p h => h.entitled

/-- A home network of user 1 with a tablet on it, and user 2 as a guest with a phone. -/
def visitedStore : Store :=
  { guestStore with
    devices := guestStore.devices.put (newDevice (.ofBytes [6]) (.ofBytes [1]) (.ofBytes [7])
      "tablet" "android" "" "tablet key" "10.77.0.4" false) }

/-- The request comes in and makes `count` repository calls. -/
def served (n : Nat) (q : Request) (count : Nat) : List StreamStep :=
  .request (.spawn q) :: List.replicate count (.request (.advance n default))

/-- The guest is removed from the network. -/
def guestRemoved (n : Nat) : List StreamStep :=
  served n (.rest (.removeMember (.ofBytes [7]) (.ofBytes [1]) (.ofBytes [2]))) 3

/-- A device sends a heartbeat. -/
def heartbeatOf (d : UUID) (n : Nat) : List StreamStep :=
  served n (.heartbeat 60000000000 d CoordinationServer.noEndpoint CoordinationServer.noEndpoint
    "" 0 0) 5

/-- The guest's WebSocket is told of a heartbeat, and the guest is removed once it has been
    closed. -/
def visit : List StreamStep :=
  [.conn (.openSocket (.ofBytes [2]) default), .conn (.subscribe 0)] ++
    heartbeatOf (.ofBytes [6]) 0 ++ [.conn (.write 0), .conn (.close 0)] ++ guestRemoved 1

theorem streams_respect_membership_guest :
    Throughout (streamStep lenientLib) StreamsRespectMembership
      ⟨⟨visitedStore, [], []⟩, []⟩ visit :=
  streams_respect_membership lenientLib visitedStore visit (by decide +kernel)

/-- The guest is removed while the WebSocket is open. -/
def eviction : List StreamStep :=
  [.conn (.openSocket (.ofBytes [2]) default), .conn (.subscribe 0)] ++ guestRemoved 0 ++
    heartbeatOf (.ofBytes [6]) 1 ++ [.conn (.write 0)]

/-- Somebody who has never been a member opens a stream in the name of the tablet. -/
def intrusion : List StreamStep :=
  [.conn (.openStream (.ofBytes [5]) (.ofBytes [6]) default), .conn (.subscribe 0)] ++
    heartbeatOf (.ofBytes [9]) 0 ++ [.conn (.write 0)]

/-- Both are told of a heartbeat on a network of which they are not members. -/
theorem streams_outlive_membership :
    (∃ p, run (streamStep lenientLib) ⟨⟨visitedStore, [], []⟩, []⟩ eviction = some p ∧
      ¬ StreamsRespectMembership p) ∧
    ∃ p, run (streamStep lenientLib) ⟨⟨visitedStore, [], []⟩, []⟩ intrusion = some p ∧
      ¬ StreamsRespectMembership p := by
  have hfails : ∀ as, (run (streamStep lenientLib) ⟨⟨visitedStore, [], []⟩, []⟩ as).map
      (fun p => decide (StreamsRespectMembership p)) = some false →
      ∃ p, run (streamStep lenientLib) ⟨⟨visitedStore, [], []⟩, []⟩ as = some p ∧
        ¬ StreamsRespectMembership p := by
    intro as has
    obtain ⟨p, hrun, hp⟩ := map_eq_some_iff.mp has
    exact ⟨p, hrun, of_decide_eq_false hp⟩
  exact ⟨hfails eviction (by decide +kernel), hfails intrusion (by decide +kernel)⟩

end NexusVPN.Backend
