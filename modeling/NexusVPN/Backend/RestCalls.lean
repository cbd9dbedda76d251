import NexusVPN.Backend.ServiceLogic

/-! # Service calls and what they keep

    The calls that users can make on the control plane, and how to show that one of
    them keeps an invariant of the store.  Nearly all repository calls are mild: they
    take away no member and no device and leave every device where it belongs.  An
    invariant that survives these has to be looked at only where a service registers a
    device or removes something. -/

namespace NexusVPN.Backend

open Prog Option Table Store NetworkService DeviceRepo CoordinationService

/-! ## Calls -/

inductive RestCall where
  | createNetwork (u : UUID) (name description cidr : String) (dnsServers : List String)
  | listNetworks (u : UUID)
  | getNetwork (n u : UUID)
  | updateNetwork (n u : UUID) (name description cidr : Option String)
      (dnsServers : Option (List String))
  | deleteNetwork (n u : UUID)
  | joinNetwork (u : UUID) (inviteCode : String)
  | rotateInvite (n u : UUID)
  | listMembers (n u : UUID)
  | updateMemberRole (n u target : UUID) (role : NetworkRole)
  | removeMember (n u target : UUID)
  | registerDevice (u n : UUID) (name os osVersion publicKey : String)
  | listDevices (n u : UUID)
  | getDevice (d u : UUID)
  | deleteDevice (d u : UUID)
  | heartbeat (d u : UUID) (publicIP privateIP natType : Option String) (sent received : Int)
  | listPeers (d u : UUID)
  /-- Not REST, but it makes devices too. -/
  | coordinate (u n : UUID) (input : RegisterDeviceInput)

@[reducible] def RestCall.Result : RestCall → Type
  | .createNetwork .. | .getNetwork .. | .updateNetwork .. | .joinNetwork .. => Network
  | .listNetworks _ => List Network
  | .deleteNetwork .. | .updateMemberRole .. | .removeMember .. | .deleteDevice ..
  | .heartbeat .. => Unit
  | .rotateInvite .. => String × Option Time
  | .listMembers .. => List NetworkMember
  | .registerDevice .. | .getDevice .. => Device
  | .listDevices .. | .listPeers .. => List Device
  | .coordinate .. => RegisteredDevice

/-- The service that the call ends up in. -/
def RestCall.serve (lib : StdLib) : (c : RestCall) → Svc c.Result
  | .createNetwork u name description cidr dns =>
    create lib u name description cidr dns
  | .listNetworks u => listForUser u
  | .getNetwork n u => get n u
  | .updateNetwork n u name description cidr dns =>
    update lib n u name description cidr dns
  | .deleteNetwork n u => delete n u
  | .joinNetwork u code => join u code
  | .rotateInvite n u => NetworkService.rotateInvite n u
  | .listMembers n u => NetworkService.listMembers n u
  | .updateMemberRole n u target role => NetworkService.updateMemberRole n u target role
  | .removeMember n u target => NetworkService.removeMember n u target
  | .registerDevice u n name os osVersion key =>
    DeviceService.register u n name os osVersion key
  | .listDevices n u => DeviceService.listForNetwork n u
  | .getDevice d u => DeviceService.get d u
  | .deleteDevice d u => DeviceService.delete d u
  | .heartbeat d u pub priv nat sent received =>
    DeviceService.heartbeat d u pub priv nat sent received
  | .listPeers d u => DeviceService.listPeers d u
  | .coordinate u n input => CoordinationService.registerDevice u n input

/-- One call after the other, each with whatever it reads from outside. -/
def RestCall.step (lib : StdLib) (s : Store) (a : RestCall × (Nat → RepoInput)) : Option Store :=
  some ((a.1.serve lib).run.exec (handler lib) a.2 s).2

/-- The user is a member of the network. -/
def Store.IsMember (s : Store) (n u : UUID) : Prop := ∃ m, s.member n u = some m

instance (s : Store) (n u : UUID) : Decidable (s.IsMember n u) :=
  decidable_of_iff ((s.member n u).isSome = true) isSome_iff_exists

/-! ## What a repository call does -/

/-- Whose device it is, on which network, under which key. -/
def Device.owned (d : Device) : UUID × UUID × String := (d.userID, d.networkID, d.publicKey)

/-- What a call answers and leaves: the store as it was, or with one thing done to it. -/
inductive Store.Outcome (s : Store) (i : RepoInput) :
    (c : RepoCall) → Except DomainError c.Result × Store → Prop
  | same {c : RepoCall} (a : Except DomainError c.Result) : Outcome s i c (a, s)
  /-- Presence, candidates and relays are beside the tables. -/
  | aside {c : RepoCall} (a : Except DomainError c.Result) {s' : Store}
      (networks : s'.networks = s.networks) (members : s'.members = s.members)
      (devices : s'.devices = s.devices) (published : s'.published = s.published) :
      Outcome s i c (a, s')
  | publish {e : PeerEvent} :
      Outcome s i (.publish e) (.ok (), { s with published := e :: s.published })
  | createNetwork {n n' : Network}
      (new : n' = { n with
        id := orFresh n.id i.fresh, createdAt := i.now, updatedAt := i.now }) :
      Outcome s i (.networks (.create n)) (.ok n', { s with networks := s.networks.put n' })
  | updateNetwork {n n' : Network} (there : (s.networks.get n.id).isSome)
      (new : n' = { n with updatedAt := i.now }) :
      Outcome s i (.networks (.update n)) (.ok n', { s with networks := s.networks.put n' })
  | rotateInviteCode {id : UUID} {code : String} {expires : Option Time} {n n' : Network}
      (there : s.networks.get id = some n)
      (new : n' = { n with
        inviteCode := code, inviteCodeExpiresAt := expires, updatedAt := i.now }) :
      Outcome s i (.networks (.rotateInviteCode id code expires))
        (.ok (), { s with networks := s.networks.put n' })
  | deleteNetwork {id : UUID} : Outcome s i (.networks (.delete id)) (.ok (), { s with
      networks := s.networks.del id
      members := s.members.deleteLoop i.memberOrder (·.networkID == id)
      devices := s.devices.deleteLoop i.order (·.networkID == id) })
  | createMember {m m' : NetworkMember} (absent : s.members.get m.key = none)
      (new : m' = { m with id := orFresh m.id i.fresh, joinedAt := i.now }) :
      Outcome s i (.members (.create m)) (.ok m', { s with members := s.members.put m' })
  | updateRole {n u : UUID} {role : NetworkRole} {m m' : NetworkMember}
      (there : s.members.get ⟨n, u⟩ = some m) (new : m' = { m with role := role }) :
      Outcome s i (.members (.updateRole n u role)) (.ok (), { s with members := s.members.put m' })
  | deleteMember {n u : UUID} : Outcome s i (.members (.delete n u)) (.ok (), { s with
      members := s.members.del ⟨n, u⟩
      devices := s.devices.deleteLoop i.order fun d => d.networkID == n && d.userID == u })
  | createDevice {d d' : Device}
      (new : d' = { d with
        id := orFresh d.id i.fresh, createdAt := i.now, updatedAt := i.now }) :
      Outcome s i (.devices (.create d)) (.ok d', { s with devices := s.devices.put d' })
  | updateDevice {d d' : Device} (there : (s.devices.get d.id).isSome)
      (new : d' = { d with updatedAt := i.now }) :
      Outcome s i (.devices (.update d)) (.ok d', { s with devices := s.devices.put d' })
  | heartbeat {id : UUID} {status : DeviceStatus} {pub priv nat : Option String}
      {sent received : Int} {d d' : Device} (there : s.devices.get id = some d)
      (id_eq : d'.id = id) (owned_eq : d'.owned = d.owned) (ip_eq : d'.virtualIP = d.virtualIP) :
      Outcome s i (.devices (.updateHeartbeat id status pub priv nat sent received))
        (.ok (), { s with devices := s.devices.put d' })
  | deleteDevice {id : UUID} : Outcome s i (.devices (.delete id))
      (.ok (), { s with devices := s.devices.del id })

variable {lib : StdLib} {s : Store}

section

variable (lib) (i : RepoInput) (s : Store)

theorem outcome_networkMethod (c : NetworkCall) :
    Outcome s i (.networks c) (networkMethod lib c i s) := by
  cases c with
  | create n =>
    simp only [networkMethod, NetworkRepo.create]
    split
    · exact .same _
    · exact .createNetwork rfl
  | getByID id =>
    simp only [networkMethod, NetworkRepo.getByID]
    split <;> exact .same _
  | getByInviteCode code =>
    simp only [networkMethod, NetworkRepo.getByInviteCode]
    split
    · exact .same _
    · split <;> exact .same _
  | update n =>
    simp only [networkMethod, NetworkRepo.update]
    split
    · exact .same _
    · next hold => exact .updateNetwork (isSome_of_mem hold) rfl
  | delete id =>
    simp only [networkMethod, NetworkRepo.delete]
    split
    · exact .same _
    · exact .deleteNetwork
  | rotateInviteCode id code expires =>
    simp only [networkMethod, NetworkRepo.rotateInviteCode]
    split
    · exact .same _
    · next hold => exact .rotateInviteCode hold rfl
  | listForUser | countMembers | countDevices => exact .same _

theorem outcome_memberMethod (c : MemberCall) : Outcome s i (.members c) (memberMethod c i s) := by
  cases c with
  | create m =>
    simp only [memberMethod, MemberRepo.create]
    split
    · exact .same _
    · next hnone => exact .createMember hnone rfl
  | get n u =>
    simp only [memberMethod, MemberRepo.get]
    split <;> exact .same _
  | list n => exact .same _
  | updateRole n u role =>
    simp only [memberMethod, MemberRepo.updateRole]
    split
    · exact .same _
    · next hold => exact .updateRole hold rfl
  | delete n u =>
    simp only [memberMethod, MemberRepo.delete]
    split
    · exact .same _
    · exact .deleteMember

theorem outcome_deviceMethod (c : DeviceCall) :
    Outcome s i (.devices c) (deviceMethod lib c i s) := by
  cases c with
  | create d =>
    simp only [deviceMethod, DeviceRepo.create]
    split
    · exact .same _
    · exact .createDevice rfl
  | getByID id =>
    simp only [deviceMethod, getByID]
    split <;> exact .same _
  | getByPublicKey key =>
    simp only [deviceMethod, getByPublicKey]
    split <;> exact .same _
  | listByNetwork n => exact .same _
  | listPeers id =>
    simp only [deviceMethod, listPeers]
    split <;> exact .same _
  | update d =>
    simp only [deviceMethod, DeviceRepo.update]
    split
    · exact .same _
    · next hold => exact .updateDevice (isSome_of_mem hold) rfl
  | updateHeartbeat id status pub priv nat sent received =>
    simp only [deviceMethod, updateHeartbeat]
    split
    · exact .same _
    · next d hold =>
      have hid : d.id = id := key_of_get hold
      exact .heartbeat hold hid rfl rfl
  | delete id =>
    simp only [deviceMethod, DeviceRepo.delete]
    split
    · exact .same _
    · exact .deleteDevice
  | nextFreeVirtualIP n cidr =>
    simp only [deviceMethod, nextFreeVirtualIP]
    split <;> exact .same _

/-- The list of outcomes is complete. -/
theorem outcome_method (c : RepoCall) : Outcome s i c (method lib c i s) := by
  cases c with
  | networks c => exact outcome_networkMethod lib i s c
  | members c => exact outcome_memberMethod i s c
  | devices c => exact outcome_deviceMethod lib i s c
  | presence d =>
    simp only [method, PresenceStore.get]
    split
    · exact .same _
    · split <;> exact .same _
  | getICE a b =>
    simp only [method, ICEStore.get]
    split
    · exact .same _
    · split <;> exact .same _
  | alloc c => cases c <;> exact .aside _ rfl rfl rfl rfl
  | publish e => exact .publish
  | _ => exact .aside _ rfl rfl rfl rfl

end

/-! ## Mild calls -/

/-- The device that a call puts into the store, if it does. -/
def RepoCall.placed : RepoCall → Option Device
  | .devices (.create d) | .devices (.update d) => some d
  | _ => none

/-- The call puts no device into the store, and removes nothing from it. -/
def RepoCall.mild : RepoCall → Bool
  | .devices (.create _) | .devices (.update _) | .devices (.delete _) | .members (.delete _ _)
  | .networks (.delete _) => false
  | _ => true

theorem RepoCall.mild_cases (c : RepoCall) :
    c.mild = true ∨ (∃ d, c.placed = some d) ∨ (∃ d, c = .devices (.delete d)) ∨
      (∃ n u, c = .members (.delete n u)) ∨ ∃ n, c = .networks (.delete n) := by
  cases c with
  | devices c =>
    cases c with
    | create d | update d => exact .inr (.inl ⟨d, rfl⟩)
    | delete d => exact .inr (.inr (.inl ⟨d, rfl⟩))
    | _ => exact .inl rfl
  | members c =>
    cases c with
    | delete n u => exact .inr (.inr (.inr (.inl ⟨n, u, rfl⟩)))
    | _ => exact .inl rfl
  | networks c =>
    cases c with
    | delete n => exact .inr (.inr (.inr (.inr ⟨n, rfl⟩)))
    | _ => exact .inl rfl
  | _ => exact .inl rfl

theorem isMember_of_put {m : NetworkMember} {n u : UUID} (h : s.IsMember n u) :
    ({ s with members := s.members.put m }).IsMember n u := by
  show ∃ m', (s.members.put m).get ⟨n, u⟩ = some m'
  rw [get_put]
  split
  · exact ⟨m, rfl⟩
  · exact h

variable {c : RepoCall}

variable (lib) in
/-- A mild call takes no member away, and leaves every device where it belongs. -/
theorem mild_method (hc : c.mild = true) (i : RepoInput) (s : Store) :
    (∀ id, ((method lib c i s).2.devices.get id).map Device.owned =
      (s.devices.get id).map Device.owned) ∧
    ∀ n u, s.IsMember n u → (method lib c i s).2.IsMember n u := by
  have hout := outcome_method lib i s c
  generalize method lib c i s = r at hout ⊢
  cases hout with
  | same | publish => exact ⟨fun _ => rfl, fun _ _ h => h⟩
  | aside a _ hmems hdevs =>
    refine ⟨fun id => by rw [hdevs], fun n u h => ?_⟩
    show ∃ m, Table.get _ _ = some m
    rw [hmems]
    exact h
  | createNetwork _ => exact ⟨fun _ => rfl, fun _ _ h => h⟩
  | updateNetwork _ _ | rotateInviteCode _ _ => exact ⟨fun _ => rfl, fun _ _ h => h⟩
  | createMember _ _ | updateRole _ _ => exact ⟨fun _ => rfl, fun _ _ h => isMember_of_put h⟩
  | heartbeat hthere hid howned =>
    -- The row is written back with its owner, its network and its key.
    refine ⟨fun id' => ?_, fun _ _ h => h⟩
    rw [get_put, hid]
    split
    · next heq => rw [heq, hthere, map_some, map_some, howned]
    · rfl
  | _ => cases hc

/-! ## The others -/

variable (lib) in
theorem placed_method {d : Device} (hc : c.placed = some d) (i : RepoInput) (s : Store) :
    (method lib c i s).2.members = s.members ∧
    ∀ id d', (method lib c i s).2.devices.get id = some d' →
      d'.owned = d.owned ∨ s.devices.get id = some d' := by
  have hput : ∀ d₁ : Device, d₁.owned = d.owned → ∀ id d', (s.devices.put d₁).get id = some d' →
      d'.owned = d.owned ∨ s.devices.get id = some d' := by
    intro d₁ howned id d' hd'
    rw [get_put] at hd'
    split at hd'
    · rw [← some.inj hd']
      exact .inl howned
    · exact .inr hd'
  have hout := outcome_method lib i s c
  generalize method lib c i s = r at hout ⊢
  cases hout with
  | same a => exact ⟨rfl, fun _ _ h => .inr h⟩
  | aside a _ hmems hdevs => exact ⟨hmems, fun _ _ h => .inr (hdevs ▸ h)⟩
  | createDevice hnew | updateDevice _ hnew =>
    cases hc
    exact ⟨rfl, hput _ (by rw [hnew]; rfl)⟩
  | _ => cases hc

/-! ## Invariants that mild calls keep -/

variable (lib) in
/-- The repository call keeps `J`. -/
def Kept (J : Store → Prop) (c : RepoCall) : Prop := ∀ i s, J s → J (method lib c i s).2

variable (lib) in
/-- `J` survives every mild call. -/
def Robust (J : Store → Prop) : Prop := ∀ c : RepoCall, c.mild = true → Kept lib J c

section

variable {α : Type} {J : Store → Prop}

theorem preserves_call (hc : Kept lib J c) : Preserves (handler lib) J (call c) :=
  preserves_attempt hc

theorem preserves_try (hc : Kept lib J c) : Preserves (handler lib) J (tryCall c) :=
  fun s hs i => hc i s hs

theorem preserves_require (b : Bool) (err : DomainError) :
    Preserves (handler lib) J (require b err) :=
  fun _ hs => (wpe_require b err _ _).mpr ⟨fun _ => hs, fun _ => hs⟩

theorem preserves_requireMembership (n u : UUID) :
    Preserves (handler lib) J (requireMembership n u) := by
  intro s hs
  rw [wpe_requireMembership]
  exact ⟨fun _ _ => hs, fun _ => hs⟩

theorem preserves_mergeOne (hread : ∀ id, Kept lib J (.presence id)) (d : Device) :
    Preserves (handler lib) J (mergeOne d) := by
  apply (preserves_try (hread _)).bind
  intro r
  split <;> exact preserves_pure _

theorem preserves_mergePresence (hread : ∀ id, Kept lib J (.presence id)) (ds : List Device) :
    Preserves (handler lib) J (mergePresence ds) :=
  preserves_mapM (preserves_mergeOne hread) ds

end

/-! ## Registering a device -/

variable (lib) in
/-- A device may be put into the store under this key for a member of this network. -/
def Admits (J : Store → Prop) (u n : UUID) (key : String) : Prop :=
  ∀ (c : RepoCall) (d : Device) (i : RepoInput) (s : Store), J s → s.IsMember n u →
    c.placed = some d → d.owned = (u, n, key) → J (method lib c i s).2

/-! ## Any call -/

/-- For whom the call may put a device into the store, on which network, under which key. -/
def RestCall.registers : RestCall → Option (UUID × UUID × String)
  | .registerDevice u n _ _ _ key => some (u, n, key)
  | .coordinate u n input => some (u, n, input.publicKey)
  | _ => none

/-- The repository call by which the call removes something. -/
def RestCall.removes : RestCall → Option RepoCall
  | .deleteNetwork n _ => some (.networks (.delete n))
  | .removeMember n _ target => some (.members (.delete n target))
  | .deleteDevice d _ => some (.devices (.delete d))
  | _ => none

theorem removes_method {c : RestCall} {r : RepoCall} (hr : c.removes = some r) (i : RepoInput)
    (s : Store) {id : UUID} {d : Device}
    (hd : (method lib r i s).2.devices.get id = some d) : s.devices.get id = some d := by
  have hout := outcome_method lib i s r
  generalize method lib r i s = out at hout hd
  cases hout with
  | same a => exact hd
  | aside a _ _ hdevs => exact hdevs ▸ hd
  | deleteNetwork | deleteMember =>
    rw [get_deleteLoop] at hd
    exact (filter_eq_some_iff.mp hd).1
  | deleteDevice =>
    rw [get_del] at hd
    split at hd
    · cases hd
    · exact hd
  | _ => cases c <;> cases hr

end NexusVPN.Backend
