import NexusVPN.Backend.Requests

/-! # Who may do what over REST

    Every call of `NetworkService` and `DeviceService` that concerns a network checks the
    caller's membership row, with one exception: a user's own device is served without that
    lookup.  That this is no hole rests on an invariant of the store, that the owner of a
    device is a member of its network. -/

namespace NexusVPN.Backend

open Prog Option Table Machine Store NetworkService RestCall

/-! ## Who may make them -/

/-- The user is a member of the network in one of these roles. -/
def Store.HasRole (s : Store) (n u : UUID) (roles : List NetworkRole) : Prop :=
  ∃ m, s.member n u = some m ∧ m.role ∈ roles

/-- The user is a member of the device's network, and runs it unless the device is
    the user's own. -/
def Store.MayAccess (s : Store) (d u : UUID) : Prop :=
  ∃ dev, s.devices.get d = some dev ∧ s.IsMember dev.networkID u ∧
    (dev.userID ≠ u → s.HasRole dev.networkID u [.owner, .admin])

def RestCall.Authorized (s : Store) : RestCall → Prop
  | .getNetwork n u | .listMembers n u | .registerDevice u n .. | .listDevices n u => s.IsMember n u
  | .updateNetwork n u .. | .rotateInvite n u | .updateMemberRole n u .. =>
    s.HasRole n u [.owner, .admin]
  | .deleteNetwork n u => s.HasRole n u [.owner]
  | .removeMember n u target => s.IsMember n u ∧ (u ≠ target → s.HasRole n u [.owner, .admin])
  | .getDevice d u | .deleteDevice d u | .heartbeat d u .. | .listPeers d u => s.MayAccess d u
  | .createNetwork .. | .listNetworks _ | .joinNetwork .. | .coordinate .. => True

/-! ## The invariant -/

/-- The owner of every device is a member of its network. -/
def OwnersAreMembers (s : Store) : Prop :=
  ∀ id d, s.devices.get id = some d → s.IsMember d.networkID d.userID

variable {lib : StdLib} {s : Store}

theorem OwnersAreMembers.delete_network (h : OwnersAreMembers s) (n : UUID) (i : RepoInput) :
    OwnersAreMembers { s with
      networks := s.networks.del n
      members := s.members.deleteLoop i.memberOrder (·.networkID == n)
      devices := s.devices.deleteLoop i.order (·.networkID == n) } := by
  intro id d hd
  rw [get_deleteLoop] at hd
  obtain ⟨hold, hother⟩ := filter_eq_some_iff.mp hd
  obtain ⟨m, hm⟩ := h id d hold
  have hkey : m.networkID = d.networkID := congrArg MemberKey.network (key_of_get hm)
  refine ⟨m, ?_⟩
  show (s.members.deleteLoop i.memberOrder (·.networkID == n)).get _ = some m
  rw [get_deleteLoop]
  refine filter_eq_some_iff.mpr ⟨hm, ?_⟩
  rw [hkey]
  exact hother

theorem OwnersAreMembers.delete_member (h : OwnersAreMembers s) (n u : UUID) (i : RepoInput) :
    OwnersAreMembers { s with
      members := s.members.del ⟨n, u⟩
      devices := s.devices.deleteLoop i.order fun d => d.networkID == n && d.userID == u } := by
  intro id d hd
  rw [get_deleteLoop] at hd
  obtain ⟨hold, hother⟩ := filter_eq_some_iff.mp hd
  obtain ⟨m, hm⟩ := h id d hold
  refine ⟨m, ?_⟩
  show (s.members.del ⟨n, u⟩).get _ = some m
  rw [get_del, if_neg]
  · exact hm
  · -- A device of the removed member would have been deleted.
    intro heq
    obtain ⟨hn, hu⟩ := MemberKey.mk.inj heq
    simp [hn, hu] at hother

theorem OwnersAreMembers.delete_device (h : OwnersAreMembers s) (d : UUID) :
    OwnersAreMembers { s with devices := s.devices.del d } := by
  intro id d' hd'
  rw [get_del] at hd'
  split at hd'
  · cases hd'
  · exact h id d' hd'

theorem ownersAreMembers_robust : Robust lib OwnersAreMembers := by
  intro c hc i s hs id d hd
  obtain ⟨hdevs, hmems⟩ := mild_method lib hc i s
  have howned := hdevs id
  rw [hd] at howned
  obtain ⟨d₀, hd₀, heq⟩ := map_eq_some_iff.mp howned.symm
  obtain ⟨huser, hnet⟩ : d₀.userID = d.userID ∧ d₀.networkID = d.networkID :=
    ⟨congrArg Prod.fst heq, congrArg (·.2.1) heq⟩
  have hmbr := hmems _ _ (hs id d₀ hd₀)
  rwa [huser, hnet] at hmbr

theorem ownersAreMembers_admits (u n : UUID) (key : String) :
    Admits lib OwnersAreMembers u n key := by
  intro c d i s hs hm hplace howned id d' hd'
  obtain ⟨hmems, hdevs⟩ := placed_method lib hplace i s
  show ∃ m, (method lib c i s).2.members.get ⟨d'.networkID, d'.userID⟩ = some m
  rw [hmems]
  rcases hdevs id d' hd' with hnew | hold
  · rw [howned] at hnew
    rw [show d'.networkID = n from congrArg (·.2.1) hnew,
      show d'.userID = u from congrArg Prod.fst hnew]
    exact hm
  · exact hs id d' hold

theorem ownersAreMembers_kept {c : RestCall} {r : RepoCall} (hr : c.removes = some r) :
    Kept lib OwnersAreMembers r := by
  intro i s hs
  cases c with
  | deleteNetwork n u =>
    cases hr
    simp only [method, networkMethod, NetworkRepo.delete]
    split
    · exact hs
    · exact hs.delete_network n i
  | removeMember n u target =>
    cases hr
    simp only [method, memberMethod, MemberRepo.delete]
    split
    · exact hs
    · exact hs.delete_member n target i
  | deleteDevice d u =>
    cases hr
    simp only [method, deviceMethod, DeviceRepo.delete]
    split
    · exact hs
    · exact hs.delete_device d
  | _ => cases hr

/-! ## The services check who is calling -/

section

variable {α : Type} {P : Prop} {n u : UUID}

theorem granted_bind {β : Type} {p : Svc β} {f : β → Svc α}
    (h : OnOk lib p (fun _ _ => P) s) : OnOk lib (p >>= f) (fun _ _ => P) s := by
  rw [OnOk, wpe_bind]
  exact wpe_mono (fun _ _ hP => onOk_of_forall fun _ _ => hP) (fun _ _ _ => trivial) h

theorem granted_to_role {m : NetworkMember} (hm : s.member n u = some m)
    (roles : List NetworkRole) :
    OnOk lib (requireRole m.role roles) (fun _ _ => s.HasRole n u roles) s := by
  unfold requireRole
  rw [OnOk, wpe_require]
  exact ⟨fun hrole => ⟨m, hm, List.contains_iff_mem.mp hrole⟩, fun _ => trivial⟩

theorem granted_to_member {p : NetworkMember → Svc α} :
    OnOk lib (requireMembership n u >>= p) (fun _ _ => s.IsMember n u) s := by
  apply onOk_requireMembership
  intro m hm
  exact onOk_of_forall fun _ _ => ⟨m, hm⟩

/-- The invariant stands in for the lookup that is skipped for the user's own device. -/
theorem granted_access (hs : OwnersAreMembers s) (d : UUID) :
    OnOk lib (DeviceService.authorizeDeviceAccess d u) (fun _ _ => s.MayAccess d u) s := by
  apply onOk_getDevice
  intro dev hdev
  by_cases hown : dev.userID = u
  · rw [if_pos hown]
    exact ⟨dev, hdev, hown ▸ hs d dev hdev, fun hne => absurd hown hne⟩
  · rw [if_neg hown]
    apply onOk_requireMembership
    intro m hm
    apply onOk_require
    intro hrole
    have hruns : s.HasRole dev.networkID u [.owner, .admin] := ⟨m, hm, by simpa using hrole⟩
    exact ⟨dev, hdev, ⟨m, hm⟩, fun _ => hruns⟩

theorem granted_heartbeat (hs : OwnersAreMembers s) (d : UUID) (pub priv nat : Option String)
    (sent received : Int) :
    OnOk lib (DeviceService.heartbeat d u pub priv nat sent received)
      (fun _ _ => s.MayAccess d u) s := by
  apply onOk_getDevice
  intro dev hdev
  apply onOk_require
  intro hown
  have hown := of_decide_eq_true hown
  have haccess : s.MayAccess d u := ⟨dev, hdev, hown ▸ hs d dev hdev, fun hne => absurd hown hne⟩
  exact onOk_of_forall fun _ _ => haccess

theorem granted_updateMemberRole (target : UUID) (role : NetworkRole) :
    OnOk lib (updateMemberRole n u target role) (fun _ _ => s.HasRole n u [.owner, .admin]) s := by
  apply onOk_requireMembership
  intro m hm
  apply onOk_require
  intro _
  apply onOk_getMember
  intro t _
  apply onOk_require
  intro _
  split
  · -- Whoever has to be the owner is owner or admin.
    apply granted_bind
    refine wpe_mono ?_ (fun _ _ _ => trivial) (granted_to_role hm [.owner])
    rintro _ _ ⟨m', hm', hrole⟩
    exact ⟨m', hm', List.mem_cons.mpr (.inl (List.mem_singleton.mp hrole))⟩
  · exact granted_bind (granted_to_role hm [.owner, .admin])

theorem granted_removeMember (target : UUID) :
    OnOk lib (removeMember n u target)
      (fun _ _ => s.IsMember n u ∧ (u ≠ target → s.HasRole n u [.owner, .admin])) s := by
  apply onOk_requireMembership
  intro m hm
  apply onOk_getMember
  intro t _
  apply onOk_require
  intro _
  split
  · apply granted_bind
    refine wpe_mono ?_ (fun _ _ _ => trivial) (granted_to_role hm [.owner, .admin])
    intro _ _ hrole
    exact ⟨⟨m, hm⟩, fun _ => hrole⟩
  · next hself => exact onOk_of_forall fun _ _ => ⟨⟨m, hm⟩, fun hne => absurd hne hself⟩

variable (lib) in
/-- A call that succeeds was authorized in the state that it found. -/
theorem serve_authorized (hs : OwnersAreMembers s) (c : RestCall) :
    OnOk lib (c.serve lib) (fun _ _ => c.Authorized s) s := by
  cases c with
  | getNetwork | listMembers | listDevices => exact granted_to_member
  | registerDevice u n name os osVersion key => exact onOk_require fun _ => granted_to_member
  | updateNetwork | rotateInvite | deleteNetwork =>
    exact onOk_requireMembership fun m hm => granted_bind (granted_to_role hm _)
  | updateMemberRole n u target role => exact granted_updateMemberRole target role
  | removeMember n u target => exact granted_removeMember target
  | getDevice d u | deleteDevice d u | listPeers d u => exact granted_bind (granted_access hs d)
  | heartbeat d u pub priv nat sent received =>
    exact granted_heartbeat hs d pub priv nat sent received
  | createNetwork | listNetworks | joinNetwork | coordinate =>
    exact onOk_of_forall fun _ _ => trivial

end

/-! ## Whole runs -/

theorem ownersAreMembers_of_reachable {s : Store}
    (hreach : Reachable (step lib) empty s) : OwnersAreMembers s := by
  apply hreach.invariant
  · intro id d hd
    cases hd
  · intro s a s' hs hstep
    rw [← some.inj hstep]
    exact serve_keeps lib ownersAreMembers_robust a.1 (fun u n key _ =>
      ownersAreMembers_admits u n key) (fun r hr => ownersAreMembers_kept hr) hs a.2

/-- After any calls by anybody, a call that succeeds is made by a member of the network
    it concerns, in a role that allows it. -/
theorem served_only_if_authorized {s : Store}
    (hreach : Reachable (step lib) empty s) (c : RestCall)
    (w : Nat → RepoInput) {r : c.Result}
    (hok : ((c.serve lib).run.exec (handler lib) w s).1 = .ok r) : c.Authorized s :=
  of_exec_ok (serve_authorized lib (ownersAreMembers_of_reachable hreach) c) hok

/-- A library to which every string is an address range. -/
def lenientLib : StdLib :=
  ⟨fun _ => some ⟨[10, 77, 0, 0], [255, 255, 255, 0], length_mask24⟩, fun _ => "10.77.0.1",
    (· == ·), id⟩

/-- A founder makes a network and puts a device on it. -/
def foundingCalls : List (RestCall × (Nat → RepoInput)) :=
  [(.createNetwork (.ofBytes [1]) "home" "" "10.77.0.0/24" [], fun _ => default),
   (.registerDevice (.ofBytes [1]) .nil "laptop" "linux" "" "key", fun _ => default)]

theorem served_only_if_authorized_founder :
    ∃ s, run (step lenientLib) empty foundingCalls = some s ∧ s.MayAccess .nil (.ofBytes [1]) := by
  obtain ⟨s, hrun⟩ : ∃ s, run (step lenientLib) empty foundingCalls = some s := ⟨_, rfl⟩
  refine ⟨s, hrun, ?_⟩
  obtain ⟨r, hok⟩ : ∃ r, (((getDevice .nil (.ofBytes [1])).serve lenientLib).run.exec
      (handler lenientLib) (fun _ => default) s).1 = .ok r := by
    rw [← some.inj hrun]
    exact ⟨_, rfl⟩
  exact served_only_if_authorized ⟨foundingCalls, hrun⟩ (.getDevice .nil (.ofBytes [1])) _ hok

end NexusVPN.Backend
