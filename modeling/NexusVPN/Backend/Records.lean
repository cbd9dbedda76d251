import NexusVPN.Backend.Requests

/-! # What every run keeps

    Some facts hold however requests interleave, since nothing that a request does on the
    strength of an old answer can break them: a network stays its founder's, only the
    founder's row ever has the role of owner, and a device stays where it was first put. -/

namespace NexusVPN.Backend

open List Prog Option Table Except Tracked Store Archive NetworkRepo MemberKey Device Requests

/-! ## The tables -/

/-- Where a device belongs, its address there and its key. -/
def Device.placement (d : Device) : UUID × UUID × String × String :=
  (d.networkID, d.userID, d.virtualIP, d.publicKey)

variable {id u : UUID} {d d' : Device} {m : NetworkMember}

theorem Device.owned_inj (h : d.owned = d'.owned) :
    d.userID = d'.userID ∧ d.networkID = d'.networkID ∧ d.publicKey = d'.publicKey := by
  simpa only [owned, Prod.mk.injEq] using h

theorem Device.placement_inj (h : d.placement = d'.placement) :
    d.networkID = d'.networkID ∧ d.userID = d'.userID ∧ d.virtualIP = d'.virtualIP := by
  simp only [placement, Prod.mk.injEq] at h
  exact ⟨h.1, h.2.1, h.2.2.1⟩

theorem Device.publicKey_of_placement (h : d.placement = d'.placement) :
    d.publicKey = d'.publicKey := by
  simp only [placement, Prod.mk.injEq] at h
  exact h.2.2.2

section

variable {lib : StdLib} {i : RepoInput} {s : Store} {c : RepoCall}

section

variable {n : UUID} {net' : Network} (h : (method lib c i s).2.networks.get n = some net')
include h

/-- What a call can do to a table, row by row: nothing, or one of a few things. -/
theorem network_rows :
    s.networks.get n = some net' ∨
    (∃ net, c = .networks (.update net) ∧ net.id = n ∧ (s.networks.get n).isSome ∧
      net' = { net with updatedAt := i.now }) ∨
    (∃ old code expires, c = .networks (.rotateInviteCode n code expires) ∧
      s.networks.get n = some old ∧ net' = { old with
        inviteCode := code, inviteCodeExpiresAt := expires, updatedAt := i.now }) ∨
    (∃ net, c = .networks (.create net) ∧ orFresh net.id i.fresh = n ∧
      net'.inviteCode = net.inviteCode ∧
      (n, net'.ownerID) ∈ foundedBy c (method lib c i s).1) := by
  have hout := outcome_method lib i s c
  generalize method lib c i s = r at hout h ⊢
  cases hout with
  | same a => exact .inl h
  | aside a hnets => exact .inl (hnets ▸ h)
  | createNetwork hnew =>
    rw [get_put] at h
    split at h
    · next hid =>
      cases h
      subst hnew hid
      exact .inr (.inr (.inr ⟨_, rfl, rfl, rfl, mem_singleton_self _⟩))
    · exact .inl h
  | updateNetwork hthere hnew =>
    rw [get_put] at h
    split at h
    · next hid =>
      cases h
      subst hnew hid
      exact .inr (.inl ⟨_, rfl, rfl, hthere, rfl⟩)
    · exact .inl h
  | rotateInviteCode hthere hnew =>
    have hkey := key_of_get hthere
    rw [get_put] at h
    split at h
    · next hid =>
      cases h
      subst hnew
      obtain rfl := hid.trans hkey
      exact .inr (.inr (.inl ⟨_, _, _, rfl, hthere, rfl⟩))
    · exact .inl h
  | deleteNetwork =>
    rw [get_del] at h
    split at h
    · cases h
    · exact .inl h
  | _ => exact .inl h

theorem networks_method :
    (∃ net, s.networks.get n = some net ∧ net'.ownerID = net.ownerID ∧ net'.cidr = net.cidr) ∨
    (∃ net, c = .networks (.update net) ∧ net.id = n ∧ (s.networks.get n).isSome ∧
      net'.ownerID = net.ownerID ∧ net'.cidr = net.cidr) ∨
    (∃ net, c = .networks (.create net) ∧ orFresh net.id i.fresh = n ∧
      (n, net'.ownerID) ∈ foundedBy c (method lib c i s).1) := by
  rcases network_rows h with hold | ⟨net, hc, hid, hthere, rfl⟩ | ⟨old, _, _, -, hold, rfl⟩ |
    ⟨net, hc, hid, -, hnew⟩
  · exact .inl ⟨net', hold, rfl, rfl⟩
  · exact .inr (.inl ⟨net, hc, hid, hthere, rfl, rfl⟩)
  · exact .inl ⟨old, hold, rfl, rfl⟩
  · exact .inr (.inr ⟨net, hc, hid, hnew⟩)

end

theorem networks_gone {n : UUID} (h : (s.networks.get n).isSome)
    (hgone : (method lib c i s).2.networks.get n = none) : c = .networks (.delete n) := by
  have hput : ∀ net : Network, (s.networks.put net).get n ≠ none := by
    intro net hnone
    rw [get_put] at hnone
    split at hnone
    · cases hnone
    · rw [hnone] at h
      cases h
  have hsame : s.networks.get n ≠ none := isSome_iff_ne_none.mp h
  have hout := outcome_method lib i s c
  generalize method lib c i s = r at hout hgone
  cases hout with
  | aside a hnets => exact absurd (hnets ▸ hgone) hsame
  | createNetwork _ => exact absurd hgone (hput _)
  | updateNetwork _ _ | rotateInviteCode _ _ => exact absurd hgone (hput _)
  | deleteNetwork =>
    rw [get_del] at hgone
    split at hgone
    · next heq => rw [heq]
    · exact absurd hgone hsame
  | _ => exact absurd hgone hsame

variable (lib i s) in
theorem networks_deleted (n : UUID) :
    (method lib (.networks (.delete n)) i s).2.networks.get n = none := by
  simp only [method, networkMethod, delete]
  split
  · assumption
  · rw [get_del, if_pos rfl]

theorem cascade_network {n : UUID} (h : (s.networks.get n).isSome) :
    (∀ u, (method lib (.networks (.delete n)) i s).2.member n u = none) ∧
    ∀ id d, (method lib (.networks (.delete n)) i s).2.devices.get id = some d →
      d.networkID ≠ n := by
  obtain ⟨net, hnet⟩ := isSome_iff_exists.mp h
  simp only [method, networkMethod, delete, hnet, member]
  constructor
  · intro u
    rw [get_deleteLoop]
    refine filter_eq_none_iff.mpr ?_
    intro m hm
    have hkey : m.networkID = n := congrArg network (key_of_get hm)
    simp [hkey]
  · intro id d hd
    rw [get_deleteLoop] at hd
    simpa using (filter_eq_some_iff.mp hd).2

theorem cascade_member {n : UUID} (h : s.IsMember n u)
    (hd : (method lib (.members (.delete n u)) i s).2.devices.get id = some d) :
    ¬ (d.networkID = n ∧ d.userID = u) := by
  obtain ⟨m, hm⟩ := h
  simp only [method, memberMethod, MemberRepo.delete, hm] at hd
  rw [get_deleteLoop] at hd
  rw [not_and_or]
  simpa using (filter_eq_some_iff.mp hd).2

/-- Where the row of a member comes from. -/
theorem members_method {n : UUID} {m' : NetworkMember}
    (h : (method lib c i s).2.member n u = some m') :
    s.member n u = some m' ∨
    (∃ role m, c = .members (.updateRole n u role) ∧ s.member n u = some m ∧ m'.role = role) ∨
    (∃ m, c = .members (.create m) ∧ m.networkID = n ∧ m.userID = u ∧ s.member n u = none ∧
      m'.role = m.role) := by
  have hout := outcome_method lib i s c
  generalize method lib c i s = r at hout h
  cases hout with
  | aside a _ hmems =>
    rw [member, hmems] at h
    exact .inl h
  | deleteNetwork =>
    rw [member, get_deleteLoop] at h
    exact .inl (filter_eq_some_iff.mp h).1
  | createMember hnone hnew =>
    rw [member, get_put] at h
    split at h
    · next hkey =>
      cases h
      subst hnew
      obtain ⟨rfl, rfl⟩ := mk.inj hkey
      exact .inr (.inr ⟨_, rfl, rfl, rfl, hnone, rfl⟩)
    · exact .inl h
  | updateRole hthere hnew =>
    have hrow := key_of_get hthere
    rw [member, get_put] at h
    split at h
    · next hkey =>
      cases h
      subst hnew
      obtain ⟨rfl, rfl⟩ := mk.inj (hkey.trans hrow)
      exact .inr (.inl ⟨_, _, rfl, hthere, rfl⟩)
    · exact .inl h
  | deleteMember =>
    rw [member, get_del] at h
    split at h
    · cases h
    · exact .inl h
  | _ => exact .inl h

theorem members_gone {n : UUID} (h : s.IsMember n u)
    (hgone : ¬ (method lib c i s).2.IsMember n u) :
    c = .members (.delete n u) ∨ c = .networks (.delete n) := by
  have hout := outcome_method lib i s c
  generalize method lib c i s = r at hout hgone
  cases hout with
  | aside a _ hmems =>
    rw [IsMember, member, hmems] at hgone
    exact absurd h hgone
  | @deleteNetwork n' =>
    by_cases heq : n = n'
    · rw [heq]
      exact .inr rfl
    · obtain ⟨m, hrow⟩ := h
      have hkey : m.networkID = n := congrArg network (key_of_get hrow)
      refine absurd ⟨m, ?_⟩ hgone
      rw [member, get_deleteLoop]
      exact filter_eq_some_iff.mpr ⟨hrow, by simp [hkey, heq]⟩
  | createMember | updateRole => exact absurd (isMember_of_put h) hgone
  | @deleteMember n' u' =>
    by_cases hkey : (⟨n, u⟩ : MemberKey) = ⟨n', u'⟩
    · obtain ⟨rfl, rfl⟩ := mk.inj hkey
      exact .inl rfl
    · rw [IsMember, member, get_del, if_neg hkey] at hgone
      exact absurd h hgone
  | _ => exact absurd h hgone

/-- Where the row of a device comes from. -/
theorem devices_method (h : (method lib c i s).2.devices.get id = some d') :
    (∃ d, s.devices.get id = some d ∧ d'.placement = d.placement) ∨
    (∃ d, c = .devices (.update d) ∧ d.id = id ∧ (s.devices.get id).isSome ∧
      d'.placement = d.placement) ∨
    (∃ d, c = .devices (.create d) ∧ orFresh d.id i.fresh = id ∧
      id ∈ issuedBy c (method lib c i s).1 ∧ d'.placement = d.placement) := by
  have hout := outcome_method lib i s c
  generalize method lib c i s = r at hout h ⊢
  cases hout with
  | aside a _ _ hdevs => exact .inl ⟨d', hdevs ▸ h, rfl⟩
  | deleteNetwork | deleteMember =>
    rw [get_deleteLoop] at h
    exact .inl ⟨d', (filter_eq_some_iff.mp h).1, rfl⟩
  | createDevice hnew =>
    rw [get_put] at h
    split at h
    · next hid =>
      cases h
      subst hnew hid
      exact .inr (.inr ⟨_, rfl, rfl, mem_singleton_self _, rfl⟩)
    · exact .inl ⟨d', h, rfl⟩
  | updateDevice hthere hnew =>
    rw [get_put] at h
    split at h
    · next hid =>
      cases h
      subst hnew hid
      exact .inr (.inl ⟨_, rfl, rfl, hthere, rfl⟩)
    · exact .inl ⟨d', h, rfl⟩
  | heartbeat hthere hid howned hip =>
    rw [get_put, hid] at h
    split at h
    · next heq =>
      cases h
      obtain ⟨hu, hn, hkey⟩ := owned_inj howned
      refine .inl ⟨_, heq ▸ hthere, ?_⟩
      simp only [placement, hu, hn, hkey, hip]
    · exact .inl ⟨d', h, rfl⟩
  | deleteDevice =>
    rw [get_del] at h
    split at h
    · cases h
    · exact .inl ⟨d', h, rfl⟩
  | _ => exact .inl ⟨d', h, rfl⟩

end

/-! ## Lookups -/

section

variable {lib : StdLib} {i : RepoInput} {s : Store} {net : Network}

theorem getByID_ok (h : (method lib (.networks (.getByID id)) i s).1 = .ok net) :
    s.networks.get id = some net := by
  simp only [method, networkMethod, getByID] at h
  split at h
  · cases h
  · next hnet => rw [hnet, ok.inj h]

theorem getByInviteCode_found {code : String}
    (h : (method lib (.networks (.getByInviteCode code)) i s).1 = .ok net) :
    net ∈ s.networks.values i.order ∧ lib.equalFold net.inviteCode code = true := by
  rw [method, networkMethod, getByInviteCode] at h
  split at h
  · cases h
  · next found hfound =>
    split at h
    · cases h
    · rw [← ok.inj h]
      exact ⟨mem_of_find?_eq_some hfound, (find?_some hfound :)⟩

theorem getByInviteCode_ok {code : String}
    (h : (method lib (.networks (.getByInviteCode code)) i s).1 = .ok net) :
    s.networks.get net.id = some net :=
  mem_values.mp (getByInviteCode_found h).1

theorem created_network {stored : Network}
    (h : (method lib (.networks (.create net)) i s).1 = .ok stored) :
    (method lib (.networks (.create net)) i s).2.networks.get stored.id = some stored := by
  simp only [method, networkMethod, create] at h ⊢
  split at h
  · cases h
  · next hcode =>
    rw [if_neg hcode, ← ok.inj h]
    exact (get_put _ _ _).trans (if_pos rfl)

theorem isMember_of_create {m' : NetworkMember}
    (h : (method lib (.members (.create m)) i s).1 = .ok m') :
    (method lib (.members (.create m)) i s).2.IsMember m.networkID m.userID := by
  simp only [method, memberMethod, MemberRepo.create] at h ⊢
  split at h
  · cases h
  · refine ⟨{ m with id := orFresh m.id i.fresh, joinedAt := i.now }, ?_⟩
    exact (get_put _ _ _).trans (if_pos rfl)

end

/-! ## The record -/

namespace Archive

/-- What holds of the store and its record at all times. -/
structure Sound (s : Archive) : Prop where
  founder_unique : ∀ {n u u'}, (n, u) ∈ s.founded → (n, u') ∈ s.founded → u = u'
  founded_issued : ∀ {n u}, (n, u) ∈ s.founded → n ∈ s.issued
  network_founded : ∀ {n net}, s.store.networks.get n = some net → (n, net.ownerID) ∈ s.founded
  member_founded : ∀ {n u m}, s.store.member n u = some m → ∃ w, (n, w) ∈ s.founded
  /-- Nobody else is ever made an owner. -/
  owner_founder : ∀ {n u m}, s.store.member n u = some m → m.role = .owner → (n, u) ∈ s.founded
  device_issued : ∀ {id d}, s.store.devices.get id = some d → id ∈ s.issued

theorem sound_empty : Sound ⟨.empty, [], []⟩ where
  founder_unique h := nomatch h
  founded_issued h := nomatch h
  network_founded h := nomatch h
  member_founded h := nomatch h
  owner_founder h := nomatch h
  device_issued h := nomatch h

/-- What an answer says that no later call can make false. -/
def Knows (s : Archive) : RepoEntry → Prop
  | ⟨.networks (.getByID _), .ok net⟩ | ⟨.networks (.getByInviteCode _), .ok net⟩ =>
    (net.id, net.ownerID) ∈ s.founded
  | ⟨.networks (.create net), .ok stored⟩ => (stored.id, net.ownerID) ∈ s.founded
  | ⟨.members (.get n u), .ok m⟩ =>
    (∃ w, (n, w) ∈ s.founded) ∧ (m.role = .owner → (n, u) ∈ s.founded)
  | ⟨.members (.create m), .ok _⟩ => m.role = .owner → (m.networkID, m.userID) ∈ s.founded
  | ⟨.devices (.getByPublicKey _), .ok d⟩ => d.id ∈ s.issued ∧
      ∀ e, s.store.devices.get d.id = some e → e.placement = d.placement
  | _ => True

/-- What one call, or many, can have changed. -/
structure Evolves (s s' : Archive) : Prop where
  founded : s.founded ⊆ s'.founded
  issued : s.issued ⊆ s'.issued
  /-- A network that is gone stays gone. -/
  gone : ∀ {n u}, (n, u) ∈ s.founded → s.store.networks.get n = none →
    s'.store.networks.get n = none
  /-- A device stays in its place as long as it is there at all. -/
  device : ∀ {id d'}, id ∈ s.issued → s'.store.devices.get id = some d' →
    ∃ d, s.store.devices.get id = some d ∧ d'.placement = d.placement

theorem Knows.evolves {s s' : Archive} {e : RepoEntry}
    (h : s.Knows e) (hs : s.Evolves s') : s'.Knows e := by
  unfold Knows at h ⊢
  split at h
  · exact hs.founded h
  · exact hs.founded h
  · exact hs.founded h
  · obtain ⟨⟨w, hw⟩, howner⟩ := h
    exact ⟨⟨w, hs.founded hw⟩, fun hrole => hs.founded (howner hrole)⟩
  · exact fun hrole => hs.founded (h hrole)
  · obtain ⟨hid, hplace⟩ := h
    refine ⟨hs.issued hid, ?_⟩
    intro e he
    obtain ⟨e₀, he₀, hsame⟩ := hs.device hid he
    exact hsame.trans (hplace e₀ he₀)
  · trivial

variable {lib : StdLib} {i : RepoInput} {s : Archive} {t : RestCall} {log : Journal repoIface}
  {c : RepoCall}

theorem knows_of_ok {r : Except DomainError c.Result}
    (h : ∀ a, r = .ok a → s.Knows ⟨c, .ok a⟩) : s.Knows ⟨c, r⟩ := by
  cases r with
  | ok a => exact h a rfl
  | error e =>
    unfold Knows
    split
    all_goals next heq => first | cases heq | trivial

theorem foundedBy_cases {n : UUID} (h : (n, u) ∈ foundedBy c (method lib c i s.store).1) :
    ∃ net, c = .networks (.create net) ∧ orFresh net.id i.fresh = n ∧ net.ownerID = u := by
  unfold foundedBy at h
  split at h
  · next net made hmade =>
    rw [method, networkMethod, create] at hmade
    split at hmade
    · cases hmade
    · cases hmade
      obtain ⟨rfl, rfl⟩ := Prod.mk.inj (mem_singleton.mp h)
      exact ⟨net, rfl, rfl, rfl⟩
  · cases h

theorem foundedBy_issuedBy {n : UUID} {r : Except DomainError c.Result}
    (h : (n, u) ∈ foundedBy c r) : n ∈ issuedBy c r := by
  unfold foundedBy at h
  split at h
  · obtain ⟨rfl, rfl⟩ := Prod.mk.inj (mem_singleton.mp h)
    exact mem_singleton_self _
  · cases h

theorem not_founded_of_foundedBy (hs : s.Sound) (hunused : s.Unused i c) {n w : UUID}
    (h : (n, u) ∈ foundedBy c (method lib c i s.store).1) : (n, w) ∉ s.founded := by
  intro hw
  obtain ⟨net, rfl, rfl, -⟩ := foundedBy_cases h
  exact hunused (hs.founded_issued hw)

section

variable (hs : s.Sound) (hlog : ∀ e ∈ log, s.Knows e) (hc : Backed t log c) (hunused : s.Unused i c)

include hlog hc in
theorem create_member_founded (hm : c = .members (.create m)) :
    (∃ w, (m.networkID, w) ∈ s.founded) ∧
      (m.role = .owner → (m.networkID, m.userID) ∈ s.founded) := by
  subst hm
  rcases hc with ⟨-, -, net, stored, htold, hid, howner⟩ | ⟨hrole, code, net, -, htold, hid⟩
  · have hfound : (stored.id, net.ownerID) ∈ s.founded := hlog _ htold
    rw [hid, howner] at hfound
    exact ⟨⟨_, hfound⟩, fun _ => hfound⟩
  · have hfound : (net.id, net.ownerID) ∈ s.founded := hlog _ htold
    rw [hid] at hfound
    exact ⟨⟨_, hfound⟩, fun h => absurd (hrole.symm.trans h) (by decide)⟩

include hs hlog hc hunused

theorem sound_handler : (handler lib c i s).2.Sound where
  founder_unique := by
    intro n u u' h h'
    rcases mem_append.mp h with hnew | hold
    · rcases mem_append.mp h' with hnew' | hold'
      · obtain ⟨net, rfl, -, rfl⟩ := foundedBy_cases hnew
        obtain ⟨net', heq, -, rfl⟩ := foundedBy_cases hnew'
        cases heq
        rfl
      · exact absurd hold' (not_founded_of_foundedBy hs hunused hnew)
    · rcases mem_append.mp h' with hnew' | hold'
      · exact absurd hold (not_founded_of_foundedBy hs hunused hnew')
      · exact hs.founder_unique hold hold'
  founded_issued := by
    intro n u h
    rcases mem_append.mp h with hnew | hold
    · exact mem_append_left _ (foundedBy_issuedBy hnew)
    · exact mem_append_right _ (hs.founded_issued hold)
  network_founded := by
    intro n net' h
    rcases networks_method h with ⟨net, hold, howner, -⟩ | ⟨net, rfl, rfl, -, howner, -⟩ |
      ⟨net, rfl, rfl, hnew⟩
    · rw [howner]
      exact mem_append_right _ (hs.network_founded hold)
    · -- The network is written back with the owner it was read with.
      obtain ⟨-, n, known, htold, hid, hsame⟩ := hc
      rw [howner, hid, hsame]
      exact mem_append_right _ (hlog _ htold)
    · exact mem_append_left _ hnew
  member_founded := by
    intro n u m' h
    rcases members_method h with hold | ⟨role, m, -, hold, -⟩ | ⟨m, hm, rfl, rfl, -, -⟩
    · obtain ⟨w, hw⟩ := hs.member_founded hold
      exact ⟨w, mem_append_right _ hw⟩
    · obtain ⟨w, hw⟩ := hs.member_founded hold
      exact ⟨w, mem_append_right _ hw⟩
    · obtain ⟨w, hw⟩ := (create_member_founded hlog hc hm).1
      exact ⟨w, mem_append_right _ hw⟩
  owner_founder := by
    intro n u m' h hrole
    rcases members_method h with hold | ⟨role, m, rfl, -, hset⟩ | ⟨m, hm, rfl, rfl, -, hset⟩
    · exact mem_append_right _ (hs.owner_founder hold hrole)
    · -- Roles that are given are never that of an owner.
      obtain ⟨-, -, -, -, -, -, -, -, hgiven, -⟩ := hc
      rw [← hset, hrole] at hgiven
      simp at hgiven
    · exact mem_append_right _ ((create_member_founded hlog hc hm).2 (hset ▸ hrole))
  device_issued := by
    intro id d' h
    rcases devices_method h with ⟨d, hold, -⟩ | ⟨d, -, -, hold, -⟩ | ⟨d, -, -, hnew, -⟩
    · exact mem_append_right _ (hs.device_issued hold)
    · obtain ⟨d, hd⟩ := isSome_iff_exists.mp hold
      exact mem_append_right _ (hs.device_issued hd)
    · exact mem_append_left _ hnew

/-- What is gone stays gone, and what is there stays in its place. -/
theorem evolves_handler : s.Evolves (handler lib c i s).2 where
  founded := subset_append_right _ _
  issued := subset_append_right _ _
  gone := by
    intro n u hn hgone
    cases hnet : (method lib c i s.store).2.networks.get n with
    | none => exact hnet
    | some net' =>
      exfalso
      rcases networks_method hnet with ⟨net, hold, -⟩ | ⟨net, -, -, hold, -⟩ | ⟨net, -, -, hnew⟩
      · rw [hgone] at hold
        cases hold
      · rw [hgone] at hold
        cases hold
      · exact not_founded_of_foundedBy hs hunused hnew hn
  device := by
    intro id d' hid h
    rcases devices_method h with hold | ⟨d, rfl, rfl, hold, hplace⟩ | ⟨d, rfl, rfl, -, -⟩
    · exact hold
    · -- What is written back was read from the row that is there now, or from one that was
      -- there under the same id.
      obtain ⟨key, known, htold, hsame, howned, hip⟩ := hc
      obtain ⟨e, he⟩ := isSome_iff_exists.mp hold
      refine ⟨e, he, ?_⟩
      have hknown := (hlog _ htold).2 e (by rw [← hsame]; exact he)
      rw [hplace, hknown]
      obtain ⟨hu, hn, hkey⟩ := owned_inj howned
      simp [placement, hu, hn, hip, hkey]
    · exact absurd hid hunused

theorem knows_handler : (handler lib c i s).2.Knows ⟨c, (handler lib c i s).1⟩ := by
  have hevo : s.Evolves (handler lib c i s).2 := evolves_handler hs hlog hc hunused
  apply knows_of_ok
  intro a ha
  -- What was so before still is; only what a call has just stored is new.
  cases c with
  | networks c =>
    cases c with
    | getByID id =>
      have hnet : s.store.networks.get id = some a := getByID_ok ha
      refine Knows.evolves (s := s) ?_ hevo
      have hid : a.id = id := key_of_get hnet
      show (a.id, a.ownerID) ∈ s.founded
      rw [hid]
      exact hs.network_founded hnet
    | getByInviteCode code =>
      refine Knows.evolves (s := s) ?_ hevo
      exact hs.network_founded (getByInviteCode_ok ha)
    | create net =>
      have hnew : (a.id, a.ownerID) ∈ foundedBy (.networks (.create net)) (.ok a) :=
        mem_singleton_self _
      rw [← ha] at hnew
      obtain ⟨net', heq, -, howner⟩ := foundedBy_cases hnew
      cases heq
      show (a.id, net.ownerID) ∈ (handler lib _ i s).2.founded
      rw [howner]
      exact mem_append_left _ hnew
    | _ => trivial
  | members c =>
    cases c with
    | get n u =>
      have hrow : s.store.member n u = some a := getMember_ok ha
      refine Knows.evolves (s := s) ?_ hevo
      exact ⟨hs.member_founded hrow, hs.owner_founder hrow⟩
    | create m =>
      intro hrole
      exact hevo.founded ((create_member_founded hlog hc rfl).2 hrole)
    | _ => trivial
  | devices c =>
    cases c with
    | getByPublicKey key =>
      have hdev : s.store.devices.get a.id = some a := (getByPublicKey_ok ha).1
      refine Knows.evolves (s := s) ⟨hs.device_issued hdev, ?_⟩ hevo
      intro e he
      rw [some.inj (hdev.symm.trans he)]
    | _ => trivial
  | _ => trivial

end

end Archive

/-! ## Runs -/

namespace JournaledRequests

/-- The store is sound, and nobody has been told what is not so any more. -/
structure Sound (p : JournaledRequests) : Prop where
  shared : p.shared.Sound
  known : ∀ th ∈ p.threads, ∀ e ∈ th.2.1, p.shared.Knows e

/-- Thread `n`, which serves `t` and has read `log`, makes the call `c`. -/
structure Move (lib : StdLib) (p : JournaledRequests) (n : Nat) (i : RepoInput) (t : RestCall)
    (log : Journal repoIface) (c : RepoCall) (k : repoIface.Ans c → RestProg) :
    Prop where
  moving : p.threads[n]? = some (t, log, .call c k)
  fits : Fitting t log c
  unused : p.shared.Unused i c
  known : ∀ e ∈ log, p.shared.Knows e
  sound : (handler lib c i p.shared).2.Sound
  evolves : p.shared.Evolves (handler lib c i p.shared).2
  learns : (handler lib c i p.shared).2.Knows ⟨c, (handler lib c i p.shared).1⟩
  /-- The thread goes on as its service does. -/
  served : (k (handler lib c i p.shared).1).Obeys (Journal.protocol (Fitting t))
    (fun a log' => a.1 = t ∧ Concluded log' a) (⟨c, (handler lib c i p.shared).1⟩ :: log)

variable {lib : StdLib} {p p' : JournaledRequests} {a : RestStep} {n : Nat}
  {i : RepoInput} {t : RestCall} {log : Journal repoIface} {c : RepoCall}
  {k : repoIface.Ans c → RestProg}

theorem Move.next (h : Move lib p n i t log c k) : Requests.next p.erase n = some c := by
  simp [Requests.next, Tracked.erase, h.moving, nextCall]

theorem Move.erased (h : Move lib p n i t log c k) : p.erase.threads[n]? = some (t, .call c k) := by
  simp [Tracked.erase, h.moving]

theorem Sound.move (h : p.Sound) (hserv : p.AsServed)
    (hunused : Requests.DrawsUnused p.erase (.advance n i))
    (hn : p.threads[n]? = some (t, log, .call c k)) : Move lib p n i t log c k := by
  have hmem := mem_of_getElem? hn
  have hcall := hserv _ hmem
  have hnext : next p.erase n = some c := by
    simp [Requests.next, Tracked.erase, hn, nextCall]
  have hfresh : p.shared.Unused i c := hunused c hnext
  have hknown : ∀ e ∈ log, p.shared.Knows e := h.known _ hmem
  exact {
    moving := hn
    fits := hcall.1
    unused := hfresh
    known := hknown
    sound := sound_handler h.shared hknown hcall.1.2 hfresh
    evolves := evolves_handler h.shared hknown hcall.1.2 hfresh
    learns := knows_handler h.shared hknown hcall.1.2 hfresh
    served := hcall.2 _ trivial }

theorem Move.device_before (h : Move lib p n i t log c k) (hp : p.Sound)
    (hd' : (handler lib c i p.shared).2.store.devices.get id = some d') :
    (∃ d, p.shared.store.devices.get id = some d ∧ d'.placement = d.placement) ∨
    ∃ d, c = .devices (.create d) ∧ orFresh d.id i.fresh = id ∧ d'.placement = d.placement := by
  rcases devices_method hd' with hold | ⟨d, -, -, hold, -⟩ | ⟨d, hc, hid, -, hplace⟩
  · exact .inl hold
  · -- The row was written back to where it was.
    obtain ⟨d₀, hd₀⟩ := isSome_iff_exists.mp hold
    exact .inl (h.evolves.device (hp.shared.device_issued hd₀) hd')
  · exact .inr ⟨d, hc, hid, hplace⟩

section

variable (h : p.Sound) (hserv : p.AsServed)

include h hserv

theorem Sound.exists_move {q : Requests} (hstep : Requests.step lib p.erase a = some q) :
    q.shared = p.shared ∨ ∃ n i t log c k, a = .advance n i ∧ Move lib p n i t log c k ∧
      q.shared = (handler lib c i p.shared).2 := by
  obtain ⟨hunused, hstep⟩ := ite_none_right_eq_some.mp hstep
  have hjournaled : ∃ p', JournaledRequests.step lib p a = some p' ∧ p'.erase = q :=
    exists_step hstep
  obtain ⟨p', hp', rfl⟩ := hjournaled
  rcases step_cases hp' with ⟨t, -, rfl⟩ | ⟨n, i, t, log, c, k, rfl, hn, rfl⟩
  · exact .inl rfl
  · exact .inr ⟨n, i, t, log, c, k, rfl, h.move hserv hunused hn, rfl⟩

variable (hunused : Requests.DrawsUnused p.erase a) (hstep : step lib p a = some p')

include hunused hstep

theorem Sound.shared_step {G : Archive → Prop} (hG : G p.shared)
    (hmoves : ∀ n i t log c k, a = .advance n i → Move lib p n i t log c k →
      G (handler lib c i p.shared).2) : G p'.shared := by
  rcases step_cases hstep with ⟨t, -, rfl⟩ | ⟨n, i, t, log, c, k, rfl, hn, rfl⟩
  · exact hG
  · exact hmoves n i t log c k rfl (h.move hserv hunused hn)

theorem Sound.threads_step
    {A : RestCall × Journal repoIface × RestProg → Archive → Prop}
    (hA : ∀ th ∈ p.threads, A th p.shared)
    (hspawn : ∀ t, a = .spawn t → A (t, [], t.body lib) p.shared)
    (hself : ∀ n i t log c k, a = .advance n i → Move lib p n i t log c k →
      A (t, ⟨c, (handler lib c i p.shared).1⟩ :: log,
        k (handler lib c i p.shared).1) (handler lib c i p.shared).2)
    (hoth : ∀ n i t log c k, a = .advance n i → Move lib p n i t log c k →
      ∀ m th, m ≠ n → p.threads[m]? = some th → A th p.shared →
        A th (handler lib c i p.shared).2) : ∀ th ∈ p'.threads, A th p'.shared := by
  refine forall_threads_step hstep hA hspawn ?_ ?_
  · rintro n i t log c k rfl hn
    exact hself n i t log c k rfl (h.move hserv hunused hn)
  · rintro n i t log c k rfl hn
    exact hoth n i t log c k rfl (h.move hserv hunused hn)

theorem Sound.step : p'.Sound := by
  constructor
  · exact h.shared_step hserv hunused hstep h.shared fun _ _ _ _ _ _ _ hmove => hmove.sound
  · refine h.threads_step (A := fun th s => ∀ e ∈ th.2.1, s.Knows e) hserv hunused hstep h.known
      ?_ ?_ ?_
    · exact fun _ _ _ he => nomatch he
    · exact fun n i t log c k _ hmove => forall_mem_cons.mpr
        ⟨hmove.learns, fun e he => (hmove.known e he).evolves hmove.evolves⟩
    · exact fun n i t log c k _ hmove m th _ _ hknown e he => (hknown e he).evolves hmove.evolves

end

theorem sound_idle : Sound ⟨⟨.empty, [], []⟩, []⟩ := ⟨sound_empty, nofun⟩

end JournaledRequests

theorem JournaledRequests.Sound.evolves_step {lib : StdLib} {p : JournaledRequests} {q : Requests}
    {a : RestStep} (h : p.Sound) (hserv : p.AsServed)
    (hstep : Requests.step lib p.erase a = some q) : p.shared.Evolves q.shared := by
  rcases h.exists_move hserv hstep with hsame | ⟨n, i, t, log, c, k, -, hmove, hshared⟩
  · rw [hsame]
    exact ⟨Subset.refl _, Subset.refl _, fun _ hgone => hgone, fun _ hd => ⟨_, hd, rfl⟩⟩
  · rw [hshared]
    exact hmove.evolves

/-- However requests interleave, each network stays its founder's, nobody else is made an owner,
    no step moves a device or brings back what is gone. -/
theorem records_stay_put (lib : StdLib) (as : List RestStep) :
    Machine.Throughout (step lib) (fun p => p.shared.Sound) idle as ∧
      Machine.Along (step lib) (fun p a => ∀ q, step lib p a = some q →
        p.shared.Evolves q.shared) idle as := by
  have hrun : Machine.Along (step lib) (fun _ _ => True) idle as :=
    Machine.along_of_forall_mem (fun _ _ _ => trivial) _
  constructor
  · exact throughout JournaledRequests.sound_idle
      (fun _ _ _ h hserv hunused _ => h.step hserv hunused) hrun fun _ _ h => h.shared
  · exact along JournaledRequests.sound_idle
      (fun _ _ _ h hserv hunused _ => h.step hserv hunused) hrun
      fun _ _ hserv h _ hstep => h.evolves_step hserv hstep

end NexusVPN.Backend
