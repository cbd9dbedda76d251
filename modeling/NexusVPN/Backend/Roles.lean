import NexusVPN.Backend.AccessControl
import NexusVPN.Backend.Records

/-! # Owners and admins

    Every check of a role is made on a row that was read some calls before the write.  A
    network keeps one owner, who alone makes admins, as long as its invite code is not presented
    before `Create` has returned it; and admins are safe from each other unless one is made while
    another request is about to write their row. -/

namespace NexusVPN.Backend

open List Prog Option Machine Archive Pool JournaledRequests RepoCall Requests

/-! ## Roles -/

/-- The user has a row in the network, with that role. -/
def Store.RoleIs (s : Store) (n u : UUID) (role : NetworkRole) : Prop :=
  ∃ m ∈ s.member n u, m.role = role

instance (s : Store) (n u : UUID) (role : NetworkRole) : Decidable (s.RoleIs n u role) :=
  inferInstanceAs (Decidable (∃ m ∈ s.member n u, m.role = role))

/-- The network was created for that user.  The owner of a network never changes. -/
def Archive.Owner (s : Archive) (n u : UUID) : Prop := (n, u) ∈ s.founded

instance (s : Archive) (n u : UUID) : Decidable (s.Owner n u) :=
  inferInstanceAs (Decidable ((n, u) ∈ s.founded))

/-- The user who makes the request. -/
def RestCall.caller : RestCall → UUID
  | .createNetwork u _ _ _ _ | .listNetworks u | .getNetwork _ u | .updateNetwork _ u _ _ _ _
  | .deleteNetwork _ u | .joinNetwork u _ | .rotateInvite _ u | .listMembers _ u
  | .updateMemberRole _ u _ _ | .removeMember _ u _ | .registerDevice u _ _ _ _ _
  | .listDevices _ u | .getDevice _ u | .deleteDevice _ u | .heartbeat _ u _ _ _ _ _
  | .listPeers _ u | .coordinate u _ _ => u

/-- A network that still exists and whose `Create` returned success has exactly one row with
    the role of owner, that of its `OwnerID`. -/
def OneOwner (p : Requests) : Prop :=
  ∀ u name description cidr dns net,
    p.Returned (.createNetwork u name description cidr dns)
      ⟨.createNetwork u name description cidr dns, .ok net⟩ →
    ∀ now, p.shared.store.networks.get net.id = some now →
    ∀ w, p.shared.store.RoleIs net.id w .owner ↔ w = now.ownerID

/-- If the step makes somebody an admin, it is one of `UpdateMemberRole`, called by the
    owner. -/
def AdminsMadeByOwner (lib : StdLib) (p : Requests) (a : RestStep) : Prop :=
  ∀ p', step lib p a = some p' → ∀ n u, ¬ p.shared.store.RoleIs n u .admin →
    p'.shared.store.RoleIs n u .admin →
    ∃ k i caller q, a = .advance k i ∧
      p.threads[k]? = some (.updateMemberRole n caller u .admin, q) ∧ p.shared.Owner n caller

/-- If the step demotes an admin, its caller is the owner; if it removes one, the owner or
    the admin. -/
def AdminsProtected (lib : StdLib) (p : Requests) (a : RestStep) : Prop :=
  ∀ p', step lib p a = some p' → ∀ n u, p.shared.store.RoleIs n u .admin →
    ¬ p'.shared.store.RoleIs n u .admin →
    ∃ k i t q, a = .advance k i ∧ p.threads[k]? = some (t, q) ∧
      (p.shared.Owner n t.caller ∨ ¬ p'.shared.store.IsMember n u ∧ t.caller = u)

/-! ## Conditions -/

/-- The network that `Create` has returned. -/
def Requests.created : RestCall × RestProg → Option UUID
  | (_, .ret ⟨.createNetwork .., .ok net⟩) => some net.id
  | _ => none

/-- The code for which the call looks up a network. -/
def RepoCall.presents : RepoCall → Option String
  | .networks (.getByInviteCode code) => some code
  | _ => none

/-- No `Join` carries the code of a `Create` that is still in progress. -/
def CodesReturned (lib : StdLib) (p : Requests) : RestStep → Prop
  | .spawn _ => True
  | .advance k i => ∀ c ∈ p.next k, ∀ code ∈ c.presents,
      ∀ net ∈ p.shared.store.networks.values i.order, lib.equalFold net.inviteCode code = true →
        ∃ th ∈ p.threads, created th = some net.id

instance (lib : StdLib) (p : Requests) : (a : RestStep) → Decidable (CodesReturned lib p a)
  | .spawn _ => .isTrue trivial
  | .advance k _ => inferInstanceAs (Decidable (∀ c ∈ p.next k, _))

/-- The call changes or deletes the user's row. -/
def RepoCall.rewrites (n u : UUID) : RepoCall → Bool
  | .members (.updateRole n' u' _) | .members (.delete n' u') => n' == n && u' == u
  | _ => false

/-- Whom the call makes an admin, and where. -/
def RepoCall.promotes : RepoCall → Option (UUID × UUID)
  | .members (.updateRole n u .admin) => some (n, u)
  | _ => none

/-- While somebody is made an admin, no other request has read their row and is about to
    write it. -/
def PromotesAlone (p : Requests) : RestStep → Prop
  | .spawn _ => True
  | .advance k _ => ∀ c ∈ p.next k, ∀ x ∈ c.promotes, ∀ j < p.threads.length, j ≠ k →
      ∀ c' ∈ p.next j, c'.rewrites x.1 x.2 = false

instance (p : Requests) : (a : RestStep) → Decidable (PromotesAlone p a)
  | .spawn _ => .isTrue trivial
  | .advance k _ => inferInstanceAs (Decidable (∀ c ∈ p.next k, _))

/-! ## One owner -/

namespace Archive

/-- The owner's row, where there is one, has the role of owner. -/
def Seated (s : Archive) : Prop :=
  ∀ n net m, s.store.networks.get n = some net → s.store.member n net.ownerID = some m →
    m.role = .owner

/-- What else an answer goes on saying, if owners are seated: a row that was not the owner's
    is not the owner's as long as the network exists, and the owner's row in a network that was
    found by its code, or the one that `Create` has stored, is there just as long. -/
def Upholds (s : Archive) : RepoEntry → Prop
  | ⟨.members (.get n u), .ok m⟩ => m.role ≠ .owner → s.Owner n u → s.store.networks.get n = none
  | ⟨.members (.create m), .ok _⟩ => m.role = .owner →
      (s.store.networks.get m.networkID).isSome → s.store.IsMember m.networkID m.userID
  | ⟨.networks (.getByInviteCode _), .ok net⟩ =>
      (s.store.networks.get net.id).isSome → s.store.IsMember net.id net.ownerID
  | _ => True

end Archive

variable {id u : UUID}

namespace JournaledRequests

variable {lib : StdLib} {p p' : JournaledRequests} {n : Nat} {i : RepoInput} {t : RestCall}
  {log : Journal repoIface} {c : RepoCall} {k : repoIface.Ans c → RestProg} {a : RestStep}

section

variable (h : Move lib p n i t log c k)
include h

theorem Move.network_before (hfound : p.shared.Owner id u)
    (hnow : ((handler lib c i p.shared).2.store.networks.get id).isSome) :
    (p.shared.store.networks.get id).isSome := by
  by_contra hgone
  rw [h.evolves.gone hfound (not_isSome_iff_eq_none.mp hgone)] at hnow
  cases hnow

theorem Move.spares_owner (hup : ∀ e ∈ log, p.shared.Upholds e)
    (hc : c.rewrites id u = true) (howner : p.shared.Owner id u) :
    p.shared.store.networks.get id = none := by
  have hback := h.fits.2
  unfold rewrites at hc
  split at hc
  case h_3 => cases hc
  all_goals
    obtain ⟨rfl, rfl⟩ : _ = id ∧ _ = u := by simpa using hc
    obtain ⟨caller, row, target, rest, -, rfl, -, hrole, -⟩ := hback
    exact hup _ mem_cons_self hrole howner

theorem Move.owner_before (hp : p.Sound) {w : UUID} {net' : Network}
    (hw : p.shared.Owner id w)
    (hnet' : (handler lib c i p.shared).2.store.networks.get id = some net') :
    ∃ net, p.shared.store.networks.get id = some net ∧ net.ownerID = net'.ownerID ∧
      w = net'.ownerID := by
  have howner' := h.sound.network_founded hnet'
  obtain ⟨net, hnet⟩ := isSome_iff_exists.mp (h.network_before hw (isSome_of_mem hnet'))
  have howner := h.evolves.founded (hp.shared.network_founded hnet)
  exact ⟨net, hnet, h.sound.founder_unique howner howner',
    h.sound.founder_unique (h.evolves.founded hw) howner'⟩

theorem Move.seated (hp : p.Sound) (hseated : p.shared.Seated)
    (hup : ∀ e ∈ log, p.shared.Upholds e) : (handler lib c i p.shared).2.Seated := by
  intro id net' m' hnet' hrow'
  rcases members_method hrow' with hrow | ⟨role, m, rfl, hrow, -⟩ | ⟨m, rfl, rfl, hu, hrow, hset⟩
  · obtain ⟨w, hw⟩ := hp.shared.member_founded hrow
    obtain ⟨net, hnet, howner, -⟩ := h.owner_before hp hw hnet'
    rw [← howner] at hrow
    exact hseated id net m' hnet hrow
  · -- A role is given only to those who were read as something else than the owner.
    exfalso
    obtain ⟨w, hw⟩ := hp.shared.member_founded hrow
    obtain ⟨net, hnet, -, rfl⟩ := h.owner_before hp hw hnet'
    have hgone := h.spares_owner hup (by simp [rewrites]) hw
    rw [hnet] at hgone
    cases hgone
  · rcases h.fits.2 with ⟨hrole, -⟩ | ⟨-, code, found, -, htold, hid⟩
    · exact hset.trans hrole
    · -- The owner's row was there when the code was presented.
      exfalso
      have hknown : p.shared.Owner found.id found.ownerID := h.known _ htold
      rw [hid] at hknown
      obtain ⟨net, hnet, -, howner⟩ := h.owner_before hp hknown hnet'
      have hseat := hup _ htold (by rw [hid, hnet]; rfl)
      rw [hid, howner] at hseat
      obtain ⟨m₀, hm₀⟩ := hseat
      rw [hrow] at hm₀
      cases hm₀

theorem Move.keeps_seat (hup : ∀ e ∈ log, p.shared.Upholds e) (howner : p.shared.Owner id u)
    (hpre : (p.shared.store.networks.get id).isSome → p.shared.store.IsMember id u)
    (hsome : ((handler lib c i p.shared).2.store.networks.get id).isSome) :
    (handler lib c i p.shared).2.store.IsMember id u := by
  by_contra hgone
  rcases members_gone (hpre (h.network_before howner hsome)) hgone with rfl | rfl
  · have hnone := h.spares_owner hup (by simp [rewrites]) howner
    rw [h.evolves.gone howner hnone] at hsome
    cases hsome
  · rw [handler, networks_deleted] at hsome
    cases hsome

theorem Move.upholds (hup : ∀ e ∈ log, p.shared.Upholds e)
    {e : RepoEntry} (hknows : p.shared.Knows e)
    (he : p.shared.Upholds e) : (handler lib c i p.shared).2.Upholds e := by
  unfold Upholds at he ⊢
  split at he
  · next id u m =>
    intro hrole howner
    -- Owners are what they were, and what is gone stays gone.
    obtain ⟨⟨w, hw⟩, -⟩ := hknows
    obtain rfl : w = u := h.sound.founder_unique (h.evolves.founded hw) howner
    exact h.evolves.gone hw (he hrole hw)
  · exact fun hrole => h.keeps_seat hup (hknows hrole) (he hrole)
  · exact h.keeps_seat hup hknows he
  · trivial

theorem Move.learns_upheld (hp : p.Sound) (hseated : p.shared.Seated)
    (hup : ∀ e ∈ log, p.shared.Upholds e)
    (hfound : ∀ code ∈ c.presents, ∀ net ∈ p.shared.store.networks.values i.order,
      lib.equalFold net.inviteCode code = true → p.shared.store.IsMember net.id net.ownerID) :
    (handler lib c i p.shared).2.Upholds ⟨c, (handler lib c i p.shared).1⟩ := by
  cases c with
  | members c =>
    cases c with
    | get id u =>
      cases hans : (handler lib (.members (.get id u)) i p.shared).1 with
      | error e => trivial
      | ok m =>
        intro hrole howner
        have hrow : p.shared.store.member id u = some m := getMember_ok hans
        obtain ⟨w, hw⟩ := hp.shared.member_founded hrow
        obtain rfl : w = u := h.sound.founder_unique (h.evolves.founded hw) howner
        -- As long as the network is there, the row of its founder says owner.
        by_contra hsome
        obtain ⟨net', hnet'⟩ := ne_none_iff_exists'.mp hsome
        obtain ⟨net, hnet, hsame, rfl⟩ := h.owner_before hp hw hnet'
        rw [← hsame] at hrow
        exact hrole (hseated id net m hnet hrow)
    | create m =>
      cases hans : (handler lib (.members (.create m)) i p.shared).1 with
      | error e => trivial
      | ok m' =>
        intro _ _
        exact isMember_of_create hans
    | _ => trivial
  | networks c =>
    cases c with
    | getByInviteCode code =>
      cases hans : (handler lib (.networks (.getByInviteCode code)) i p.shared).1 with
      | error e => trivial
      | ok net =>
        obtain ⟨hmem, hcode⟩ := getByInviteCode_found hans
        have hseat := hfound code rfl net hmem hcode
        exact h.keeps_seat hup (hp.shared.network_founded (getByInviteCode_ok hans)) fun _ => hseat
    | _ => trivial
  | _ => trivial

end

/-- Owners are seated, and what requests have been told is upheld. -/
structure Orderly (p : JournaledRequests) : Prop extends p.Sound where
  seated : p.shared.Seated
  upheld : ∀ th ∈ p.threads, ∀ e ∈ th.2.1, p.shared.Upholds e

theorem orderly_idle : Orderly ⟨⟨.empty, [], []⟩, []⟩ where
  toSound := sound_idle
  seated _ _ _ h := nomatch h
  upheld _ hth := nomatch hth

/-- A network that `Create` has returned has its owner's row, as long as it exists. -/
theorem Orderly.seat (h : p.Orderly) (hserv : p.AsServed)
    {th : RestCall × RestProg} (hth : th ∈ p.erase.threads)
    (hcreated : created th = some id) {net : Network}
    (hnet : p.shared.store.networks.get id = some net) :
    p.shared.store.IsMember id net.ownerID := by
  obtain ⟨⟨t, log, q⟩, hmem, rfl⟩ := mem_map.mp hth
  unfold created at hcreated
  split at hcreated
  · next heq =>
    cases heq
    cases hcreated
    -- `Create` has stored the owner's row, and it is still there.
    obtain ⟨-, row, stored, htold, hid, -, hrole⟩ := hserv _ hmem
    have howner : p.shared.Owner row.networkID row.userID := h.known _ hmem _ htold hrole
    have hseat := h.upheld _ hmem _ htold hrole (by rw [hid, hnet]; rfl)
    rw [hid] at howner hseat
    rw [← h.shared.founder_unique howner (h.shared.network_founded hnet)]
    exact hseat
  · cases hcreated

theorem Orderly.step (h : p.Orderly) (hserv : p.AsServed)
    (hunused : Requests.DrawsUnused p.erase a) (hcond : CodesReturned lib p.erase a)
    (hstep : step lib p a = some p') : p'.Orderly := by
  have hsound := h.toSound
  refine ⟨hsound.step hserv hunused hstep, ?_, ?_⟩
  · refine hsound.shared_step (G := (·.Seated)) hserv hunused hstep h.seated ?_
    rintro n i t log c k rfl hmove
    exact hmove.seated hsound h.seated (h.upheld _ (mem_of_getElem? hmove.moving))
  · refine hsound.threads_step (A := fun th s => ∀ e ∈ th.2.1, s.Upholds e) hserv hunused hstep
      h.upheld ?_ ?_ ?_
    · exact fun _ _ _ he => nomatch he
    · rintro n i t log c k rfl hmove e he
      have hup := h.upheld _ (mem_of_getElem? hmove.moving)
      rcases mem_cons.mp he with rfl | hold
      · refine hmove.learns_upheld hsound h.seated hup ?_
        intro code hcode net hnet hfold
        obtain ⟨th, hth, hcreated⟩ := hcond c hmove.next code hcode net hnet hfold
        exact h.seat hserv hth hcreated (Table.mem_values.mp hnet)
      · exact hmove.upholds hup (hmove.known e hold) (hup e hold)
    · intro n i t log c k _ hmove m th _ hm hth e he
      have hup := h.upheld _ (mem_of_getElem? hmove.moving)
      exact hmove.upholds hup (hsound.known th (mem_of_getElem? hm) e he) (hth e he)

theorem Orderly.oneOwner (h : p.Orderly) (hserv : p.AsServed) : OneOwner p.erase := by
  intro u name description cidr dns net hret now hnow w
  replace hnow : p.shared.store.networks.get net.id = some now := hnow
  constructor
  · intro hrole
    obtain ⟨m, hm, hrole⟩ := hrole
    exact h.shared.founder_unique (h.shared.owner_founder hm hrole)
      (h.shared.network_founded hnow)
  · intro hw
    subst hw
    obtain ⟨m, hm⟩ := h.seat hserv hret rfl hnow
    exact ⟨m, hm, h.seated net.id now m hnow hm⟩

/-! ## Who makes admins -/

theorem Move.admin_before (h : Move lib p n i t log c k)
    (hadmin : (handler lib c i p.shared).2.store.RoleIs id u .admin) :
    p.shared.store.RoleIs id u .admin ∨ c = .members (.updateRole id u .admin) := by
  obtain ⟨m', hrow', hrole⟩ := hadmin
  rcases members_method hrow' with hrow | ⟨role, m, rfl, -, hset⟩ | ⟨m, rfl, -, -, -, hset⟩
  · exact .inl ⟨m', hrow, hrole⟩
  · rw [← hset, hrole]
    exact .inr rfl
  · exfalso
    rw [hrole] at hset
    rcases h.fits.2 with ⟨howner, -⟩ | ⟨hmbr, -⟩
    · rw [howner] at hset
      cases hset
    · rw [hmbr] at hset
      cases hset

theorem Sound.adminsMadeByOwner (h : p.Sound) (hserv : p.AsServed) :
    AdminsMadeByOwner lib p.erase a := by
  intro p' hstep id u hpre hafter
  rcases h.exists_move hserv hstep with hsame | ⟨n, i, t, log, c, k, rfl, hmove, hshared⟩
  · rw [hsame] at hafter
    exact absurd hafter hpre
  rw [hshared] at hafter
  rcases hmove.admin_before hafter with hadmin | rfl
  · exact absurd hadmin hpre
  · -- The caller has been read as the owner.
    obtain ⟨caller, row, target, rest, rfl, rfl, htold, -, -, howner⟩ := hmove.fits.2
    refine ⟨n, i, caller, _, rfl, hmove.erased, ?_⟩
    exact (hmove.known _ (mem_cons_of_mem _ htold)).2 (howner (.inl rfl))

end JournaledRequests

/-- A network whose `Create` has returned has one owner for as long as it exists, and only the
    owner makes admins, if no code is presented before the `Create` that drew it has returned. -/
theorem one_owner (lib : StdLib) (as : List RestStep)
    (h : Along (Requests.step lib) (CodesReturned lib) Requests.idle as) :
    Throughout (Requests.step lib) OneOwner Requests.idle as ∧
      Along (Requests.step lib) (AdminsMadeByOwner lib) Requests.idle as := by
  constructor
  · exact throughout orderly_idle (fun _ _ _ hq => hq.step) h
      fun _ hserv hq => hq.oneOwner hserv
  · exact along orderly_idle (fun _ _ _ hq => hq.step) h
      fun _ _ hserv hq => hq.toSound.adminsMadeByOwner hserv

section

open Requests (comesIn goesOn)

/-- User 1 gives user `k` a role. -/
def ownerGives (k : UInt8) (role : NetworkRole) : RestCall :=
  .updateMemberRole (.ofBytes [7]) (.ofBytes [1]) (.ofBytes [k]) role

/-- User 1 creates a network, user 2 joins it and is made an admin. -/
def settledHome : List RestStep :=
  homeCreated ++ comesIn 1 guestJoins 7 default ++
    comesIn 2 (ownerGives 2 .admin) 3 default

/-- User 3 joins while user 1 sets out to make user 2 an admin, and is made one as well.  Then
    user 2 is demoted while user 3 leaves. -/
def busyHome : List RestStep :=
  homeCreated ++ comesIn 1 guestJoins 7 default ++
    comesIn 2 (ownerGives 2 .admin) 2 default ++
    comesIn 3 (.joinNetwork (.ofBytes [3]) "invite") 6 default ++ goesOn 2 1 default ++
    comesIn 4 (ownerGives 3 .admin) 2 default ++ goesOn 3 1 default ++ goesOn 4 1 default ++
    comesIn 5 (ownerGives 2 .member) 2 default ++
    comesIn 6 (.removeMember (.ofBytes [7]) (.ofBytes [3]) (.ofBytes [3])) 2 default ++
    goesOn 5 1 default ++ goesOn 6 1 default

theorem one_owner_home :
    Throughout (Requests.step lenientLib) OneOwner Requests.idle busyHome ∧
      Along (Requests.step lenientLib) (AdminsMadeByOwner lenientLib) Requests.idle busyHome :=
  one_owner lenientLib busyHome (by decide +kernel)

end

/-! ## Admins among admins -/

/-- Whoever is about to write an admin's row is the owner, or deletes their own. -/
def Archive.Permitted (s : Archive) (t : RestCall) : RepoCall → Prop
  | .members (.updateRole n u _) => s.store.RoleIs n u .admin → s.Owner n t.caller
  | .members (.delete n u) => s.store.RoleIs n u .admin → s.Owner n t.caller ∨ t.caller = u
  | _ => True

namespace JournaledRequests

variable {lib : StdLib} {p p' : JournaledRequests} {n : Nat} {i : RepoInput} {t : RestCall}
  {log : Journal repoIface} {c : RepoCall} {k : repoIface.Ans c → RestProg} {a : RestStep}

section

variable (h : Move lib p n i t log c k)
include h

theorem Move.just_read {target : NetworkMember}
    {rest : Journal repoIface} (hlog : ⟨c, (handler lib c i p.shared).1⟩ :: log =
      ⟨.members (.get id u), .ok target⟩ :: rest)
    (hadmin : (handler lib c i p.shared).2.store.RoleIs id u .admin) :
    rest = log ∧ target.role = .admin := by
  obtain ⟨rfl, hans, rfl⟩ := Journal.latest_inj (I := repoIface) hlog
  have hrow : p.shared.store.member id u = some target := getMember_ok (eq_of_heq hans)
  rcases h.admin_before hadmin with ⟨m, hm, hrole⟩ | hwrite
  · obtain rfl : target = m := some.inj (hrow.symm.trans hm)
    exact ⟨rfl, hrole⟩
  · cases hwrite

theorem Move.permitted {c' : RepoCall}
    (hc' : Backed t (⟨c, (handler lib c i p.shared).1⟩ :: log) c') :
    (handler lib c i p.shared).2.Permitted t c' := by
  unfold Permitted
  split
  · next id u role =>
    intro hadmin
    obtain ⟨caller, row, target, rest, rfl, hlog, htold, -, -, howner⟩ := hc'
    obtain ⟨rfl, hrole⟩ := h.just_read hlog hadmin
    exact h.evolves.founded ((h.known _ htold).2 (howner (.inr hrole)))
  · next id u =>
    intro hadmin
    obtain ⟨caller, row, target, rest, rfl, hlog, htold, -, howner⟩ := hc'
    obtain ⟨rfl, hrole⟩ := h.just_read hlog hadmin
    by_cases hself : caller = u
    · exact .inr hself
    · exact .inl (h.evolves.founded ((h.known _ htold).2 (howner hself hrole)))
  · trivial

theorem Move.still_permitted {t' : RestCall} {c' : RepoCall}
    (hapart : ∀ x ∈ c.promotes, c'.rewrites x.1 x.2 = false) (hc' : p.shared.Permitted t' c') :
    (handler lib c i p.shared).2.Permitted t' c' := by
  have hpre : ∀ id u, c'.rewrites id u = true →
      (handler lib c i p.shared).2.store.RoleIs id u .admin →
      p.shared.store.RoleIs id u .admin := by
    intro id u hwrites hadmin
    rcases h.admin_before hadmin with hold | rfl
    · exact hold
    · rw [hapart (id, u) rfl] at hwrites
      cases hwrites
  unfold Permitted at hc' ⊢
  split at hc'
  · next id u role =>
    intro hadmin
    have hold := hpre id u (by simp [rewrites]) hadmin
    exact h.evolves.founded (hc' hold)
  · next id u =>
    intro hadmin
    have hold := hpre id u (by simp [rewrites]) hadmin
    exact (hc' hold).imp_left fun howner => h.evolves.founded howner
  · trivial

end

/-- No request is about to write a row that it may not. -/
structure Restrained (p : JournaledRequests) : Prop extends p.Sound where
  pending : ∀ th ∈ p.threads, ∀ c ∈ nextCall th.2.2, p.shared.Permitted th.1 c

theorem restrained_idle : Restrained ⟨⟨.empty, [], []⟩, []⟩ where
  toSound := sound_idle
  pending _ hth := nomatch hth

theorem Restrained.step (h : p.Restrained) (hserv : p.AsServed)
    (hunused : Requests.DrawsUnused p.erase a) (hcond : PromotesAlone p.erase a)
    (hstep : step lib p a = some p') : p'.Restrained := by
  have hsound := h.toSound
  refine ⟨hsound.step hserv hunused hstep, ?_⟩
  refine hsound.threads_step (A := fun th s => ∀ c ∈ nextCall th.2.2, s.Permitted th.1 c)
    hserv hunused hstep h.pending ?_ ?_ ?_
  · intro t _ c hc
    have hback := (fitting_next (body_obeys lib t) hc).2
    unfold Permitted
    split
    · obtain ⟨_, _, _, _, -, hlog, -⟩ := hback
      cases hlog
    · obtain ⟨_, _, _, _, -, hlog, -⟩ := hback
      cases hlog
    · trivial
  · intro n i t log c k _ hmove c' hc'
    exact hmove.permitted (fitting_next hmove.served hc').2
  · -- A promotion while another request holds what it has read would break it.
    rintro n i t log c k rfl hmove m th hmn hm hth c' hc'
    refine hmove.still_permitted ?_ (hth c' hc')
    intro x hx
    have hlen : m < p.erase.threads.length := by
      rw [Tracked.erase, length_map]
      exact (List.getElem?_eq_some_iff.mp hm).1
    have hnext : next p.erase m = some c' := by
      simpa [Requests.next, Tracked.erase, hm] using hc'
    exact hcond c hmove.next x hx m hlen hmn c' hnext

theorem Restrained.adminsProtected (h : p.Restrained) (hserv : p.AsServed) :
    AdminsProtected lib p.erase a := by
  intro p' hstep id u hpre hafter
  rcases h.exists_move hserv hstep with hsame | ⟨n, i, t, log, c, k, rfl, hmove, hshared⟩
  · rw [hsame] at hafter
    exact absurd hpre hafter
  rw [hshared] at hafter ⊢
  refine ⟨n, i, t, _, rfl, hmove.erased, ?_⟩
  have hperm := h.pending _ (mem_of_getElem? hmove.moving) c rfl
  obtain ⟨m, hrow, hrole⟩ := hpre
  by_cases hstays : (handler lib c i p.shared).2.store.IsMember id u
  · -- The row has another role now.
    obtain ⟨m', hrow'⟩ := hstays
    rcases members_method hrow' with hsame | ⟨role, m, rfl, -, -⟩ | ⟨m, -, -, -, hnone, -⟩
    · obtain rfl : m = m' := some.inj (hrow.symm.trans hsame)
      exact absurd ⟨m, hrow', hrole⟩ hafter
    · exact .inl (hperm ⟨_, hrow, hrole⟩)
    · exact absurd (hrow.symm.trans hnone) (by simp)
  · rcases members_gone ⟨m, hrow⟩ hstays with rfl | rfl
    · exact (hperm ⟨m, hrow, hrole⟩).imp_right fun hself => ⟨hstays, hself⟩
    · -- The network is deleted, which takes its owner.
      obtain ⟨w, row, rfl, htold, howner⟩ := hmove.fits.2
      exact .inl ((hmove.known _ htold).2 howner)

end JournaledRequests

/-- Only the owner demotes an admin, and only the owner or the admin removes one, if nobody is made
    an admin while another request is about to write their row. -/
theorem admins_protected (lib : StdLib) (as : List RestStep)
    (h : Along (Requests.step lib) PromotesAlone Requests.idle as) :
    Along (Requests.step lib) (AdminsProtected lib) Requests.idle as :=
  along restrained_idle (fun _ _ _ hq => hq.step) h
    fun _ _ hserv hq => hq.adminsProtected hserv

section

open Requests (comesIn goesOn)

theorem admins_protected_home :
    (∃ p, run (Requests.step lenientLib) Requests.idle busyHome = some p ∧
      p.shared.store.RoleIs (.ofBytes [7]) (.ofBytes [2]) .member ∧
      ¬ p.shared.store.IsMember (.ofBytes [7]) (.ofBytes [3])) ∧
    Along (Requests.step lenientLib) (AdminsProtected lenientLib) Requests.idle busyHome :=
  ⟨⟨_, rfl, by decide +kernel, by decide +kernel⟩,
    admins_protected lenientLib busyHome (by decide +kernel)⟩

/-- User 3 joins as well.  User 2, who is an admin, sets out on a request about user 3 and
    has read that user 3 is a plain member when user 1 makes user 3 an admin. -/
def rivalry (c : RestCall) : List RestStep :=
  settledHome ++ comesIn 3 (.joinNetwork (.ofBytes [3]) "invite") 7 default ++
    comesIn 4 c 2 default ++
    comesIn 5 (ownerGives 3 .admin) 3 default

/-- The write of user 2 then removes, or demotes, an admin. -/
theorem admin_removed_by_admin :
    (∃ p, run (Requests.step lenientLib) Requests.idle
        (rivalry (.removeMember (.ofBytes [7]) (.ofBytes [2]) (.ofBytes [3]))) = some p ∧
      ¬ AdminsProtected lenientLib p (.advance 4 default)) ∧
    ∃ p, run (Requests.step lenientLib) Requests.idle
        (rivalry (.updateMemberRole (.ofBytes [7]) (.ofBytes [2]) (.ofBytes [3]) .member)) =
          some p ∧
      ¬ AdminsProtected lenientLib p (.advance 4 default) := by
  refine ⟨⟨_, rfl, ?_⟩, ⟨_, rfl, ?_⟩⟩
  all_goals
    intro h
    obtain ⟨k, i, t, q, ha, hth, hwho⟩ :=
      h _ rfl (.ofBytes [7]) (.ofBytes [3]) (by decide +kernel) (by decide +kernel)
    cases ha
    cases hth
    revert hwho
    decide +kernel

end

end NexusVPN.Backend
