import NexusVPN.Backend.AccessControl
import NexusVPN.Backend.Records

/-! # Referential integrity

    The embedded store has no foreign keys.  Deleting a network takes its members and its
    devices with it, in one call; joining and registering look for the network or the
    membership in one call and insert a row in another. -/

namespace NexusVPN.Backend

open List Prog Option Machine RepoCall Archive Pool Requests

/-! ## The property -/

/-- Every membership refers to a network, and every device to a network of which its owner
    is a member. -/
structure Store.Integral (s : Store) : Prop where
  member : ∀ n u, s.IsMember n u → (s.networks.get n).isSome
  device : ∀ id d, s.devices.get id = some d →
    (s.networks.get d.networkID).isSome ∧ s.IsMember d.networkID d.userID

/-- No call is in progress. -/
def Requests.AtRest (p : Requests) : Prop := ∀ th ∈ p.threads, nextCall th.2 = none

instance (p : Requests) : Decidable p.AtRest :=
  inferInstanceAs (Decidable (∀ th ∈ p.threads, nextCall th.2 = none))

def IntegralAtRest (p : Requests) : Prop := p.AtRest → p.shared.store.Integral

/-! ## The condition -/

/-- The call adds a row to the network. -/
def RepoCall.addsTo (n : UUID) : RepoCall → Prop
  | .members (.create m) => m.networkID = n
  | .devices (.create d) => d.networkID = n
  | _ => False

/-- The call adds a device of the user to the network. -/
def RepoCall.addsDeviceOf (n u : UUID) : RepoCall → Prop
  | .devices (.create d) => d.networkID = n ∧ d.userID = u
  | _ => False

/-- What a call takes away the other may rest on. -/
def RepoCall.undercuts : RepoCall → RepoCall → Prop
  | .networks (.delete n) => addsTo n
  | .members (.delete n u) => addsDeviceOf n u
  | _ => fun _ => False

/-- The request has made the lookup by which it settles on a network, and may still make a
    call of that kind. -/
def Outstanding (th : RestCall × RestProg) (adds : RepoCall → Prop) : Prop :=
  th.2.Avoids (fun c => th.1.locates c = true) ∧ ¬ th.2.Avoids adds

theorem not_outstanding {th : RestCall × RestProg} {adds : RepoCall → Prop}
    (h : nextCall th.2 = none) : ¬ Outstanding th adds := by
  intro hout
  apply hout.2
  cases hprog : th.2 with
  | ret a => trivial
  | call c k =>
    rw [hprog] at h
    cases h

/-- A network is deleted only while no other request that has found it may still add a row
    to it, and a member only while no other request that has found the membership may still
    add a device. -/
def DeletesUnneeded (p : Requests) : RestStep → Prop
  | .spawn _ => True
  | .advance k _ => ∀ c ∈ p.next k, ∀ j th, j ≠ k → p.threads[j]? = some th →
      ¬ Outstanding th c.undercuts

/-! ## What a request rests on -/

/-- As long as the request may still add a row, what it was told about the place is so. -/
def Store.Bears (s : Store) (q : RestProg) : RepoEntry → Prop
  | ⟨.networks (.create _), .ok net⟩ | ⟨.networks (.getByInviteCode _), .ok net⟩ =>
    ¬ q.Avoids (addsTo net.id) → (s.networks.get net.id).isSome
  | ⟨.members (.get n u), .ok _⟩ => ¬ q.Avoids (addsDeviceOf n u) → s.IsMember n u
  | _ => True

section

variable {lib : StdLib} {i : RepoInput} {s : Store} {c : RepoCall}
  {q q' : RestProg} {e : RepoEntry}

theorem Store.Bears.keep (h : s.Bears q e) (hq : ∀ bad, q.Avoids bad → q'.Avoids bad)
    (hsafe : q'.Avoids c.undercuts) : (Store.method lib c i s).2.Bears q' e := by
  have hnet : ∀ n, (¬ q.Avoids (addsTo n) → (s.networks.get n).isSome) →
      ¬ q'.Avoids (addsTo n) →
      ((Store.method lib c i s).2.networks.get n).isSome := by
    intro n hpre hadds
    have hthere := hpre fun hav => hadds (hq _ hav)
    by_contra hgone
    obtain rfl := networks_gone hthere (not_isSome_iff_eq_none.mp hgone)
    exact hadds hsafe
  unfold Store.Bears at h ⊢
  split at h
  · exact hnet _ h
  · exact hnet _ h
  · next n u _ =>
    intro hadds
    have hthere := h fun hav => hadds (hq _ hav)
    by_contra hgone
    -- The member has gone by itself, or with its network.
    rcases members_gone hthere hgone with rfl | rfl
    · exact hadds hsafe
    · refine hadds (hsafe.mono ?_)
      intro c hc
      unfold addsDeviceOf at hc
      split at hc
      · exact hc.1
      · cases hc
  · trivial

end

/-! ## Calls -/

theorem locates_create {t : RestCall} {u : UUID} (h : t.founder = some u) (net : Network) :
    t.locates (.networks (.create net)) = true := by
  cases t <;> first | rfl | cases h

theorem locates_getMember {t : RestCall} {x : UUID × UUID × String} (h : t.registers = some x)
    (n u : UUID) : t.locates (.members (.get n u)) = true := by
  cases t <;> first | rfl | cases h

theorem avoids_locates {t : RestCall} {Q : RestOutcome → Journal repoIface → Prop}
    {q : RestProg} {log : Journal repoIface}
    (h : q.Obeys (Journal.protocol (Fitting t)) Q log)
    {e : RepoEntry} (he : e ∈ log)
    (hloc : t.locates e.1 = true) : q.Avoids fun c => t.locates c = true := by
  refine h.avoids (K := fun log : Journal repoIface => e ∈ log) ?_ ?_ he
  · exact fun log e' hmem => mem_cons_of_mem e' hmem
  · intro log c hmem hfits hc
    rw [hfits.1 hc e hmem] at hloc
    cases hloc

namespace JournaledRequests

variable {lib : StdLib} {p p' : JournaledRequests} {n : Nat} {i : RepoInput} {t : RestCall}
  {log : Journal repoIface} {c : RepoCall} {k : repoIface.Ans c → RestProg} {a : RestStep}

theorem Move.undercuts_nothing (h : Move lib p n i t log c k) {c₀ : RepoCall}
    (hloc : t.locates c₀ = true) (c' : RepoCall) : ¬ c.undercuts c' := by
  have hback := h.fits.2
  unfold undercuts
  split
  · obtain ⟨u, row, rfl, -⟩ := hback
    cases hloc
  · obtain ⟨caller, row, target, rest, rfl, -⟩ := hback
    cases hloc
  · exact id

section

variable (h : Move lib p n i t log c k) (hp : p.Sound) (hi : p.shared.store.Integral)
  (hborne : ∀ e ∈ log, t.locates e.1 = true → p.shared.store.Bears (.call c k) e)

include h hborne in
theorem Move.network_of_create {m : NetworkMember} (hm : c = .members (.create m)) :
    (p.shared.store.networks.get m.networkID).isSome := by
  subst hm
  rcases h.fits.2 with ⟨-, hfounder, net, stored, htold, hid, -⟩ | ⟨-, code, net, rfl, htold, hid⟩
  · have hbears := hborne _ htold (locates_create hfounder net)
    rw [← hid]
    exact hbears fun hav => hav.1 hid.symm
  · have hbears := hborne _ htold rfl
    rw [← hid]
    exact hbears fun hav => hav.1 hid.symm

include h hborne in
theorem Move.member_of_create {d : Device} (hd : c = .devices (.create d)) :
    p.shared.store.IsMember d.networkID d.userID := by
  subst hd
  obtain ⟨hreg, cidr, id, row, rest, rfl, htold⟩ := h.fits.2
  have hbears := hborne _ (mem_cons_of_mem _ (mem_cons_of_mem _ htold)) (locates_getMember hreg _ _)
  exact hbears fun hav => hav.1 ⟨rfl, rfl⟩

include h hp hi hborne in
theorem Move.integral : (handler lib c i p.shared).2.store.Integral := by
  constructor
  · intro id u hmbr
    obtain ⟨m', hm'⟩ := hmbr
    have hpre : (p.shared.store.networks.get id).isSome := by
      rcases members_method hm' with hold | ⟨role, m, -, hold, -⟩ | ⟨m, hm, rfl, -⟩
      · exact hi.member id u ⟨m', hold⟩
      · exact hi.member id u ⟨m, hold⟩
      · exact h.network_of_create hborne hm
    by_contra hgone
    obtain rfl := networks_gone hpre (not_isSome_iff_eq_none.mp hgone)
    exact absurd (hm'.symm.trans ((cascade_network hpre).1 u)) (by simp)
  · intro id d' hd'
    have hpre : p.shared.store.IsMember d'.networkID d'.userID := by
      rcases h.device_before hp hd' with ⟨d, hold, hplace⟩ | ⟨d, hd, -, hplace⟩
      · obtain ⟨hn, hu, -⟩ := Device.placement_inj hplace
        rw [hn, hu]
        exact (hi.device id d hold).2
      · obtain ⟨hn, hu, -⟩ := Device.placement_inj hplace
        rw [hn, hu]
        exact h.member_of_create hborne hd
    have hnet := hi.member _ _ hpre
    -- Whatever takes the network or the member away takes the device with it.
    constructor
    · by_contra hgone
      obtain rfl := networks_gone hnet (not_isSome_iff_eq_none.mp hgone)
      exact (cascade_network hnet).2 id d' hd' rfl
    · by_contra hgone
      rcases members_gone hpre hgone with rfl | rfl
      · exact cascade_member hpre hd' ⟨rfl, rfl⟩
      · exact (cascade_network hnet).2 id d' hd' rfl

end

theorem Move.learns_borne (h : Move lib p n i t log c k) (hloc : t.locates c = true)
    {q : RestProg} :
    (handler lib c i p.shared).2.store.Bears q ⟨c, (handler lib c i p.shared).1⟩ := by
  rcases RestCall.locates_cases hloc with ⟨net, rfl⟩ | ⟨code, rfl⟩ | ⟨-, id, u, rfl⟩
  · cases hans : (handler lib (.networks (.create net)) i p.shared).1 with
    | error e => trivial
    | ok stored => exact fun _ => isSome_of_mem (created_network hans)
  · cases hans : (handler lib (.networks (.getByInviteCode code)) i p.shared).1 with
    | error e => trivial
    | ok net =>
      have hfound : p.shared.store.networks.get net.id = some net := getByInviteCode_ok hans
      intro _
      by_contra hgone
      cases networks_gone (isSome_of_mem hfound) (not_isSome_iff_eq_none.mp hgone)
  · cases hans : (handler lib (.members (.get id u)) i p.shared).1 with
    | error e => trivial
    | ok row =>
      have hrow : p.shared.store.member id u = some row := getMember_ok hans
      intro _
      by_contra hgone
      rcases members_gone ⟨row, hrow⟩ hgone with heq | heq <;> cases heq

/-- The store is integral, and bears every request that may still add a row. -/
structure Anchored (p : JournaledRequests) : Prop extends p.Sound where
  integral : p.shared.store.Integral
  borne : ∀ th ∈ p.threads, ∀ e ∈ th.2.1, th.1.locates e.1 = true → p.shared.store.Bears th.2.2 e

theorem anchored_idle : Anchored ⟨⟨.empty, [], []⟩, []⟩ where
  toSound := sound_idle
  integral := ⟨fun _ _ ⟨_, h⟩ => (nomatch h), fun _ _ h => nomatch h⟩
  borne _ hth := nomatch hth

/-- What the requests rest on is still there after a step. -/
theorem Anchored.step (h : p.Anchored) (hserv : p.AsServed)
    (hunused : Requests.DrawsUnused p.erase a) (hcond : DeletesUnneeded p.erase a)
    (hstep : step lib p a = some p') : p'.Anchored := by
  have hsound := h.toSound
  refine ⟨hsound.step hserv hunused hstep, ?_, ?_⟩
  · exact hsound.shared_step (G := (·.store.Integral)) hserv hunused hstep h.integral
      fun n i t log c k _ hmove =>
        hmove.integral hsound h.integral (h.borne _ (mem_of_getElem? hmove.moving))
  · refine hsound.threads_step (A := fun th s => ∀ e ∈ th.2.1, th.1.locates e.1 = true →
      s.store.Bears th.2.2 e) hserv hunused hstep h.borne ?_ ?_ ?_
    · exact fun _ _ _ he => nomatch he
    · intro n i t log c k _ hmove e he hloc
      rcases mem_cons.mp he with rfl | hold
      · exact hmove.learns_borne hloc
      · -- Its own call takes nothing away, and what it may do only gets less.
        have hbears := h.borne _ (mem_of_getElem? hmove.moving) e hold hloc
        refine hbears.keep (fun bad hav => hav.2 _) ?_
        exact avoids_of_forall_not (hmove.undercuts_nothing hloc) _
    · rintro n i t log c k rfl hmove m th hmn hm hth e he hloc
      refine (hth e he hloc).keep (fun bad hav => hav) ?_
      have hset := avoids_locates (hserv th (mem_of_getElem? hm)) he hloc
      have herased : p.erase.threads[m]? = some (th.1, th.2.2) := by
        simp [Tracked.erase, hm]
      by_contra hadds
      exact hcond c hmove.next m _ hmn herased ⟨hset, hadds⟩

end JournaledRequests

/-- Once all requests are done, no member and no device is left without its network, and no
    device without its member. -/
theorem integrity_at_rest (lib : StdLib) (as : List RestStep)
    (h : Along (step lib) DeletesUnneeded idle as) :
    Throughout (step lib) IntegralAtRest idle as :=
  throughout JournaledRequests.anchored_idle (fun _ _ _ hq => hq.step) h
    fun _ _ hq _ => hq.integral

section

open Requests (comesIn goesOn)

/-- The call deletes a network or a member. -/
def RepoCall.deletes : RepoCall → Bool
  | .networks (.delete _) | .members (.delete _ _) => true
  | _ => false

/-- Networks and members are deleted while nothing else is in progress. -/
def DeletesAlone (p : Requests) : RestStep → Prop
  | .spawn _ => True
  | .advance k _ => ∀ c ∈ p.next k, c.deletes = true → ∀ j < p.threads.length, j ≠ k →
      p.next j = none

instance (p : Requests) : (a : RestStep) → Decidable (DeletesAlone p a)
  | .spawn _ => .isTrue trivial
  | .advance k _ => inferInstanceAs (Decidable (∀ c ∈ p.next k, _))

theorem deletesUnneeded_of_alone {p : Requests} {a : RestStep}
    (h : DeletesAlone p a) : DeletesUnneeded p a := by
  cases a with
  | spawn t => trivial
  | advance k i =>
    intro c hc j th hj hth
    by_cases hdeletes : c.deletes = true
    · have hlen := (List.getElem?_eq_some_iff.mp hth).1
      apply not_outstanding
      simpa [Requests.next, hth] using h c hc hdeletes j hlen hj
    · intro hout
      apply hout.2
      apply avoids_of_forall_not
      intro c'
      unfold undercuts
      split
      · exact absurd rfl hdeletes
      · exact absurd rfl hdeletes
      · exact id

/-- What is drawn for the guest's phone. -/
def phoneDraw : RepoInput := { (default : RepoInput) with fresh := .ofBytes [8] }

/-- User 2 registers a phone on the home network. -/
def phoneRegistered : RestCall :=
  .registerDevice (.ofBytes [2]) (.ofBytes [7]) "phone" "android" "" "phone key"

/-- User 1 removes user 2 from the home network. -/
def guestLeaves : RestCall := .removeMember (.ofBytes [7]) (.ofBytes [1]) (.ofBytes [2])

def homeDeleted : RestCall := .deleteNetwork (.ofBytes [7]) (.ofBytes [1])

/-- The guest joins, registers a phone and is removed, and the network is deleted, all one
    after the other. -/
def wholeStay : List RestStep :=
  homeCreated ++ comesIn 1 guestJoins 7 default ++
    comesIn 2 phoneRegistered 6 phoneDraw ++ comesIn 3 guestLeaves 3 default ++
    comesIn 4 homeDeleted 2 default

theorem integrity_at_rest_home :
    Throughout (step lenientLib) IntegralAtRest idle wholeStay := by
  have halone : Along (step lenientLib) DeletesAlone idle wholeStay := by
    decide +kernel
  refine integrity_at_rest lenientLib wholeStay (halone.imp (P := fun _ => True) ?_ trivial)
  exact fun p a _ _ hc _ => ⟨trivial, deletesUnneeded_of_alone hc⟩

/-- The network is deleted after the guest has found it. -/
def deletedMeanwhile : List RestStep :=
  homeCreated ++ comesIn 1 guestJoins 4 default ++
    comesIn 2 homeDeleted 2 default ++ goesOn 1 3 default

/-- The guest is removed after the registration of the phone has found the membership. -/
def removedMeanwhile : List RestStep :=
  homeCreated ++ comesIn 1 guestJoins 7 default ++
    comesIn 2 phoneRegistered 5 phoneDraw ++ comesIn 3 guestLeaves 3 default ++
    goesOn 2 1 phoneDraw

/-- A member of a network that does not exist is left, or a device whose owner is not a
    member. -/
theorem orphans_at_rest :
    (∃ p, run (step lenientLib) idle deletedMeanwhile = some p ∧
      ¬ IntegralAtRest p) ∧
    ∃ p, run (step lenientLib) idle removedMeanwhile = some p ∧
      ¬ IntegralAtRest p := by
  constructor
  · refine ⟨_, rfl, ?_⟩
    intro h
    have hrest := h (by decide +kernel)
    have hnet := hrest.member (.ofBytes [7]) (.ofBytes [2]) (by decide +kernel)
    revert hnet
    decide +kernel
  · refine ⟨_, rfl, ?_⟩
    intro h
    have hrest := h (by decide +kernel)
    have howner := (hrest.device (.ofBytes [8]) _ rfl).2
    revert howner
    decide +kernel

end

end NexusVPN.Backend
