import NexusVPN.Backend.RelayRepo
import NexusVPN.Lib.Pool

/-! # Do two peers meet at one relay?

    Relayed traffic only flows if both peers bind at the same node, and each of them asks the
    control plane for a relay on its own.  Any number of callers are interleaved operation by
    operation, over relays whose health does not change in the meantime. -/

namespace NexusVPN.Backend

open List Postgres

/-- What `PickLeastLoaded` considers at `now`: healthy (for Postgres: active) and
    below capacity. -/
def RelayRepo.offers (repo : RelayRepo) (now : Time) (rs : RelayServer) : Bool :=
  match repo with
  | .embedded => Embedded.offers now rs
  | .postgres => Postgres.offers rs

namespace Rendezvous

/-! ## Calls over a steady fleet -/

/-- At `now` every relay is as healthy as it was at `t₀`. -/
def Steady (relays : Relays) (t₀ now : Time) : Prop :=
  ∀ id rs, relays.get id = some rs → Embedded.isRelayHealthy now rs = Embedded.isRelayHealthy t₀ rs

/-- Inputs whose clock reading leaves the health of the relays as it was at `t₀`. -/
abbrev SteadyInput (relays : Relays) (t₀ : Time) := { i : AllocInput // Steady relays t₀ i.now }

def steadyHandler (relays : Relays) (t₀ : Time) : Handler allocOps Relays (SteadyInput relays t₀) :=
  fun c i s => allocHandler c i.1 s

/-- Calls of `RequestRelay` in progress or returned. -/
abbrev Calls := Pool allocOps Relays RelayRequest (Except DomainError RelayAllocation)

/-- The calls that may have been made since `t₀`, when the fleet was `relays`. -/
def Reaches (repo : RelayRepo) (relays : Relays) (t₀ : Time) (p : Calls) : Prop :=
  Machine.Reachable (Pool.step (steadyHandler relays t₀) repo.requestRelay fun _ => none)
    ⟨relays, []⟩ p

/-- Two devices of one network that ask with the same preferred region, and are
    both given a relay, are given the same one. -/
def RendezvousAgrees (repo : RelayRepo) (relays : Relays) (t₀ : Time) : Prop :=
  ∀ p, Reaches repo relays t₀ p → ∀ q₁ q₂ a₁ a₂, p.Returned q₁ (.ok a₁) → p.Returned q₂ (.ok a₂) →
    q₁.deviceID ≠ q₂.deviceID → q₁.networkID = q₂.networkID →
    q₁.preferredRegion = q₂.preferredRegion → a₁.relay.id = a₂.relay.id

/-- The relays on offer at `t₀`. -/
def OnOffer (repo : RelayRepo) (relays : Relays) (t₀ : Time) (rs : RelayServer) : Prop :=
  relays.Chosen (repo.offers t₀) rs

/-- No two relays are on offer. -/
def AtMostOneOffer (repo : RelayRepo) (relays : Relays) (t₀ : Time) : Prop :=
  ∀ rs rs', OnOffer repo relays t₀ rs → OnOffer repo relays t₀ rs' → rs.id = rs'.id

/-! ## Loads only grow -/

/-- The fleet is `s₀` with some of the loads increased. -/
def Grown (s₀ s : Relays) : Prop :=
  ∀ id rs, s.get id = some rs → ∃ rs₀, s₀.get id = some rs₀ ∧
    ∃ load, rs₀.currentLoad ≤ load ∧ rs = { rs₀ with currentLoad := load }

theorem Grown.refl (s : Relays) : Grown s s :=
  fun _ rs hrs => ⟨rs, hrs, rs.currentLoad, Int.le_refl _, rfl⟩

variable {s : Relays} {rs : RelayServer}

theorem Grown.addLoad {s₀ : Relays} (h : Grown s₀ s) (id : UUID) : Grown s₀ (s.addLoad id 1) := by
  intro k rs hrs
  rw [Relays.get_addLoad] at hrs
  split at hrs
  · obtain ⟨rs₁, hrs₁, rfl⟩ := Option.map_eq_some_iff.mp hrs
    obtain ⟨rs₀, hrs₀, load, hload, rfl⟩ := h k rs₁ hrs₁
    refine ⟨rs₀, hrs₀, max 0 (load + 1), ?_, rfl⟩
    omega
  · exact h k rs hrs

theorem Grown.onOffer {repo : RelayRepo} {s₀ : Relays} {t₀ now : Time} (h : Grown s₀ s)
    (hst : Steady s₀ t₀ now) (hrs : s.Chosen (repo.offers now) rs) :
    ∃ rs₀, rs₀.id = rs.id ∧ OnOffer repo s₀ t₀ rs₀ := by
  obtain ⟨hget, hoffer⟩ := hrs
  obtain ⟨rs₀, hrs₀, load, hload, heq⟩ := h rs.id rs hget
  have hid : rs₀.id = rs.id := Table.key_of_get hrs₀
  refine ⟨rs₀, hid, by rw [hid]; exact hrs₀, ?_⟩
  have hsame := hst rs.id rs₀ hrs₀
  rw [heq] at hoffer
  cases repo with
  | embedded =>
    simp only [RelayRepo.offers, Embedded.offers, Bool.and_eq_true, decide_eq_true_eq] at hoffer ⊢
    -- Health does not look at the load.
    have hhealth : Embedded.isRelayHealthy now rs₀ = true := hoffer.1
    exact ⟨hsame ▸ hhealth, by omega⟩
  | postgres =>
    simp only [RelayRepo.offers, Postgres.offers, Bool.and_eq_true, decide_eq_true_eq] at hoffer ⊢
    exact ⟨hoffer.1, by omega⟩

/-! ## Any interleaving -/

section

variable {repo : RelayRepo} {relays : Relays} {t₀ : Time}

theorem chosen_of_select {i : AllocInput} {region : Option String}
    (h : (allocHandler (.select region) i s).1 = .ok rs) : s.Chosen Postgres.offers rs := by
  simp only [allocHandler] at h
  split at h
  · cases h
  · rcases selectLeastLoaded_spec s i.order region with ⟨rs', hok, hpick⟩ | ⟨herr, -⟩
    · rw [hok] at h
      cases h
      exact ⟨hpick.1, (Bool.and_eq_true_iff.mp hpick.2).1⟩
    · rw [herr] at h
      cases h

theorem select_snd (i : AllocInput) (s : Relays) (region : Option String) :
    (allocHandler (.select region) i s).2 = s := by
  simp only [allocHandler]
  split <;> rfl

/-- A query changes nothing, and what it finds was on offer at the start. -/
theorem keeps_select {α : Type} {region : Option String}
    {k : Except DomainError RelayServer → Prog allocOps α} {Q : α → Prop}
    (hok : ∀ rs, (∃ rs₀, rs₀.id = rs.id ∧ OnOffer .postgres relays t₀ rs₀) →
      (k (.ok rs)).Keeps (steadyHandler relays t₀) (Grown relays) Q)
    (herr : ∀ e, (k (.error e)).Keeps (steadyHandler relays t₀) (Grown relays) Q) :
    (Prog.call (I := allocOps) (.select region) k).Keeps (steadyHandler relays t₀)
      (Grown relays) Q := by
  intro s i hs
  have hsame : (allocHandler (.select region) i.1 s).2 = s := select_snd i.1 s region
  refine ⟨hsame.symm ▸ hs, ?_⟩
  cases hres : (steadyHandler relays t₀ (.select region) i s).1 with
  | error e => exact herr e
  | ok rs => exact hok rs (hs.onOffer i.2 (chosen_of_select hres))

theorem keeps_pickAnyRegion :
    Postgres.pickAnyRegion.Keeps (steadyHandler relays t₀) (Grown relays)
      fun r => ∀ rs, r = .ok (some rs) →
        ∃ rs₀, rs₀.id = rs.id ∧ OnOffer .postgres relays t₀ rs₀ := by
  refine keeps_select ?_ ?_
  · rintro rs hrs _ ⟨⟩
    exact hrs
  · intro e
    cases e <;> rintro _ ⟨⟩

/-- Whatever `PickLeastLoaded` returns was on offer at the start. -/
theorem keeps_pickLeastLoaded (region : String) :
    (repo.methods (.pickLeastLoaded region)).Keeps (steadyHandler relays t₀) (Grown relays)
      fun r => ∀ rs, r = .ok (some rs) → ∃ rs₀, rs₀.id = rs.id ∧ OnOffer repo relays t₀ rs₀ := by
  cases repo with
  | embedded =>
    -- One critical section, so one choice among what is stored then.
    intro s i hs
    exact ⟨hs, fun rs hrs => hs.onOffer i.2 (Embedded.chosen_of_pickLeastLoaded hrs)⟩
  | postgres =>
    show (pickLeastLoaded region).Keeps _ _ _
    unfold pickLeastLoaded
    split
    · -- A preferred region is searched first, and then all of them.
      refine keeps_select ?_ ?_
      · rintro rs hrs _ ⟨⟩
        exact hrs
      · intro e
        cases e with
        | notFound => exact keeps_pickAnyRegion
        | _ => rintro _ ⟨⟩
    · exact keeps_pickAnyRegion

theorem keeps_incrementLoad (id : UUID) :
    (repo.methods (.incrementLoad id 1)).Keeps (steadyHandler relays t₀) (Grown relays)
      fun _ => True := by
  cases repo with
  | embedded =>
    intro s i hs
    refine ⟨?_, trivial⟩
    show Grown relays (Embedded.incrementLoad s id 1).2
    rw [Embedded.incrementLoad_snd]
    exact hs.addLoad id
  | postgres =>
    intro s i hs
    refine ⟨?_, trivial⟩
    show Grown relays (allocHandler (.update id 1) i.1 s).2
    simp only [allocHandler]
    split
    · exact hs
    · exact hs.addLoad id

theorem keeps_issue (deviceID relayID networkID : UUID) :
    (repo.methods (.issue deviceID relayID networkID)).Keeps (steadyHandler relays t₀)
      (Grown relays) fun _ => True := by
  cases repo <;> exact fun s i hs => ⟨hs, trivial⟩

theorem keeps_requestRelay (q : RelayRequest) :
    (repo.requestRelay q).Keeps (steadyHandler relays t₀) (Grown relays)
      fun r => ∀ a, r = .ok a → ∃ rs₀, rs₀.id = a.relay.id ∧ OnOffer repo relays t₀ rs₀ := by
  rw [RelayRepo.requestRelay, expand_requestRelay]
  apply (keeps_pickLeastLoaded q.preferredRegion).bind
  intro r hpick
  rcases r with e | _ | relay
  · rintro a ⟨⟩
  · rintro a ⟨⟩
  · apply (keeps_incrementLoad relay.id).bind
    intro r _
    rcases r with e | _
    · rintro a ⟨⟩
    · apply (keeps_issue q.deviceID relay.id q.networkID).bind
      intro r _
      rcases r with e | token
      · rintro a ⟨⟩
      · rintro a ⟨⟩
        exact hpick relay rfl

theorem returned_onOffer {p : Calls} (hreach : Reaches repo relays t₀ p) {q : RelayRequest}
    {a : RelayAllocation} (h : p.Returned q (.ok a)) :
    ∃ rs₀, rs₀.id = a.relay.id ∧ OnOffer repo relays t₀ rs₀ :=
  Pool.returned_of_keeps keeps_requestRelay (Grown.refl relays) hreach h a rfl

theorem agrees_of_atMostOneOffer (h : AtMostOneOffer repo relays t₀) :
    RendezvousAgrees repo relays t₀ := by
  intro p hreach q₁ q₂ a₁ a₂ h₁ h₂ _ _ _
  obtain ⟨rs₁, hid₁, hoffer₁⟩ := returned_onOffer hreach h₁
  obtain ⟨rs₂, hid₂, hoffer₂⟩ := returned_onOffer hreach h₂
  calc a₁.relay.id = rs₁.id := hid₁.symm
    _ = rs₂.id := h rs₁ rs₂ hoffer₁ hoffer₂
    _ = a₂.relay.id := hid₂

end

/-! ## One call at a time -/

section

variable (repo : RelayRepo) (relays : Relays) (t₀ : Time)

/-- No time passes, the database answers, and signing works. -/
def quiet : SteadyInput relays t₀ := ⟨⟨t₀, .asStored, none, .ok ""⟩, fun _ _ _ => rfl⟩

theorem exec_pickAnyRegion (hsome : ∃ rs, OnOffer .postgres s t₀ rs) :
    ∃ rs, OnOffer .postgres s t₀ rs ∧
      Postgres.pickAnyRegion.exec (steadyHandler relays t₀) (fun _ => quiet relays t₀) s =
        (.ok (some rs), s) := by
  rcases selectLeastLoaded_spec s .asStored none with ⟨rs, hok, hpick⟩ | ⟨-, hno⟩
  · refine ⟨rs, ⟨hpick.1, (Bool.and_eq_true_iff.mp hpick.2).1⟩, ?_⟩
    simp [Postgres.pickAnyRegion, Prog.exec, steadyHandler, quiet, allocHandler, hok]
  · obtain ⟨rs, hrs⟩ := hsome
    have hoffer : Postgres.offers rs = true := hrs.2
    exact absurd ⟨hrs.1, by simp [Postgres.inRegion, hoffer]⟩ (hno rs)

theorem exec_pickLeastLoaded (hsome : ∃ rs, OnOffer repo s t₀ rs) (region : String) :
    ∃ rs, OnOffer repo s t₀ rs ∧
      (repo.methods (.pickLeastLoaded region)).exec (steadyHandler relays t₀)
        (fun _ => quiet relays t₀) s = (.ok (some rs), s) := by
  cases repo with
  | embedded =>
    rcases Embedded.pickLeastLoaded_spec s t₀ .asStored region with ⟨rs, hok, hpick⟩ | ⟨-, hno⟩
    · exact ⟨rs, hpick, Prod.ext hok rfl⟩
    · obtain ⟨rs, hrs⟩ := hsome
      exact absurd hrs (hno rs)
  | postgres =>
    show ∃ rs, _ ∧ (pickLeastLoaded region).exec _ _ s = _
    unfold pickLeastLoaded
    split
    · rcases selectLeastLoaded_spec s .asStored (some region) with
        ⟨rs, hok, hpick⟩ | ⟨herr, -⟩
      · refine ⟨rs, ⟨hpick.1, (Bool.and_eq_true_iff.mp hpick.2).1⟩, ?_⟩
        simp [Prog.exec, steadyHandler, quiet, allocHandler, hok]
      · -- Nothing in the preferred region: the search goes on over all of them.
        obtain ⟨rs, hrs, hexec⟩ := exec_pickAnyRegion relays t₀ hsome
        refine ⟨rs, hrs, ?_⟩
        rw [← hexec]
        simp [Prog.exec, steadyHandler, quiet, allocHandler, herr]
    · exact exec_pickAnyRegion relays t₀ hsome

theorem exec_incrementLoad (h : s.get rs.id = some rs) :
    (repo.methods (.incrementLoad rs.id 1)).exec (steadyHandler relays t₀)
      (fun _ => quiet relays t₀) s = (.ok (), s.addLoad rs.id 1) := by
  cases repo with
  | embedded =>
    show Embedded.incrementLoad s rs.id 1 = _
    simp [Embedded.incrementLoad, h]
  | postgres => rfl

theorem exec_requestRelay (hsome : ∃ rs, OnOffer repo s t₀ rs) (q : RelayRequest) :
    ∃ rs, OnOffer repo s t₀ rs ∧
      (repo.requestRelay q).exec (steadyHandler relays t₀) (fun _ => quiet relays t₀) s =
        (.ok ⟨rs, ""⟩, s.addLoad rs.id 1) := by
  obtain ⟨rs, hrs, hpick⟩ := exec_pickLeastLoaded repo relays t₀ hsome q.preferredRegion
  refine ⟨rs, hrs, ?_⟩
  rw [RelayRepo.requestRelay, expand_requestRelay, Prog.exec_bind_const, hpick]
  rw [Prog.exec_bind_const, exec_incrementLoad repo relays t₀ hrs.1]
  cases repo <;> rfl

end

/-! ## Two relays on offer -/

section

variable {repo : RelayRepo} {relays : Relays} {t₀ : Time}

/-- Two devices of one network. -/
def firstRequest : RelayRequest := ⟨.ofBytes [1], .nil, ""⟩
def secondRequest : RelayRequest := ⟨.ofBytes [2], .nil, ""⟩

theorem Reaches.alone {p : Calls} (hreach : Reaches repo relays t₀ p)
    (hsome : ∃ rs, OnOffer repo p.shared t₀ rs) (q : RelayRequest) :
    ∃ rs, OnOffer repo p.shared t₀ rs ∧
      Reaches repo relays t₀
        ⟨p.shared.addLoad rs.id 1, p.threads ++ [(q, .ret (.ok ⟨rs, ""⟩))]⟩ := by
  obtain ⟨rs, hrs, hexec⟩ := exec_requestRelay repo relays t₀ hsome q
  refine ⟨rs, hrs, ?_⟩
  have halone := Pool.reachable_alone hreach q (fun _ => quiet relays t₀)
  rw [hexec] at halone
  exact halone

/-- Once the first device holds a relay and another one is on offer, the second
    device's calls cannot all agree with it: each of them that does fills the
    relay by one, and a full relay is not picked again. -/
theorem not_agrees_of_other {first other : RelayServer} (hagree : RendezvousAgrees repo relays t₀)
    (hne : other.id ≠ first.id) :
    ∀ (room : Nat) (p : Calls) (rs : RelayServer), Reaches repo relays t₀ p →
      p.Returned firstRequest (.ok ⟨first, ""⟩) → OnOffer repo p.shared t₀ other →
      p.shared.get first.id = some rs → (rs.capacity - rs.currentLoad).toNat = room → False := by
  intro room
  induction room using Nat.strong_induction_on with
  | _ room ih =>
    intro p rs hreach hret hother hrs hroom
    obtain ⟨picked, hpicked, hreach'⟩ := hreach.alone ⟨other, hother⟩ secondRequest
    have hret' := mem_append_left [(secondRequest, Prog.ret (.ok ⟨picked, ""⟩))] hret
    have hsame : first.id = picked.id :=
      hagree _ hreach' firstRequest secondRequest ⟨first, ""⟩ ⟨picked, ""⟩ hret'
        (mem_append_right _ mem_cons_self) (by decide) rfl rfl
    have heq : picked = rs := by
      have hget := hpicked.1
      rw [← hsame, hrs] at hget
      exact (Option.some.inj hget).symm
    subst heq
    -- The relay was on offer, so it had room, and now it has less.
    have hbelow : picked.currentLoad < picked.capacity := by
      have hoffer := hpicked.2
      cases repo <;>
        simp only [RelayRepo.offers, Embedded.offers, Postgres.offers, Bool.and_eq_true,
          decide_eq_true_eq] at hoffer <;> exact hoffer.2
    refine ih (picked.capacity - (picked.addLoad 1).currentLoad).toNat ?_ _
      (picked.addLoad 1) hreach' hret' ?_ ?_ rfl
    · simp only [RelayServer.addLoad]
      omega
    · refine ⟨?_, hother.2⟩
      rw [Relays.get_addLoad, if_neg (hsame ▸ hne)]
      exact hother.1
    · rw [Relays.get_addLoad, if_pos hsame, hrs]
      rfl

theorem atMostOneOffer_of_agrees (hagree : RendezvousAgrees repo relays t₀) :
    AtMostOneOffer repo relays t₀ := by
  intro x y hx hy
  by_contra hxy
  have hstart : Reaches repo relays t₀ ⟨relays, []⟩ := .refl _
  obtain ⟨first, hfirst, hreach⟩ := hstart.alone ⟨x, hx⟩ firstRequest
  -- One of the two is not the relay that the first device was given.
  obtain ⟨other, hother, hne⟩ : ∃ other, OnOffer repo relays t₀ other ∧ other.id ≠ first.id := by
    by_cases hxf : x.id = first.id
    · exact ⟨y, hy, fun hyf => hxy (hxf.trans hyf.symm)⟩
    · exact ⟨x, hx, hxf⟩
  refine not_agrees_of_other hagree hne _ _ (first.addLoad 1) hreach mem_cons_self ?_ ?_ rfl
  · refine ⟨?_, hother.2⟩
    rw [Relays.get_addLoad, if_neg hne]
    exact hother.1
  · rw [Relays.get_addLoad, if_pos rfl, hfirst.1]
    rfl

end

/-- Peers are sure to meet exactly when at most one relay was on offer to begin with. -/
theorem rendezvous_agrees_iff (repo : RelayRepo) (relays : Relays) (t₀ : Time) :
    RendezvousAgrees repo relays t₀ ↔ AtMostOneOffer repo relays t₀ :=
  ⟨atMostOneOffer_of_agrees, agrees_of_atMostOneOffer⟩

/-! ## Two idle relays -/

def idleRelay (n : UInt8) : RelayServer where
  id := .ofBytes [n]
  region := "eu"
  hostname := "relay"
  publicKey := ""
  controlPort := 3478
  relayPort := 3479
  capacity := 1000
  currentLoad := 0
  status := "active"
  lastHeartbeatAt := some 0
  createdAt := 0

def idlePair : Relays := (Table.empty.put (idleRelay 1)).put (idleRelay 2)

/-- What the two calls return, one after the other. -/
def twoCalls : Except DomainError RelayAllocation × Except DomainError RelayAllocation :=
  let call (q : RelayRequest) (s : Relays) :=
    (RelayRepo.embedded.requestRelay q).exec (steadyHandler idlePair 0)
      (fun _ => quiet idlePair 0) s
  ((call firstRequest idlePair).1, (call secondRequest (call firstRequest idlePair).2).1)

/-- Two idle relays and two calls, one after the other: the first call makes its
    relay the fuller one, so the second call is sent to the other. -/
theorem peers_sent_to_different_relays : ¬ RendezvousAgrees .embedded idlePair 0 := by
  intro hagree
  have hstart : Reaches .embedded idlePair 0 ⟨idlePair, []⟩ := .refl _
  have hfirst := Pool.reachable_alone hstart firstRequest (fun _ => quiet idlePair 0)
  have hsnd := Pool.reachable_alone hfirst secondRequest (fun _ => quiet idlePair 0)
  have hcalls : twoCalls = (.ok ⟨idleRelay 2, ""⟩, .ok ⟨idleRelay 1, ""⟩) := by decide +kernel
  obtain ⟨hres₁, hres₂⟩ := Prod.mk.inj hcalls
  have hsame := hagree _ hsnd firstRequest secondRequest ⟨idleRelay 2, ""⟩ ⟨idleRelay 1, ""⟩
    (mem_append_left _ (mem_singleton.mpr (by rw [← hres₁])))
    (mem_append_right _ (mem_singleton.mpr (by rw [← hres₂]))) (by decide) rfl rfl
  exact absurd hsame (by decide)

end Rendezvous

end NexusVPN.Backend
