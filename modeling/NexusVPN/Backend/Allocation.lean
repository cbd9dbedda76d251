import NexusVPN.Backend.Records

/-! # Virtual addresses, one for each device

    A registration asks for a free address in one call and stores the device that gets it in
    another.  Addresses are unique throughout if one is chosen only while no other
    registration on the network has chosen one and not stored its device yet. -/

namespace NexusVPN.Backend

open List Prog Machine Device Archive Requests

/-! ## The search -/

section

variable {lib : StdLib} {subnet : IPNet} {taken : String → Bool}

theorem searchFree_not_taken {rounds : Nat} {ip : Bytes} {free : String}
    (h : searchFree lib subnet taken rounds ip = .ok free) : taken free = false := by
  induction rounds generalizing ip with
  | zero => cases h
  | succ rounds ih =>
    rw [searchFree] at h
    split at h
    · split at h
      · next hfree =>
        rw [← Except.ok.inj h]
        simpa using (Bool.and_eq_true_iff.mp hfree).1
      · exact ih h
    · cases h

end

/-- No device of the network has the address. -/
def Store.Vacant (s : Store) (n : UUID) (ip : String) : Prop :=
  ∀ id d, s.devices.get id = some d → d.networkID = n → d.virtualIP ≠ ip

theorem vacant_of_nextFree {lib : StdLib} {i : RepoInput} {s : Store} {n : UUID}
    {cidr ip : String}
    (h : (Store.method lib (.devices (.nextFreeVirtualIP n cidr)) i s).1 = .ok ip) :
    s.Vacant n ip := by
  rw [Store.method, Store.deviceMethod, DeviceRepo.nextFreeVirtualIP] at h
  split at h
  · cases h
  · intro id d hd hn hip
    have hfree := searchFree_not_taken h
    rw [any_eq_false] at hfree
    have hkey : d.id = id := Table.key_of_get hd
    have hmem : d ∈ s.devices.values i.order := by
      rw [Table.mem_values, hkey]
      exact hd
    exact hfree d hmem (by simp [hn, hip])

/-! ## The property and the condition -/

/-- No two devices of one network have the same virtual address. -/
def Store.AddressesUnique (s : Store) : Prop :=
  ∀ id id' d d', s.devices.get id = some d → s.devices.get id' = some d' →
    d.networkID = d'.networkID → d.virtualIP = d'.virtualIP → id = id'

def AddressesUnique (p : Requests) : Prop := p.shared.store.AddressesUnique

/-- The network in which the call looks for a free address. -/
def RepoCall.allocates : RepoCall → Option UUID
  | .devices (.nextFreeVirtualIP n _) => some n
  | _ => none

/-- The two calls between which a registration has an address in hand. -/
def RepoCall.withAddress : RepoCall → Bool
  | .newID | .devices (.create _) => true
  | _ => false

/-- The request is a registration on the network that has chosen an address and has yet to
    store its device. -/
def HoldsAddress (n : UUID) (t : RestCall) (q : RestProg) : Prop :=
  (∃ x ∈ t.registers, x.2.1 = n) ∧ ∃ c ∈ nextCall q, c.withAddress = true

instance (n : UUID) (t : RestCall) (q : RestProg) : Decidable (HoldsAddress n t q) :=
  inferInstanceAs (Decidable (_ ∧ _))

def AllocatesAlone (p : Requests) : RestStep → Prop
  | .spawn _ => True
  | .advance k _ => ∀ c ∈ p.next k, ∀ n ∈ c.allocates, ∀ j < p.threads.length, j ≠ k →
      ∀ th ∈ p.threads[j]?, ¬ HoldsAddress n th.1 th.2

instance (p : Requests) : (a : RestStep) → Decidable (AllocatesAlone p a)
  | .spawn _ => .isTrue trivial
  | .advance k _ => inferInstanceAs (Decidable (∀ c ∈ p.next k, _))

/-! ## Steps -/

/-- The address that a registration has in hand. -/
def Chosen (n : UUID) (ip : String) (log : Journal repoIface) : RepoCall → Prop
  | .newID => ∃ cidr rest, log = ⟨.devices (.nextFreeVirtualIP n cidr), .ok ip⟩ :: rest
  | .devices (.create d) => d.networkID = n ∧ d.virtualIP = ip
  | _ => False

namespace JournaledRequests

variable {lib : StdLib} {p p' : JournaledRequests} {n : Nat} {i : RepoInput} {t : RestCall}
  {log : Journal repoIface} {c : RepoCall} {k : repoIface.Ans c → RestProg} {a : RestStep}

section

variable (h : Move lib p n i t log c k)
include h

theorem Move.vacant (hp : p.Sound) {id : UUID} {ip : String}
    (hvacant : p.shared.store.Vacant id ip)
    (hc : ∀ d, c = .devices (.create d) → d.networkID ≠ id) :
    (handler lib c i p.shared).2.store.Vacant id ip := by
  intro x d' hd' hn
  rcases h.device_before hp hd' with ⟨d, hold, hplace⟩ | ⟨d, rfl, -, hplace⟩
  · obtain ⟨hsame, -, hip⟩ := placement_inj hplace
    rw [hip]
    exact hvacant x d hold (hsame.symm.trans hn)
  · obtain ⟨hsame, -, -⟩ := placement_inj hplace
    exact absurd (hsame.symm.trans hn) (hc d rfl)

theorem Move.holds_of_create {d : Device}
    (hc : c = .devices (.create d)) : HoldsAddress d.networkID t (.call c k) := by
  subst hc
  obtain ⟨hreg, -⟩ := h.fits.2
  exact ⟨⟨d.owned, hreg, rfl⟩, _, rfl, rfl⟩

theorem Move.unique (hp : p.Sound)
    (hunique : p.shared.store.AddressesUnique)
    (hvacant : ∀ d, c = .devices (.create d) → p.shared.store.Vacant d.networkID d.virtualIP) :
    (handler lib c i p.shared).2.store.AddressesUnique := by
  intro x x' d d' hd hd' hnet hip
  rcases h.device_before hp hd with ⟨e, he, hplace⟩ | ⟨e, rfl, hid, hplace⟩
  · obtain ⟨hn, -, ha⟩ := placement_inj hplace
    rcases h.device_before hp hd' with ⟨e', he', hplace'⟩ | ⟨e', hc, -, hplace'⟩
    · obtain ⟨hn', -, ha'⟩ := placement_inj hplace'
      exact hunique x x' e e' he he' (by rw [← hn, ← hn', hnet]) (by rw [← ha, ← ha', hip])
    · obtain ⟨hn', -, ha'⟩ := placement_inj hplace'
      exact absurd (by rw [← ha, ← ha', hip]) (hvacant e' hc x e he (by rw [← hn, ← hn', hnet]))
  · obtain ⟨hn, -, ha⟩ := placement_inj hplace
    rcases h.device_before hp hd' with ⟨e', he', hplace'⟩ | ⟨e', hc, hid', -⟩
    · obtain ⟨hn', -, ha'⟩ := placement_inj hplace'
      exact absurd (by rw [← ha, ← ha', hip]) (hvacant e rfl x' e' he' (by rw [← hn, ← hn', hnet]))
    · cases hc
      exact hid.symm.trans hid'

theorem Move.chosen {c' : RepoCall} {id : UUID} {ip : String}
    (hfits : Backed t (⟨c, (handler lib c i p.shared).1⟩ :: log) c')
    (hpick : Chosen id ip (⟨c, (handler lib c i p.shared).1⟩ :: log) c') :
    (∃ cidr, c = .devices (.nextFreeVirtualIP id cidr) ∧
      (Store.method lib (.devices (.nextFreeVirtualIP id cidr)) i p.shared.store).1 = .ok ip) ∨
    c = .newID ∧ Chosen id ip log c := by
  unfold Chosen at hpick
  split at hpick
  · obtain ⟨cidr, rest, hlog⟩ := hpick
    obtain ⟨rfl, hans, -⟩ := Journal.latest_inj (I := repoIface) hlog
    exact .inl ⟨cidr, rfl, eq_of_heq hans⟩
  · next d =>
    obtain ⟨-, cidr, fresh, row, rest, hlog, -⟩ := hfits
    obtain ⟨rfl, -, rfl⟩ := Journal.latest_inj (I := repoIface) hlog
    obtain ⟨rfl, rfl⟩ := hpick
    exact .inr ⟨rfl, cidr, rest, rfl⟩
  · cases hpick

end

/-- Addresses are unique, each network has at most one registration with an address in hand,
    and what is in hand is nobody's yet. -/
structure Allotted (p : JournaledRequests) : Prop extends p.Sound where
  unique : p.shared.store.AddressesUnique
  exclusive : ∀ id, p.AtMostOne fun th => HoldsAddress id th.1 th.2.2
  vacant : ∀ th ∈ p.threads, ∀ c ∈ nextCall th.2.2, ∀ x ∈ th.1.registers, ∀ ip,
    Chosen x.2.1 ip th.2.1 c → p.shared.store.Vacant x.2.1 ip

theorem allotted_idle : Allotted ⟨⟨.empty, [], []⟩, []⟩ where
  toSound := sound_idle
  unique _ _ _ _ h := nomatch h
  exclusive _ _ _ _ _ h := nomatch h
  vacant _ hth := nomatch hth

theorem not_holds_body (id : UUID) (t : RestCall) : ¬ HoldsAddress id t (t.body lib) := by
  intro hholds
  obtain ⟨⟨x, hx, -⟩, c, hc, haddr⟩ := hholds
  have hback := (fitting_next (body_obeys lib t) hc).2
  unfold RepoCall.withAddress at haddr
  split at haddr
  · obtain ⟨cidr, ip, rest, hlog⟩ := hback x.1 x.2.1 x.2.2 hx
    cases hlog
  · obtain ⟨-, cidr, id, row, rest, hlog, -⟩ := hback
    cases hlog
  · cases haddr

theorem Move.holds (h : Move lib p n i t log c k) {id : UUID}
    (hholds : HoldsAddress id t (k (handler lib c i p.shared).1)) :
    HoldsAddress id t (.call c k) ∨ c.allocates = some id := by
  obtain ⟨⟨x, hx, rfl⟩, c', hc', haddr⟩ := hholds
  have hback := (fitting_next h.served hc').2
  unfold RepoCall.withAddress at haddr
  split at haddr
  · obtain ⟨cidr, ip, rest, hlog⟩ := hback x.1 x.2.1 x.2.2 hx
    obtain ⟨rfl, -, -⟩ := Journal.latest_inj (I := repoIface) hlog
    exact .inr rfl
  · obtain ⟨-, cidr, id, row, rest, hlog, -⟩ := hback
    obtain ⟨rfl, -, -⟩ := Journal.latest_inj (I := repoIface) hlog
    exact .inl ⟨⟨x, hx, rfl⟩, _, rfl, rfl⟩
  · cases haddr

theorem holds_of_chosen {x : UUID × UUID × String} {ip : String} {q : RestProg}
    (hx : t.registers = some x) (hc : c ∈ nextCall q) (hpick : Chosen x.2.1 ip log c) :
    HoldsAddress x.2.1 t q := by
  refine ⟨⟨x, hx, rfl⟩, c, hc, ?_⟩
  unfold Chosen at hpick
  split at hpick
  · rfl
  · rfl
  · cases hpick

theorem Allotted.vacant_of_create (h : p.Allotted) (hmove : Move lib p n i t log c k) {d : Device}
    (hc : c = .devices (.create d)) : p.shared.store.Vacant d.networkID d.virtualIP := by
  subst hc
  obtain ⟨hreg, -⟩ := hmove.fits.2
  exact h.vacant _ (mem_of_getElem? hmove.moving) _ rfl d.owned hreg _ ⟨rfl, rfl⟩

theorem Allotted.step (h : p.Allotted) (hserv : p.AsServed)
    (hunused : Requests.DrawsUnused p.erase a) (hcond : AllocatesAlone p.erase a)
    (hstep : step lib p a = some p') : p'.Allotted := by
  have hsound := h.toSound
  refine ⟨hsound.step hserv hunused hstep, ?_, ?_, ?_⟩
  · exact hsound.shared_step (G := (·.store.AddressesUnique)) hserv hunused hstep h.unique
      fun n i t log c k _ hmove => hmove.unique hsound h.unique fun d => h.vacant_of_create hmove
  · intro id
    refine (h.exclusive id).step hstep (fun t _ hH => absurd hH (not_holds_body id t)) ?_
    intro n i t log c k ha hn hholds
    subst ha
    have hmove : Move lib p n i t log c k := hsound.move hserv hunused hn
    refine (hmove.holds hholds).imp_right ?_
    -- The address was chosen while nobody else had one in hand.
    intro hallocates m th hmn hm
    have herased : p.erase.threads[m]? = some (th.1, th.2.2) := by simp [Tracked.erase, hm]
    have hlen := (List.getElem?_eq_some_iff.mp herased).1
    exact hcond c hmove.next id hallocates m hlen hmn _ herased
  · refine hsound.threads_step (A := fun th s => ∀ c ∈ nextCall th.2.2,
      ∀ x ∈ th.1.registers, ∀ ip, Chosen x.2.1 ip th.2.1 c → s.store.Vacant x.2.1 ip)
      hserv hunused hstep h.vacant ?_ ?_ ?_
    · intro t _ c hc x hx ip hpick
      exact absurd (holds_of_chosen hx hc hpick) (not_holds_body x.2.1 t)
    · intro n i t log c k _ hmove c' hc' x hx ip hpick
      rcases hmove.chosen (fitting_next hmove.served hc').2 hpick with
        ⟨cidr, rfl, hans⟩ | ⟨rfl, hpre⟩
      · exact hmove.vacant hsound (vacant_of_nextFree hans) (by rintro d ⟨⟩)
      · have hvacant := h.vacant _ (mem_of_getElem? hmove.moving) _ rfl x hx ip hpre
        exact hmove.vacant hsound hvacant (by rintro d ⟨⟩)
    · intro n i t log c k _ hmove m th hmn hm hth c' hc' x hx ip hpick
      refine hmove.vacant hsound (hth c' hc' x hx ip hpick) ?_
      -- Whoever stores a device there would have an address in hand as well.
      intro d hd hnet
      have hmover := hmove.holds_of_create hd
      rw [hnet] at hmover
      exact hmn (h.exclusive x.2.1 m n th _ hm hmove.moving (holds_of_chosen hx hc' hpick) hmover)

end JournaledRequests

/-- No two devices of a network have the same address, if nobody looks for a free one there
    while another registration has yet to store the address that it found. -/
theorem addresses_unique (lib : StdLib) (as : List RestStep)
    (h : Along (step lib) AllocatesAlone idle as) :
    Throughout (step lib) AddressesUnique idle as :=
  throughout JournaledRequests.allotted_idle (fun _ _ _ hq => hq.step) h
    fun _ _ hq => hq.unique

section

open Requests (comesIn goesOn)

/-- A library that knows one address range, and prints IPv4 addresses as Go does. -/
def homeLib : StdLib where
  parseCIDR _ := some ⟨[10, 77, 0, 0], [255, 255, 255, 0], length_mask24⟩
  ipString ip := String.intercalate "." (ip.map fun b => toString b.toNat)
  equalFold := (· == ·)
  toLower := id

/-- User 1 registers a device on the home network, over REST or over gRPC. -/
def deviceRegistered (key : String) : RestCall :=
  .registerDevice (.ofBytes [1]) (.ofBytes [7]) key "linux" "" key

def deviceCoordinated (key : String) : RestCall :=
  .coordinate (.ofBytes [1]) (.ofBytes [7]) ⟨key, key, "linux", "", false⟩

/-- What is drawn for the device with that number. -/
def deviceDraw (number : UInt8) : RepoInput :=
  { (default : RepoInput) with fresh := .ofBytes [number] }

/-- One device is registered after the other. -/
def inTurn : List RestStep :=
  homeCreated ++ comesIn 1 (deviceRegistered "desk") 6 (deviceDraw 8) ++
    comesIn 2 (deviceCoordinated "laptop") 9 (deviceDraw 9)

theorem addresses_unique_home :
    Throughout (step homeLib) AddressesUnique idle inTurn :=
  addresses_unique homeLib inTurn (by decide +kernel)

/-- The second registration looks for an address before the first has stored its device. -/
def sideBySide : List RestStep :=
  homeCreated ++ comesIn 1 (deviceRegistered "desk") 4 (deviceDraw 8) ++
    comesIn 2 (deviceCoordinated "laptop") 4 (deviceDraw 9) ++ goesOn 1 2 (deviceDraw 8) ++
    goesOn 2 5 (deviceDraw 9)

/-- Both get the first free address of the network. -/
theorem address_given_twice :
    ∃ p, run (step homeLib) idle sideBySide = some p ∧ ¬ AddressesUnique p := by
  refine ⟨_, rfl, ?_⟩
  intro h
  have hsame := h (.ofBytes [8]) (.ofBytes [9]) _ _ rfl rfl rfl (by decide +kernel)
  revert hsame
  decide +kernel

end

end NexusVPN.Backend
