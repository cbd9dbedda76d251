import NexusVPN.Backend.Allocation
import NexusVPN.Backend.Integrity

/-! # Virtual addresses, inside their network

    An address is drawn from the range that the network has at that time.  The range of a
    network can be changed later. -/

namespace NexusVPN.Backend

open List Prog Machine Archive Pool Requests
open UInt8 (toNat toNat_add toNat_one)

/-! ## Counting upwards -/

theorem length_incrementLow (xs : Bytes) : (incrementLow xs).length = xs.length := by
  induction xs with
  | nil => rfl
  | cons x xs ih =>
    rw [incrementLow]
    split
    · rfl
    · rw [length_cons, length_cons, ih]

theorem length_incrementIP (ip : Bytes) : (incrementIP ip).length = ip.length := by
  rw [incrementIP, length_reverse, length_incrementLow, length_reverse]

theorem incrementLow_cons (x : UInt8) (xs : Bytes) :
    ∃ ys, incrementLow (x :: xs) = (x + 1) :: ys := by
  rw [incrementLow]
  split
  · exact ⟨xs, rfl⟩
  · next hwrap =>
    rw [not_not] at hwrap
    exact ⟨incrementLow xs, by rw [hwrap]⟩

variable {ip : Bytes} {cidr : String}

theorem incrementIP_twice_ne (hip : ip ≠ []) : incrementIP (incrementIP ip) ≠ ip := by
  intro heq
  obtain ⟨x, xs, hlow⟩ := exists_cons_of_ne_nil (reverse_ne_nil_iff.mpr hip)
  obtain ⟨ys, hys⟩ := incrementLow_cons x xs
  obtain ⟨zs, hzs⟩ := incrementLow_cons (x + 1) ys
  have htwice : (incrementIP (incrementIP ip)).reverse = (x + 1 + 1) :: zs := by
    rw [incrementIP, incrementIP, reverse_reverse, reverse_reverse, hlow, hys, hzs]
  rw [heq, hlow] at htwice
  have hbyte := congrArg toNat (cons.inj htwice).1
  simp only [toNat_add, toNat_one] at hbyte
  have hlt := x.toNat_lt
  omega

/-- If counting upwards leads to an address that is all mask, and the address before has the
    same masked bits, then every byte has wrapped around, and no bit counts. -/
theorem mask_zero_of_low {xs ms : Bytes} (hlen : ms.length = xs.length)
    (hfirst : zipWith (· &&& ·) (incrementLow xs) ms = incrementLow xs)
    (hsame : zipWith (· &&& ·) xs ms = zipWith (· &&& ·) (incrementLow xs) ms) :
    ∀ m ∈ ms, m = 0 := by
  induction xs generalizing ms with
  | nil =>
    rw [length_eq_zero_iff.mp hlen]
    exact fun m hm => nomatch hm
  | cons x xs ih =>
    cases ms with
    | nil => cases hlen
    | cons m ms =>
      rw [incrementLow] at hfirst hsame
      split at hfirst
      · next hmoves =>
        -- The byte has become larger, so it has a bit that it did not have before.
        exfalso
        rw [if_pos hmoves] at hsame
        simp only [zipWith_cons_cons, cons.injEq] at hfirst hsame
        have hbyte := congrArg toNat (hsame.1.trans hfirst.1)
        have hle : x.toNat &&& m.toNat ≤ x.toNat := Nat.and_le_left
        have hlt := x.toNat_lt
        have hne : (x + 1).toNat ≠ 0 := fun h => hmoves (UInt8.toNat_inj.mp h)
        simp only [UInt8.toNat_and, toNat_add, toNat_one] at hbyte hne
        omega
      · next hwrap =>
        rw [if_neg hwrap] at hsame
        simp only [zipWith_cons_cons, cons.injEq] at hfirst hsame
        have hx : x = -1 := by
          rw [not_not] at hwrap
          have hzero := congrArg toNat hwrap
          simp only [toNat_add, toNat_one, UInt8.toNat_zero] at hzero
          have hlt := x.toNat_lt
          apply UInt8.toNat_inj.mp
          show x.toNat = 255
          omega
        intro y hy
        rcases mem_cons.mp hy with rfl | hrest
        · have hbits := hsame.1
          rw [hx, UInt8.neg_one_and, UInt8.zero_and] at hbits
          exact hbits
        · exact ih (by simpa using hlen) hfirst.2 hsame.2 y hrest

theorem mask_zero_of_increment {mask : Bytes} (hlen : mask.length = ip.length)
    (hfirst : zipWith (· &&& ·) (incrementIP ip) mask = incrementIP ip)
    (hsame : zipWith (· &&& ·) ip mask = zipWith (· &&& ·) (incrementIP ip) mask) :
    ∀ m ∈ mask, m = 0 := by
  have hlow : ∀ m ∈ mask.reverse, m = 0 := by
    refine @mask_zero_of_low ip.reverse mask.reverse ?_ ?_ ?_
    · rw [length_reverse, length_reverse, hlen]
    · have hrev := congrArg reverse hfirst
      rw [reverse_zipWith (by rw [length_incrementIP, hlen])] at hrev
      simpa [incrementIP] using hrev
    · have hrev := congrArg reverse hsame
      rw [reverse_zipWith hlen.symm, reverse_zipWith (by rw [length_incrementIP, hlen])] at hrev
      simpa [incrementIP] using hrev
  exact fun m hm => hlow m (mem_reverse.mpr hm)

/-! ## Ranges -/

/-- What `net.ParseCIDR` returns: a range of IPv4 or IPv6 addresses, with its first one. -/
structure IPNet.Proper (n : IPNet) : Prop where
  length : n.ip.length = 4 ∨ n.ip.length = 16
  first : zipWith (· &&& ·) n.ip n.mask = n.ip

def StdLib.ParsesProperly (lib : StdLib) : Prop := ∀ cidr n, lib.parseCIDR cidr = some n → n.Proper

/-- Not every address is in the range.  It is not a `/0`. -/
def IPNet.Bounded (n : IPNet) : Prop := ∃ m ∈ n.mask, m ≠ 0

instance (n : IPNet) : Decidable n.Bounded := inferInstanceAs (Decidable (∃ m ∈ n.mask, m ≠ 0))

theorem to4_of_length (h : ip.length = 16) :
    to4 ip = if ip.take 12 = v4InV6 then some (ip.drop 12) else none := by
  simp [to4, h]

theorem IPNet.Proper.contains_iff {n : IPNet} (hn : n.Proper) (hlen : ip.length = n.ip.length) :
    n.contains ip = true ↔
      zipWith (· &&& ·) n.ip n.mask = zipWith (· &&& ·) ip n.mask ∧
        (to4 n.ip).isSome = (to4 ip).isSome := by
  have hmask := n.length_eq
  unfold IPNet.contains IPNet.numberAndMask
  rcases hn.length with h4 | h16
  · have hip : to4 n.ip = some n.ip := if_pos h4
    have hto : to4 ip = some ip := if_pos (hlen.trans h4)
    simp [hip, hto, h4, hmask, hlen]
  · have hlen16 : ip.length = 16 := hlen.trans h16
    rw [to4_of_length h16, to4_of_length hlen16]
    by_cases hmapped : n.ip.take 12 = v4InV6
    · by_cases hmapped' : ip.take 12 = v4InV6
      · -- Both are IPv4 addresses in IPv6 notation, so the first twelve bytes agree anyway.
        have hsplit : ∀ x : Bytes, x.length = 16 → zipWith (· &&& ·) x n.mask =
            zipWith (· &&& ·) (x.take 12) (n.mask.take 12) ++
              zipWith (· &&& ·) (x.drop 12) (n.mask.drop 12) := by
          intro x hx
          rw [← zipWith_append (by simp [hx, h16, hmask]), take_append_drop, take_append_drop]
        rw [hsplit ip hlen16, hsplit n.ip h16, hmapped, hmapped', append_cancel_left_eq]
        simp [h16, hlen16, hmask]
      · simp [hmapped, hmapped', h16, hlen16, hmask]
    · by_cases hmapped' : ip.take 12 = v4InV6
      · simp [hmapped, hmapped', h16, hlen16, hmask]
      · simp [hmapped, hmapped', h16, hlen16, hmask]

theorem IPNet.Proper.increment_ne {n : IPNet} (hn : n.Proper) (hbd : n.Bounded)
    (hlen : ip.length = n.ip.length) (hc : n.contains ip = true) : incrementIP ip ≠ n.ip := by
  intro heq
  obtain ⟨m, hm, hne⟩ := hbd
  have hsame := ((hn.contains_iff hlen).mp hc).1.symm
  have hfirst := hn.first
  rw [← heq] at hsame hfirst
  exact hne (mask_zero_of_increment (n.length_eq.trans hlen.symm) hfirst hsame m hm)

/-- The all-ones address of the range. -/
def IPNet.last (n : IPNet) : Bytes := zipWith (fun b m => b ||| ~~~m) n.ip n.mask

theorem isBroadcast_last (n : IPNet) : isBroadcast n.last n = true := by
  have hall : ∀ ip mask : Bytes, (zipWith (· ||| ·)
      (zipWith (fun b m => b ||| ~~~m) ip mask) mask).all (· == 0xff) = true := by
    intro ip
    induction ip with
    | nil => exact fun _ => rfl
    | cons b bs ih =>
      intro mask
      cases mask with
      | nil => rfl
      | cons m ms =>
        have hones : b ||| ~~~m ||| m = 0xff := by
          rw [UInt8.or_assoc, UInt8.or_comm (~~~m) m, UInt8.or_not_self, UInt8.or_neg_one]
          rfl
        simp only [zipWith_cons_cons, all_cons, ih, hones]
        rfl
  exact hall n.ip n.mask

/-- The string is a host address of the range: in it, not the first and not the all-ones
    one. -/
def Inside (lib : StdLib) (cidr ip : String) : Prop :=
  ∃ n, lib.parseCIDR cidr = some n ∧ ∃ addr, lib.ipString addr = ip ∧
    addr.length = n.ip.length ∧ n.contains addr = true ∧ addr ≠ n.ip ∧ addr ≠ n.last

theorem searchFree_inside {lib : StdLib} {n : IPNet} {taken : String → Bool} (hn : n.Proper)
    (hbd : n.Bounded) {rounds : Nat} {free : String} (hlen : ip.length = n.ip.length)
    (hne : ip ≠ n.ip) (h : searchFree lib n taken rounds ip = .ok free) :
    ∃ addr, lib.ipString addr = free ∧ addr.length = n.ip.length ∧ n.contains addr = true ∧
      addr ≠ n.ip ∧ addr ≠ n.last := by
  induction rounds generalizing ip with
  | zero => cases h
  | succ rounds ih =>
    rw [searchFree] at h
    split at h
    · next hc =>
      split at h
      · next hfree =>
        refine ⟨ip, Except.ok.inj h, hlen, hc, hne, ?_⟩
        intro hlast
        have hbc := (Bool.and_eq_true_iff.mp hfree).2
        rw [hlast, isBroadcast_last] at hbc
        cases hbc
      · exact ih ((length_incrementIP ip).trans hlen) (hn.increment_ne hbd hlen hc) h
    · cases h

theorem inside_of_nextFree {lib : StdLib} (hlib : lib.ParsesProperly) {i : RepoInput} {s : Store}
    {n : UUID} {ip : String} (hbd : ∀ subnet ∈ lib.parseCIDR cidr, subnet.Bounded)
    (h : (Store.method lib (.devices (.nextFreeVirtualIP n cidr)) i s).1 = .ok ip) :
    Inside lib cidr ip := by
  rw [Store.method, Store.deviceMethod, DeviceRepo.nextFreeVirtualIP] at h
  split at h
  · cases h
  · next subnet hparse =>
    have hprop := hlib cidr subnet hparse
    have hne : subnet.ip ≠ [] := by
      intro hnil
      have hlen := hprop.length
      rw [hnil] at hlen
      simp at hlen
    refine ⟨subnet, hparse, searchFree_inside hprop (hbd subnet hparse) ?_
      (incrementIP_twice_ne hne) h⟩
    rw [length_incrementIP, length_incrementIP]

/-! ## The property and the conditions -/

/-- The network exists, and that is its range. -/
def Store.HasRange (s : Store) (n : UUID) (cidr : String) : Prop :=
  ∃ net, s.networks.get n = some net ∧ net.cidr = cidr

/-- Every device has a host address of the range that its network has now. -/
def Store.AddressesInside (lib : StdLib) (s : Store) : Prop :=
  ∀ id d, s.devices.get id = some d →
    ∃ cidr, s.HasRange d.networkID cidr ∧ Inside lib cidr d.virtualIP

def AddressesInside (lib : StdLib) (p : Requests) : Prop := p.shared.store.AddressesInside lib

/-- A request comes in when the one before is done. -/
def TakesTurns (p : Requests) : RestStep → Prop
  | .spawn _ => p.AtRest
  | .advance _ _ => True

instance (p : Requests) : (a : RestStep) → Decidable (TakesTurns p a)
  | .spawn _ => inferInstanceAs (Decidable p.AtRest)
  | .advance _ _ => .isTrue trivial

/-- A network keeps its range while there are devices on it, and no address is drawn from a
    range that has all of them. -/
def Store.KeepsRange (lib : StdLib) (s : Store) : RepoCall → Prop
  | .networks (.update net) => (∀ old ∈ s.networks.get net.id, old.cidr = net.cidr) ∨
      ∀ d ∈ s.devices.values .asStored, d.networkID ≠ net.id
  | .devices (.nextFreeVirtualIP _ cidr) => ∀ subnet ∈ lib.parseCIDR cidr, subnet.Bounded
  | _ => True

instance (lib : StdLib) (s : Store) (c : RepoCall) : Decidable (s.KeepsRange lib c) := by
  unfold Store.KeepsRange
  split <;> infer_instance

def RangesKept (lib : StdLib) (p : Requests) : RestStep → Prop
  | .spawn _ => True
  | .advance k _ => ∀ c ∈ p.next k, p.shared.store.KeepsRange lib c

instance (lib : StdLib) (p : Requests) : (a : RestStep) → Decidable (RangesKept lib p a)
  | .spawn _ => .isTrue trivial
  | .advance k _ => inferInstanceAs (Decidable (∀ c ∈ p.next k, _))

/-! ## Steps -/

namespace JournaledRequests

variable {lib : StdLib} {p p' : JournaledRequests} {n : Nat} {i : RepoInput} {t : RestCall}
  {log : Journal repoIface} {c : RepoCall} {k : repoIface.Ans c → RestProg} {a : RestStep}

theorem Move.hasRange (h : Move lib p n i t log c k) (hp : p.Sound) {id : UUID}
    (hrange : p.shared.store.HasRange id cidr) :
    (handler lib c i p.shared).2.store.HasRange id cidr ∨
      c = .networks (.delete id) ∨
      ∃ net, c = .networks (.update net) ∧ net.id = id ∧ net.cidr ≠ cidr := by
  obtain ⟨net, hnet, rfl⟩ := hrange
  cases hafter : (handler lib c i p.shared).2.store.networks.get id with
  | none => exact .inr (.inl (networks_gone (Option.isSome_of_mem hnet) hafter))
  | some net' =>
    rcases networks_method hafter with ⟨old, hold, -, hcidr⟩ | ⟨new, hc, hid, -, -, hcidr⟩ |
      ⟨new, -, -, hfound⟩
    · cases hnet.symm.trans hold
      exact .inl ⟨net', hafter, hcidr⟩
    · by_cases hsame : new.cidr = net.cidr
      · exact .inl ⟨net', hafter, hcidr.trans hsame⟩
      · exact .inr (.inr ⟨new, hc, hid, hsame⟩)
    · -- No network is created under an id that is in use.
      have hpre := hp.shared.network_founded hnet
      exact absurd hpre (not_founded_of_foundedBy hp.shared h.unused hfound)

theorem Move.hasRange_of_registers (h : Move lib p n i t log c k) (hp : p.Sound)
    {x : UUID × UUID × String} (hx : t.registers = some x) {id : UUID}
    (hrange : p.shared.store.HasRange id cidr) :
    (handler lib c i p.shared).2.store.HasRange id cidr := by
  rcases h.hasRange hp hrange with hkept | rfl | ⟨net, rfl, -, -⟩
  · exact hkept
  · obtain ⟨u, row, rfl, -⟩ := h.fits.2
    cases hx
  · obtain ⟨hnone, -⟩ := h.fits.2
    rw [hx] at hnone
    cases hnone

/-- What a registration that goes on has read about its network is still so. -/
def UpToDate (lib : StdLib) (th : RestCall × Journal repoIface × RestProg) (s : Archive) : Prop :=
  ∀ c ∈ nextCall th.2.2, ∀ x ∈ th.1.registers,
    (∀ net, Told th.2.1 (.networks (.getByID x.2.1)) net → s.store.HasRange x.2.1 net.cidr) ∧
    ∀ ip, Chosen x.2.1 ip th.2.1 c → ∃ cidr, s.store.HasRange x.2.1 cidr ∧ Inside lib cidr ip

/-- One request at a time; every device inside the range of its network. -/
structure Ranged (lib : StdLib) (p : JournaledRequests) : Prop extends p.Anchored where
  turns : p.AtMostOne fun th => nextCall th.2.2 ≠ none
  inside : p.shared.store.AddressesInside lib
  upToDate : ∀ th ∈ p.threads, UpToDate lib th p.shared

theorem ranged_idle : Ranged lib ⟨⟨.empty, [], []⟩, []⟩ where
  toAnchored := anchored_idle
  turns _ _ _ _ h := nomatch h
  inside _ _ h := nomatch h
  upToDate _ hth := nomatch hth

theorem Ranged.others_done (h : p.Ranged lib) (hmove : Move lib p n i t log c k) {m : Nat}
    {th : RestCall × Journal repoIface × RestProg} (hmn : m ≠ n)
    (hm : p.threads[m]? = some th) : nextCall th.2.2 = none := by
  by_contra hgoes
  exact hmn (h.turns m n th _ hm hmove.moving hgoes (by simp [nextCall]))

theorem Ranged.inside_after (h : p.Ranged lib) (hmove : Move lib p n i t log c k)
    (hkeeps : p.shared.store.KeepsRange lib c) :
    (handler lib c i p.shared).2.store.AddressesInside lib := by
  have hsound := h.toSound
  intro id d' hd'
  rcases hmove.device_before hsound hd' with ⟨d, hold, hplace⟩ | ⟨d, rfl, -, hplace⟩
  · obtain ⟨hn, -, hip⟩ := Device.placement_inj hplace
    obtain ⟨cidr, hrange, hinside⟩ := h.inside id d hold
    rw [hn, hip]
    refine ⟨cidr, ?_, hinside⟩
    rcases hmove.hasRange hsound hrange with hkept | rfl | ⟨net, rfl, hid, hcidr⟩
    · exact hkept
    · -- The device would have gone with its network.
      obtain ⟨net, hnet, -⟩ := hrange
      exact absurd hn ((cascade_network (Option.isSome_of_mem hnet)).2 id d' hd')
    · exfalso
      rcases hkeeps with hsame | hempty
      · obtain ⟨old, hnet, rfl⟩ := hrange
        rw [← hid] at hnet
        exact hcidr (hsame old hnet).symm
      · have hkey : d.id = id := Table.key_of_get hold
        have hmem : d ∈ p.shared.store.devices.values .asStored := by
          rw [Table.mem_values, hkey]
          exact hold
        exact hempty d hmem hid.symm
  · obtain ⟨hn, -, hip⟩ := Device.placement_inj hplace
    rw [hn, hip]
    obtain ⟨hreg, -⟩ := hmove.fits.2
    obtain ⟨-, hpick⟩ := h.upToDate _ (mem_of_getElem? hmove.moving) _ rfl d.owned hreg
    obtain ⟨cidr, hrange, hinside⟩ := hpick d.virtualIP ⟨rfl, rfl⟩
    exact ⟨cidr, hmove.hasRange_of_registers hsound hreg hrange, hinside⟩

theorem Ranged.upToDate_after (hlib : lib.ParsesProperly) (h : p.Ranged lib)
    (hmove : Move lib p n i t log c k) (hkeeps : p.shared.store.KeepsRange lib c) :
    UpToDate lib (t, ⟨c, (handler lib c i p.shared).1⟩ :: log,
      k (handler lib c i p.shared).1) (handler lib c i p.shared).2 := by
  intro c' hc' x hx
  have hsound := h.toSound
  obtain ⟨hread, hpick⟩ := h.upToDate _ (mem_of_getElem? hmove.moving) _ rfl x hx
  constructor
  · intro net htold
    refine hmove.hasRange_of_registers hsound hx ?_
    rcases mem_cons.mp htold with hnew | hold
    · obtain ⟨rfl, hans⟩ := Sigma.mk.inj hnew
      exact ⟨net, getByID_ok (eq_of_heq hans).symm, rfl⟩
    · exact hread net hold
  · intro ip hip
    have hfits := (fitting_next hmove.served hc').2
    rcases hmove.chosen hfits hip with ⟨cidr, rfl, hans⟩ | ⟨-, hpre⟩
    · -- The address comes from the range that was read, and that is the network's.
      obtain ⟨-, net, htold, rfl⟩ := hmove.fits.2
      have hrange := hmove.hasRange_of_registers hsound hx (hread net htold)
      exact ⟨net.cidr, hrange, inside_of_nextFree hlib hkeeps hans⟩
    · obtain ⟨cidr, hrange, hinside⟩ := hpick ip hpre
      exact ⟨cidr, hmove.hasRange_of_registers hsound hx hrange, hinside⟩

theorem Ranged.deletesUnneeded (h : p.Ranged lib) (hserv : p.AsServed)
    (hunused : Requests.DrawsUnused p.erase a) (hstep : step lib p a = some p') :
    DeletesUnneeded p.erase a := by
  rcases Tracked.step_cases hstep with ⟨t, rfl, rfl⟩ | ⟨n, i, t, log, c, k, rfl, hn, rfl⟩
  · trivial
  · have hmove : Move lib p n i t log c k := h.toSound.move hserv hunused hn
    intro c' _ m th hmn hth
    obtain ⟨th', hm, rfl⟩ : ∃ th', p.threads[m]? = some th' ∧ (th'.1, th'.2.2) = th := by
      simpa [Tracked.erase] using hth
    exact not_outstanding (h.others_done hmove hmn hm)

theorem Ranged.step (hlib : lib.ParsesProperly) (h : p.Ranged lib) (hserv : p.AsServed)
    (hunused : Requests.DrawsUnused p.erase a)
    (hcond : TakesTurns p.erase a ∧ RangesKept lib p.erase a)
    (hstep : step lib p a = some p') : p'.Ranged lib := by
  obtain ⟨hturn, hkept⟩ := hcond
  have hsound := h.toSound
  have hunneeded := h.deletesUnneeded hserv hunused hstep
  refine ⟨h.toAnchored.step hserv hunused hunneeded hstep, ?_, ?_, ?_⟩
  · refine h.turns.step hstep ?_ (fun _ _ _ _ _ _ _ _ _ => .inl (by simp [nextCall]))
    intro t ha _ m th hm
    subst ha
    have hmem : (th.1, th.2.2) ∈ p.erase.threads := mem_map.mpr ⟨th, mem_of_getElem? hm, rfl⟩
    exact not_not.mpr (hturn _ hmem)
  · refine hsound.shared_step (G := fun s => AddressesInside lib ⟨s, []⟩) hserv hunused hstep
      h.inside ?_
    rintro n i t log c k rfl hmove
    exact h.inside_after hmove (hkept c hmove.next)
  · refine hsound.threads_step (A := UpToDate lib) hserv hunused hstep h.upToDate ?_ ?_ ?_
    · intro t _ c hc x hx
      refine ⟨by rintro net ⟨⟩, ?_⟩
      intro ip hpick
      exact absurd (holds_of_chosen hx hc hpick) (not_holds_body x.2.1 t)
    · rintro n i t log c k rfl hmove
      exact h.upToDate_after hlib hmove (hkept c hmove.next)
    · intro n i t log c k _ hmove m th hmn hm _ c' hc'
      -- Whoever came before is done, and nobody else has begun.
      rw [h.others_done hmove hmn hm] at hc'
      cases hc'

end JournaledRequests

/-- Every device has an address of its network, if the requests come one after the other and
    no range is changed under the devices. -/
theorem addresses_inside {lib : StdLib} (hlib : lib.ParsesProperly) (as : List RestStep)
    (h : Along (step lib) (fun p a => TakesTurns p a ∧ RangesKept lib p a)
      idle as) :
    Throughout (step lib) (AddressesInside lib) idle as :=
  throughout JournaledRequests.ranged_idle (fun _ _ _ hq => hq.step hlib) h
    fun _ _ hq => hq.inside

section

open Requests (comesIn goesOn)

/-- A library that knows two address ranges, and prints IPv4 addresses as Go does. -/
def twoRangesLib : StdLib :=
  { homeLib with
    parseCIDR := fun cidr =>
      if cidr = "10.77.0.0/24" then some ⟨[10, 77, 0, 0], [255, 255, 255, 0], length_mask24⟩
      else if cidr = "10.78.0.0/24" then
        some ⟨[10, 78, 0, 0], [255, 255, 255, 0], length_mask24⟩
      else none
    ipString := fun ip => homeLib.ipString ((to4 ip).getD ip) }

theorem twoRangesLib_parsesProperly : twoRangesLib.ParsesProperly := by
  intro cidr n h
  simp only [twoRangesLib] at h
  split at h
  · cases h
    exact ⟨by decide, by decide⟩
  · split at h
    · cases h
      exact ⟨by decide, by decide⟩
    · cases h

/-- User 1 moves the home network to the other range. -/
def homeMoved : RestCall :=
  .updateNetwork (.ofBytes [7]) (.ofBytes [1]) none none (some "10.78.0.0/24") none

/-- The network is moved before there are devices on it, and renamed afterwards. -/
def movedBefore : List RestStep :=
  homeCreated ++ comesIn 1 homeMoved 3 default ++
    comesIn 2 (deviceRegistered "desk") 6 (deviceDraw 8) ++
    comesIn 3 (deviceCoordinated "laptop") 9 (deviceDraw 9) ++ comesIn 4 homeRenamed 3 default

theorem addresses_inside_home :
    Throughout (step twoRangesLib) (AddressesInside twoRangesLib) idle
      movedBefore :=
  addresses_inside twoRangesLib_parsesProperly movedBefore (by decide +kernel)

/-- The network is moved when there is a device on it. -/
def movedAfter : List RestStep :=
  homeCreated ++ comesIn 1 (deviceRegistered "desk") 6 (deviceDraw 8) ++
    comesIn 2 homeMoved 3 default

theorem not_inside_other : ¬ Inside twoRangesLib "10.78.0.0/24" "10.77.0.2" := by
  intro hinside
  obtain ⟨n, hparse, addr, hstring, -, hin, -⟩ := hinside
  have hn : some ⟨[10, 78, 0, 0], [255, 255, 255, 0], rfl⟩ = some n := hparse
  cases hn
  replace hstring : homeLib.ipString ((to4 addr).getD addr) = "10.77.0.2" := hstring
  replace hin : (((to4 addr).getD addr).length == 4 && [10, 78, 0, 0] ==
      zipWith (· &&& ·) ((to4 addr).getD addr) [255, 255, 255, 0]) = true := hin
  generalize (to4 addr).getD addr = bytes at hstring hin
  have hprints : ∀ b < 256, homeLib.ipString [10, 78, 0, UInt8.ofNat b] ≠ "10.77.0.2" := by
    decide +kernel
  match bytes with
  | [] | [_] | [_, _] | [_, _, _] | _ :: _ :: _ :: _ :: _ :: _ => simp at hin
  | [a, b, c, d] =>
    have hones : (255 : UInt8) = -1 := rfl
    obtain ⟨rfl, rfl, rfl⟩ : 10 = a ∧ 78 = b ∧ 0 = c := by
      simpa [hones] using hin
    apply hprints d.toNat d.toNat_lt
    rw [UInt8.ofNat_toNat]
    exact hstring

/-- The device keeps its old address, which is not in the new range. -/
theorem address_left_behind :
    ∃ p, run (step twoRangesLib) idle movedAfter = some p ∧
      ¬ AddressesInside twoRangesLib p := by
  refine ⟨_, rfl, ?_⟩
  intro h
  obtain ⟨cidr, ⟨net, hnet, rfl⟩, hinside⟩ := h (.ofBytes [8]) _ rfl
  cases hnet
  exact not_inside_other hinside

end

end NexusVPN.Backend
