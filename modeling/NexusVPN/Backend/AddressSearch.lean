import NexusVPN.Backend.AddressRange
import NexusVPN.Backend.PostgresDevices

/-! # The searches for a free address

    Both repositories look for a free address from the bottom of a prefix upwards.  The
    embedded one starts at the third address and asks `IPNet.Contains` when to stop.  The
    Postgres one starts at the second and looks at a limited number of addresses. -/

namespace NexusVPN.Backend

open List Nat Postgres
open UInt8 (ofNat)

/-! ## Prefixes -/

/-- `net.CIDRMask`: `len` bytes that begin with `ones` ones. -/
def cidrMask : Nat → Nat → Bytes
  | 0, _ => []
  | len + 1, ones =>
    (if 8 ≤ ones then 0xff else ~~~(0xff >>> ofNat ones)) :: cidrMask len (ones - 8)

/-- A prefix of `ones` bits. -/
structure IPNet.IsPrefix (n : IPNet) (ones : Nat) : Prop extends n.Proper where
  ones_le : ones ≤ 8 * n.ip.length
  mask_eq : n.mask = cidrMask n.ip.length ones

variable {n : IPNet} {ones : Nat}

theorem IPNet.IsPrefix.mask_induction {P : Nat → Nat → Bytes → Prop} (hn : n.IsPrefix ones)
    (h4 : ∀ ones ≤ 32, P 4 ones (cidrMask 4 ones))
    (h16 : ∀ ones ≤ 128, P 16 ones (cidrMask 16 ones)) : P n.ip.length ones n.mask := by
  have hle := hn.ones_le
  rw [hn.mask_eq]
  rcases hn.length with hlen | hlen
  · rw [hlen] at hle ⊢
    exact h4 ones hle
  · rw [hlen] at hle ⊢
    exact h16 ones hle

/-! ## The Postgres search -/

namespace Postgres

/-- How many candidates the loop looks at. -/
def examinedHosts (base : Bytes) (used : String → Bool) : Nat → Nat → Nat
  | 0, _ => 0
  | rounds + 1, offset =>
    if !used (dottedDecimal (hostAddress base offset)) then 1
    else examinedHosts base used rounds (offset + 1) + 1

/-- How many candidates `nextFreeIPv4` looks at. -/
def examinedIPv4 (base mask : Bytes) (used : String → Bool) : Nat :=
  if hostBits mask = 0 then 0 else examinedHosts base used (scanEnd (hostBits mask) - 1) 1

/-- How far from its base a prefix is searched. -/
def searchWindow (ones : Nat) : Nat := min (2 ^ (32 - ones)) (2 ^ 20)

/-- The address at the offset is to be looked at, and is not used. -/
def FreeAt (base : Bytes) (used : String → Bool) (ones k : Nat) : Prop :=
  1 ≤ k ∧ k + 2 ≤ searchWindow ones ∧ used (dottedDecimal (hostAddress base k)) = false

/-- The search is short, and returns the address at the least free offset, or fails if there
    is none. -/
structure FindsLeastOffset (base : Bytes) (used : String → Bool) (ones : Nat) : Prop where
  short : examinedIPv4 base (cidrMask 4 ones) used ≤ 2 ^ 20
  result : (∃ k, (FreeAt base used ones k ∧ ∀ j, FreeAt base used ones j → k ≤ j) ∧
      nextFreeIPv4 base (cidrMask 4 ones) used = .ok (dottedDecimal (hostAddress base k))) ∨
    (∀ k, ¬ FreeAt base used ones k) ∧ ∃ e, nextFreeIPv4 base (cidrMask 4 ones) used = .error e

section

variable {base : Bytes} {used : String → Bool} {ones : Nat}

variable (base used) in
theorem scanHosts_spec (rounds offset : Nat) :
    (∃ k < rounds, (∀ j < k, used (dottedDecimal (hostAddress base (offset + j))) = true) ∧
      used (dottedDecimal (hostAddress base (offset + k))) = false ∧
      scanHosts base used rounds offset = .ok (dottedDecimal (hostAddress base (offset + k))) ∧
      examinedHosts base used rounds offset = k + 1) ∨
    ((∀ j < rounds, used (dottedDecimal (hostAddress base (offset + j))) = true) ∧
      scanHosts base used rounds offset = .error .noFreeAddresses ∧
      examinedHosts base used rounds offset = rounds) := by
  induction rounds generalizing offset with
  | zero => exact .inr ⟨fun _ hj => absurd hj (not_lt_zero _), rfl, rfl⟩
  | succ rounds ih =>
    rw [scanHosts, examinedHosts]
    cases hused : used (dottedDecimal (hostAddress base offset)) with
    | false => exact .inl ⟨0, by omega, fun _ hj => absurd hj (not_lt_zero _), hused, by simp⟩
    | true =>
      -- The offset moves on, so the indices shift by one.
      have hfirst : ∀ {m : Nat},
          (∀ j < m, used (dottedDecimal (hostAddress base (offset + 1 + j))) = true) →
          ∀ j < m + 1, used (dottedDecimal (hostAddress base (offset + j))) = true := by
        intro m hrest j hj
        cases j with
        | zero => exact hused
        | succ j =>
          rw [Nat.add_comm j, ← Nat.add_assoc]
          exact hrest j (by omega)
      rcases ih (offset + 1) with ⟨k, hk, hpre, hfree, hscan, hcount⟩ | ⟨hall, hscan, hcount⟩
      · rw [Nat.add_assoc, Nat.add_comm 1 k] at hfree hscan
        exact .inl ⟨k + 1, by omega, hfirst hpre, hfree, by simpa using hscan,
          by simpa using hcount⟩
      · exact .inr ⟨hfirst hall, by simpa using hscan, by simpa using hcount⟩

theorem hostBits_mask4 (h : ones ≤ 32) : hostBits (cidrMask 4 ones) = 32 - ones := by
  have hall : ∀ ones ≤ 32, hostBits (cidrMask 4 ones) = 32 - ones := by decide +kernel
  exact hall ones h

/-- How many candidates there are.  In a `/0` the shift has lost the number of addresses. -/
def scanRounds (ones : Nat) : Nat := if ones = 0 then 2 ^ 32 - 2 else searchWindow ones - 2

theorem scanEnd_eq (h : ones < 32) : scanEnd (32 - ones) - 1 = scanRounds ones := by
  have hall : ∀ ones < 32, scanEnd (32 - ones) - 1 = scanRounds ones := by decide +kernel
  exact hall ones h

variable (base used) in
theorem nextFreeIPv4_spec (hones : ones ≤ 32) :
    (∃ k < scanRounds ones, (∀ j < k, used (dottedDecimal (hostAddress base (1 + j))) = true) ∧
      used (dottedDecimal (hostAddress base (1 + k))) = false ∧
      nextFreeIPv4 base (cidrMask 4 ones) used = .ok (dottedDecimal (hostAddress base (1 + k))) ∧
      examinedIPv4 base (cidrMask 4 ones) used = k + 1) ∨
    ((∀ j < scanRounds ones, used (dottedDecimal (hostAddress base (1 + j))) = true) ∧
      (∃ e, nextFreeIPv4 base (cidrMask 4 ones) used = .error e) ∧
      examinedIPv4 base (cidrMask 4 ones) used = scanRounds ones) := by
  rw [nextFreeIPv4, examinedIPv4, hostBits_mask4 hones]
  by_cases hnone : ones = 32
  · subst hnone
    exact .inr ⟨fun _ hj => absurd hj (not_lt_zero _), ⟨_, rfl⟩, rfl⟩
  · rw [if_neg (by omega), if_neg (by omega), scanEnd_eq (by omega)]
    exact (scanHosts_spec base used (scanRounds ones) 1).imp_right fun h => ⟨h.1, ⟨_, h.2.1⟩, h.2.2⟩

end

/-- The Postgres search finds the least free offset within its window, after few candidates,
    unless the prefix is a `/0` and the whole window is used. -/
theorem least_offset_iff (base : Bytes) (used : String → Bool) {ones : Nat} (hones : ones ≤ 32) :
    FindsLeastOffset base used ones ↔ 1 ≤ ones ∨ ∃ k, FreeAt base used ones k := by
  have hmax : searchWindow ones ≤ 2 ^ 20 := min_le_right _ _
  have hrounds : searchWindow ones - 2 ≤ scanRounds ones ∧
      (1 ≤ ones ∧ scanRounds ones = searchWindow ones - 2 ∨
        ones = 0 ∧ scanRounds ones = 2 ^ 32 - 2) := by
    unfold scanRounds
    split <;> omega
  have hoffset : ∀ {k}, FreeAt base used ones k → k - 1 < scanRounds ones ∧
      ¬ used (dottedDecimal (hostAddress base (1 + (k - 1)))) = true := by
    intro k hk
    obtain ⟨hpos, hle, hfree⟩ := hk
    rw [Nat.add_sub_cancel' hpos, hfree]
    exact ⟨by omega, Bool.false_ne_true⟩
  rcases nextFreeIPv4_spec base used hones with
    ⟨k, hk, hpre, hfree, hok, hcount⟩ | ⟨hall, ⟨e, herr⟩, hcount⟩
  · have hleast : ∀ j, FreeAt base used ones j → 1 + k ≤ j := by
      intro j hj
      by_contra hlt
      exact (hoffset hj).2 (hpre (j - 1) (by have := hj.1; omega))
    constructor
    · rintro ⟨-, ⟨k', hk', -⟩ | ⟨-, e, herr⟩⟩
      · exact .inr ⟨k', hk'.1⟩
      · rw [hok] at herr
        cases herr
    · intro h
      have hin : 1 + k + 2 ≤ searchWindow ones := by
        rcases h with hpos | ⟨k', hk'⟩
        · omega
        · have := hleast k' hk'
          have := hk'.2.1
          omega
      exact ⟨by omega, .inl ⟨1 + k, ⟨⟨by omega, hin, hfree⟩, hleast⟩, hok⟩⟩
  · have hnone : ∀ k, ¬ FreeAt base used ones k :=
      fun k hk => (hoffset hk).2 (hall (k - 1) (hoffset hk).1)
    constructor
    · rintro ⟨hshort, -⟩
      exact .inl (by omega)
    · rintro (hpos | ⟨k, hk⟩)
      · exact ⟨by omega, .inr ⟨hnone, e, herr⟩⟩
      · exact absurd hk (hnone k)

theorem least_offset_iff_home : FindsLeastOffset [10, 77, 0, 0] (fun s => s == "10.77.0.1") 24 :=
  (least_offset_iff [10, 77, 0, 0] _ (by decide)).mpr (.inl (by decide))

/-- The address is written as the search writes it. -/
def writtenPlainly (s : String) : Bool :=
  (parseDottedDecimal s.toList).any fun b => b.length == 4 && dottedDecimal b == s

/-- When every address is used, the search of a `/0` does not stop after its window. -/
theorem whole_space_searched : ¬ FindsLeastOffset [0, 0, 0, 0] writtenPlainly 0 := by
  rintro ⟨hshort, -⟩
  rcases nextFreeIPv4_spec [0, 0, 0, 0] writtenPlainly (zero_le 32) with
    ⟨k, -, -, hfree, -⟩ | ⟨-, -, hcount⟩
  · rw [writtenPlainly, parse_dottedDecimal (hostAddress_ne_nil _ _)] at hfree
    simp [hostAddress, bigEndianPutUint32] at hfree
  · rw [hcount] at hshort
    revert hshort
    decide

end Postgres

/-! ## A first device -/

theorem IPNet.IsPrefix.hostBits_eq (hn : n.IsPrefix ones) :
    hostBits n.mask = 8 * n.ip.length - ones :=
  hn.mask_induction (P := fun len ones mask => hostBits mask = 8 * len - ones)
    (by decide +kernel) (by decide +kernel)

/-- The last byte of masks that leave two bits. -/
def looseBytes : Bytes := [0, 128, 192, 224, 240, 248, 252]

theorem IPNet.IsPrefix.mask_last (hn : n.IsPrefix ones) (h : ones + 2 ≤ 8 * n.ip.length) :
    ∃ m ∈ looseBytes, n.mask = n.mask.dropLast ++ [m] := by
  obtain ⟨m, hm, hlast⟩ := hn.mask_induction (P := fun len ones mask => ones + 2 ≤ 8 * len →
    ∃ m ∈ looseBytes, mask.getLast? = some m) (by decide +kernel) (by decide +kernel) h
  exact ⟨m, hm, (dropLast_append_getLast? m hlast).symm⟩

theorem third_byte {m : UInt8} (hm : m ∈ looseBytes) {b : UInt8} (hb : b &&& m = b) :
    b + 1 ≠ 0 ∧ b + 1 + 1 ≠ 0 ∧ (b + 1 + 1) &&& m = b &&& m ∧ ((b + 1 + 1) ||| m) ≠ 0xff := by
  have hall : ∀ m ∈ looseBytes, ∀ k < 256, ofNat k &&& m = ofNat k →
      ofNat k + 1 ≠ 0 ∧ ofNat k + 1 + 1 ≠ 0 ∧
      (ofNat k + 1 + 1) &&& m = ofNat k &&& m ∧
      ((ofNat k + 1 + 1) ||| m) ≠ 0xff := by decide +kernel
  have hk := hall m hm b.toNat b.toNat_lt
  rw [UInt8.ofNat_toNat] at hk
  exact hk hb

theorem IPNet.IsPrefix.third (hn : n.IsPrefix ones) (h : ones + 2 ≤ 8 * n.ip.length) :
    n.contains (incrementIP (incrementIP n.ip)) = true ∧
      isBroadcast (incrementIP (incrementIP n.ip)) n = false := by
  obtain ⟨m, hm, hmask⟩ := hn.mask_last h
  obtain ⟨init, b, hip⟩ : ∃ init b, n.ip = init ++ [b] := by
    refine ⟨n.ip.dropLast, n.ip.getLast ?_, (dropLast_concat_getLast _).symm⟩
    intro hnil
    rw [hnil] at h
    exact absurd h (by simp)
  have hlen : n.mask.dropLast.length = init.length := by simp [n.length_eq, hip]
  have hfirst := hn.first
  rw [hip, hmask, zipWith_append hlen.symm] at hfirst
  -- Two host bits leave room for the third address in the last byte.
  obtain ⟨-, hb⟩ := append_inj' hfirst rfl
  obtain ⟨hb₁, hb₂, hand, hor⟩ := third_byte hm (List.cons.inj hb).1
  have hthird : incrementIP (incrementIP n.ip) = init ++ [b + 1 + 1] := by
    simp [hip, incrementIP, incrementLow, hb₁, hb₂]
  rw [hthird]
  constructor
  · rw [hn.contains_iff (by simp [hip]), hip, hmask, zipWith_append hlen.symm,
      zipWith_append hlen.symm]
    refine ⟨by simp [hand], ?_⟩
    rcases hn.length with h4 | h16
    · have hinit : init.length = 3 := by simpa [hip] using h4
      simp [to4, hinit]
    · have hinit : init.length = 15 := by simpa [hip] using h16
      simp [to4, hinit, take_append_of_le_length, apply_ite Option.isSome]
  · rw [isBroadcast, hmask, zipWith_append hlen.symm, all_append]
    simp [hor]

/-- In a network without devices both searches find an address just in the IPv4 prefixes that
    leave at least two bits for hosts. -/
theorem first_device_iff {lib : StdLib} {cidr : String} {n : IPNet} {ones : Nat}
    (hparse : lib.parseCIDR cidr = some n) (hn : n.IsPrefix ones) {networkID : UUID} {s : Store}
    (hempty : ∀ id d, s.devices.get id = some d → d.networkID ≠ networkID) (i : RepoInput)
    (t : Devices) {i' : StatementInput} (hfault : i'.fault = none) :
    ((∃ ip, (DeviceRepo.nextFreeVirtualIP lib networkID cidr i s).1 = .ok ip) ∧
      ∃ ip, nextFreeVirtualIP lib i' networkID cidr t = .ok ip) ↔
      (to4 n.ip).isSome = true ∧ ones + 2 ≤ 8 * n.ip.length := by
  have hbits := hn.hostBits_eq
  constructor
  · rintro ⟨-, ip, hip⟩
    cases hbase : to4 n.ip with
    | none =>
      simp [nextFreeVirtualIP, hfault, nextFreeHostIP, hparse, hbase] at hip
    | some base =>
      have hok := (ok_of_nextFree hparse hbase hip).1
      exact ⟨rfl, by omega⟩
  · rintro ⟨hv4, hhosts⟩
    obtain ⟨base, hbase⟩ := Option.isSome_iff_exists.mp hv4
    constructor
    · obtain ⟨hc, hlast⟩ := hn.third hhosts
      have hfree : ∀ ip, (s.devices.values i.order).any
          (fun d => d.networkID == networkID && d.virtualIP == ip) = false := by
        intro ip
        rw [any_eq_false]
        intro d hd
        simp [hempty d.id d (Table.mem_values.mp hd)]
      obtain ⟨k, hk⟩ := exists_eq_succ_of_ne_zero (n := 2 ^ (8 * n.ip.length))
        (Nat.pow_pos (by decide)).ne'
      simp [DeviceRepo.nextFreeVirtualIP, hparse, firstFree, hk, searchFree, hc, hlast, hfree]
    · rw [nextFreeVirtualIP_eq hparse hbase hfault, if_pos (by omega)]
      exact ⟨_, rfl⟩

theorem homeRange_isPrefix : IPNet.IsPrefix ⟨[10, 77, 0, 0], [255, 255, 255, 0], rfl⟩ 24 :=
  ⟨⟨.inl rfl, by decide⟩, by decide, by decide⟩

theorem first_device_iff_home :
    (∃ ip, (DeviceRepo.nextFreeVirtualIP homeLib .nil "10.77.0.0/24" default .empty).1 = .ok ip) ∧
      ∃ ip, nextFreeVirtualIP homeLib quietStatement .nil "10.77.0.0/24" .empty = .ok ip := by
  have hempty : ∀ id d, Store.empty.devices.get id = some d → d.networkID ≠ .nil :=
    fun _ _ hd => nomatch hd
  exact (first_device_iff rfl homeRange_isPrefix hempty default .empty rfl).mpr ⟨rfl, by decide⟩

/-- A library that reads one address as a network. -/
def oneHostLib : StdLib :=
  { homeLib with parseCIDR := fun _ => some ⟨[10, 0, 0, 1], [255, 255, 255, 255], rfl⟩ }

/-- `Create` takes a prefix of one address, and neither repository finds a device a place. -/
theorem created_without_room :
    ∃ n s, (NetworkService.create oneHostLib .nil "home" "" "10.0.0.1/32" []).run.exec
        (Store.handler oneHostLib) (fun _ => default) .empty = (.ok n, s) ∧
      (DeviceRepo.nextFreeVirtualIP oneHostLib n.id n.cidr default s).1 = .error .networkFull ∧
      nextFreeVirtualIP oneHostLib quietStatement n.id n.cidr .empty = .error .networkFull :=
  ⟨_, _, rfl, by decide +kernel, by decide +kernel⟩

end NexusVPN.Backend
