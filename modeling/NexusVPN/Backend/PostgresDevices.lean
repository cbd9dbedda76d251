import NexusVPN.Backend.Allocation
import NexusVPN.Lib.DottedDecimal

/-! # Device addresses in Postgres

    `repository/postgres/device_repo.go` and `ipalloc.go`.  Virtual addresses are in a column
    of type `inet`, and are read as text, which comes with the number of bits of the mask.
    The search for a free address compares these texts with plain addresses.

    Only IPv4 addresses are ever stored, since the search returns no others.  The texts of the
    errors of the search are left out, as `NextFreeVirtualIP` drops them. -/

namespace NexusVPN.Backend.Postgres

open List Table Nat

/-! ## The table -/

/-- An `inet` value that is an IPv4 address. -/
@[ext]
structure Inet where
  addr : Bytes
  bits : Nat
  length_eq : addr.length = 4
deriving DecidableEq

/-- `inet` cast to `text`. -/
def Inet.text (v : Inet) : String := dottedDecimal v.addr ++ "/" ++ toString v.bits

def Inet.ofHost (cs : List Char) (bits : Nat) : Option Inet :=
  match parseDottedDecimal cs with
  | none => none
  | some addr => if h : addr.length = 4 then some ⟨addr, bits, h⟩ else none

/-- `text` cast to `inet`: without a mask, all bits count. -/
def Inet.ofText (s : String) : Option Inet :=
  match s.toList.splitOn '/' with
  | [host] => ofHost host 32
  | [host, mask] =>
    (parseDecimal mask).bind fun bits => if bits ≤ 32 then ofHost host bits else none
  | _ => none

/-- A row of `devices`. -/
structure DeviceRow where
  id : UUID
  userID : UUID
  networkID : UUID
  name : String
  os : DeviceOS
  osVersion : String
  publicKey : String
  virtualIP : Inet
  lastPublicIP : Option String
  lastPrivateIP : Option String
  natType : Option String
  status : DeviceStatus
  lastSeenAt : Option Time
  bytesSent : Int
  bytesReceived : Int
  advertisesExitNode : Bool
  createdAt : Time
  updatedAt : Time

abbrev DeviceRows := Table UUID DeviceRow DeviceRow.id

/-- `UNIQUE`. -/
def DeviceRows.UniqueBy {κ : Type} (rows : DeviceRows) (column : DeviceRow → κ) : Prop :=
  ∀ id id' r r', rows.get id = some r → rows.get id' = some r' → column r = column r' → id = id'

theorem DeviceRows.UniqueBy.put {κ : Type} {rows : DeviceRows} {column : DeviceRow → κ}
    (h : rows.UniqueBy column) {row : DeviceRow}
    (hnew : ∀ id r, rows.get id = some r → column r ≠ column row) :
    DeviceRows.UniqueBy (rows.put row) column := by
  intro id id' r r' hr hr' hsame
  rw [get_put] at hr hr'
  split at hr
  · next hid =>
    split at hr'
    · next hid' => rw [hid, hid']
    · cases hr
      exact absurd hsame.symm (hnew id' r' hr')
  · split at hr'
    · cases hr'
      exact absurd hsame (hnew id r hr)
    · exact h id id' r r' hr hr' hsame

/-- Where the row is, in the columns of `UNIQUE (network_id, virtual_ip)`. -/
def DeviceRow.place (r : DeviceRow) : UUID × Inet := (r.networkID, r.virtualIP)

/-- The table `devices`. -/
structure Devices where
  rows : DeviceRows
  publicKey_unique : rows.UniqueBy DeviceRow.publicKey
  place_unique : rows.UniqueBy DeviceRow.place

variable {n : UUID} {t : Devices}

namespace Devices

def empty : Devices where
  rows := .empty
  publicKey_unique _ _ _ _ h := nomatch h
  place_unique _ _ _ _ h := nomatch h

/-- Some row has what may be there only once. -/
def conflicts (t : Devices) (row : DeviceRow) : Bool :=
  (t.rows.values .asStored).any fun r =>
    r.id == row.id || r.publicKey == row.publicKey || r.place == row.place

theorem conflicts_false {row : DeviceRow} (h : t.conflicts row = false) {id : UUID} {r : DeviceRow}
    (hr : t.rows.get id = some r) : r.publicKey ≠ row.publicKey ∧ r.place ≠ row.place := by
  have hkey : r.id = id := key_of_get hr
  have hmem : r ∈ t.rows.values .asStored := by
    rw [mem_values, hkey]
    exact hr
  have hnone := any_eq_false.mp h r hmem
  simp only [Bool.or_eq_true, beq_iff_eq, not_or] at hnone
  exact ⟨hnone.1.2, hnone.2⟩

def insert (t : Devices) (row : DeviceRow) (h : t.conflicts row = false) : Devices where
  rows := t.rows.put row
  publicKey_unique := t.publicKey_unique.put fun _ _ hr => (conflicts_false h hr).1
  place_unique := t.place_unique.put fun _ _ hr => (conflicts_false h hr).2

end Devices

/-! ## The repository -/

/-- What a statement may depend on besides the table. -/
structure StatementInput where
  fresh : UUID
  now : Time
  order : MapOrder UUID
  /-- The user and the network that a new row refers to are there. -/
  referenced : Bool
  /-- The error that the database answers with for reasons of its own. -/
  fault : Option String

def scanDevice (r : DeviceRow) : Device where
  id := r.id
  userID := r.userID
  networkID := r.networkID
  name := r.name
  os := r.os
  osVersion := r.osVersion
  publicKey := r.publicKey
  virtualIP := r.virtualIP.text
  lastPublicIP := r.lastPublicIP
  lastPrivateIP := r.lastPrivateIP
  natType := r.natType
  status := r.status
  lastSeenAt := r.lastSeenAt
  bytesSent := r.bytesSent
  bytesReceived := r.bytesReceived
  advertisesExitNode := r.advertisesExitNode
  createdAt := r.createdAt
  updatedAt := r.updatedAt

/-- The row that `INSERT INTO devices` makes of a device. -/
def insertedRow (i : StatementInput) (d : Device) (virtualIP : Inet) : DeviceRow where
  id := orFresh d.id i.fresh
  userID := d.userID
  networkID := d.networkID
  name := d.name
  os := d.os
  osVersion := d.osVersion
  publicKey := d.publicKey
  virtualIP := virtualIP
  lastPublicIP := none
  lastPrivateIP := none
  natType := none
  status := d.status
  lastSeenAt := none
  bytesSent := 0
  bytesReceived := 0
  advertisesExitNode := d.advertisesExitNode
  createdAt := i.now
  updatedAt := i.now

/-- `DeviceRepo.Create`. -/
def create (i : StatementInput) (d : Device) (t : Devices) : Except DomainError Device × Devices :=
  match i.fault with
  | some text => (.error (.other text), t)
  | none =>
    match Inet.ofText d.virtualIP with
    | none =>
      (.error (.other ("ERROR: invalid input syntax for type inet: \"" ++ d.virtualIP ++
        "\" (SQLSTATE 22P02)")), t)
    | some virtualIP =>
      if h : t.conflicts (insertedRow i d virtualIP) = false then
        if i.referenced then
          (.ok (scanDevice (insertedRow i d virtualIP)), t.insert (insertedRow i d virtualIP) h)
        else (.error .invalidInput, t)
      else (.error .alreadyExists, t)

/-- `DeviceRepo.GetByID`. -/
def getByID (i : StatementInput) (id : UUID) (t : Devices) : Except DomainError Device :=
  match i.fault with
  | some text => .error (.other text)
  | none =>
    match t.rows.get id with
    | none => .error .notFound
    | some r => .ok (scanDevice r)

/-! ## The search for a free address -/

inductive AllocError where
  | invalidCIDR
  | unsupportedFamily
  | noUsableHosts
  | noFreeAddresses

/-- How many ones a byte begins with, and what is left of it when they are shifted out. -/
def leadingOnes : Nat → UInt8 → Nat × UInt8
  | 0, v => (0, v)
  | fuel + 1, v =>
    if v &&& 0x80 ≠ 0 then
      let (n, rest) := leadingOnes fuel (v <<< 1)
      (n + 1, rest)
    else (0, v)

def simpleMaskLength : Bytes → Option Nat
  | [] => some 0
  | v :: mask =>
    if v = 0xff then (simpleMaskLength mask).map (8 + ·)
    else
      let (n, rest) := leadingOnes 8 v
      if rest = 0 ∧ mask.all (· == 0) then some n else none

/-- `IPMask.Size`. -/
def maskSize (mask : Bytes) : Nat × Nat :=
  match simpleMaskLength mask with
  | none => (0, 0)
  | some ones => (ones, 8 * mask.length)

/-- `bits - ones`. -/
def hostBits (mask : Bytes) : Nat := (maskSize mask).2 - (maskSize mask).1

/-- `binary.BigEndian.Uint32`. -/
def bigEndianUint32 (b : Bytes) : Nat := b.foldl (fun n x => n * 256 + x.toNat) 0

/-- `binary.BigEndian.PutUint32`. -/
def bigEndianPutUint32 (n : Nat) : Bytes :=
  [UInt8.ofNat (n / 2 ^ 24), UInt8.ofNat (n / 2 ^ 16), UInt8.ofNat (n / 2 ^ 8), UInt8.ofNat n]

/-- The address at an offset from the base. -/
def hostAddress (base : Bytes) (offset : Nat) : Bytes :=
  bigEndianPutUint32 ((bigEndianUint32 base + offset) % 2 ^ 32)

/-- The loop of `nextFreeIPv4`. -/
def scanHosts (base : Bytes) (used : String → Bool) : Nat → Nat → Except AllocError String
  | 0, _ => .error .noFreeAddresses
  | rounds + 1, offset =>
    let candidate := dottedDecimal (hostAddress base offset)
    if !used candidate then .ok candidate else scanHosts base used rounds (offset + 1)

def maxScannedHosts : Nat := 2 ^ 20

/-- Where the loop ends.  From 32 host bits on the shift gives zero, and one less than
    that is the largest `uint32`. -/
def scanEnd (hostBits : Nat) : Nat :=
  let total := 2 ^ hostBits % 2 ^ 32
  let total := if maxScannedHosts < total then maxScannedHosts else total
  (total + (2 ^ 32 - 1)) % 2 ^ 32

/-- `nextFreeIPv4`.  Its last branch, for no host bits at all, is never taken. -/
def nextFreeIPv4 (base mask : Bytes) (used : String → Bool) : Except AllocError String :=
  if hostBits mask = 0 then .error .noUsableHosts
  else scanHosts base used (scanEnd (hostBits mask) - 1) 1

def nextFreeHostIP (lib : StdLib) (cidr : String) (used : String → Bool) :
    Except AllocError String :=
  match lib.parseCIDR cidr with
  | none => .error .invalidCIDR
  | some ipnet =>
    match to4 ipnet.ip with
    | some v4 => nextFreeIPv4 v4 ipnet.mask used
    | none => .error .unsupportedFamily

/-- `DeviceRepo.NextFreeVirtualIP`. -/
def nextFreeVirtualIP (lib : StdLib) (i : StatementInput) (networkID : UUID) (cidr : String)
    (t : Devices) : Except DomainError String :=
  match i.fault with
  | some text => .error (.other text)
  | none =>
    let rows := (t.rows.values i.order).filter (·.networkID == networkID)
    match nextFreeHostIP lib cidr fun s => rows.any (·.virtualIP.text == s) with
    | .error _ => .error .networkFull
    | .ok ip => .ok ip

/-! ## The property -/

/-- The device is on the network. -/
def Devices.On (t : Devices) (n : UUID) (r : DeviceRow) : Prop :=
  t.rows.get r.id = some r ∧ r.networkID = n

/-- The string is the address, written plainly. -/
def Denotes (ip : String) (addr : Bytes) : Prop := parseDottedDecimal ip.toList = some addr

/-- The address that the search returns is not that of a device on the network. -/
def AvoidsAssigned (lib : StdLib) (t : Devices) (n : UUID) (cidr : String) : Prop :=
  ∀ i ip, nextFreeVirtualIP lib i n cidr t = .ok ip → ∀ r, t.On n r → ¬ Denotes ip r.virtualIP.addr

/-- The address of a device is read back plainly. -/
def ReadsBack (t : Devices) (n : UUID) : Prop :=
  ∀ r, t.On n r → ∀ i d, getByID i r.id t = .ok d → d.virtualIP = dottedDecimal r.virtualIP.addr

/-- A statement that the database does not fail. -/
def quietStatement : StatementInput := ⟨.nil, 0, .asStored, true, none⟩

/-! ## What the search finds -/

theorem Inet.text_ne_dottedDecimal (v : Inet) (bytes : Bytes) : v.text ≠ dottedDecimal bytes := by
  intro heq
  have hslash : '/' ∈ v.text.toList := by simp [Inet.text]
  rw [heq] at hslash
  exact not_mem_dottedDecimal (by decide) (by decide) bytes hslash

theorem hostAddress_ne_nil (base : Bytes) (offset : Nat) : hostAddress base offset ≠ [] := by
  simp [hostAddress, bigEndianPutUint32]

theorem two_le_scanEnd {hostBits : Nat} (h : 2 ≤ hostBits) : 2 ≤ scanEnd hostBits := by
  have hmax : maxScannedHosts = 2 ^ 20 := rfl
  dsimp only [scanEnd]
  by_cases hsmall : hostBits < 32
  · have hlt : 2 ^ hostBits < 2 ^ 32 := Nat.pow_lt_pow_right (by omega) hsmall
    have hle : 2 ^ 2 ≤ 2 ^ hostBits := Nat.pow_le_pow_right (by omega) h
    rw [mod_eq_of_lt hlt]
    generalize 2 ^ hostBits = total at hlt hle
    by_cases hcap : maxScannedHosts < total
    · rw [if_pos hcap]
      decide
    · rw [if_neg hcap]
      omega
  · obtain ⟨more, rfl⟩ := Nat.exists_eq_add_of_le (Nat.le_of_not_lt hsmall)
    rw [Nat.pow_add, Nat.mul_mod_right]
    decide

theorem nextFreeIPv4_unused {used : String → Bool}
    (hused : ∀ bytes, used (dottedDecimal bytes) = false) {mask : Bytes}
    (hbits : 2 ≤ hostBits mask) (base : Bytes) :
    nextFreeIPv4 base mask used = .ok (dottedDecimal (hostAddress base 1)) := by
  have hend := two_le_scanEnd hbits
  obtain ⟨rounds, hrounds⟩ : ∃ rounds, scanEnd (hostBits mask) - 1 = rounds + 1 :=
    ⟨scanEnd (hostBits mask) - 2, by omega⟩
  rw [nextFreeIPv4, if_neg (by omega), hrounds, scanHosts, hused]
  rfl

theorem nextFreeIPv4_few {mask : Bytes} (hbits : hostBits mask < 2) (base : Bytes)
    (used : String → Bool) : ∃ e, nextFreeIPv4 base mask used = .error e := by
  rw [nextFreeIPv4]
  by_cases hnone : hostBits mask = 0
  · exact ⟨_, if_pos hnone⟩
  · have hone : hostBits mask = 1 := by omega
    rw [if_neg hnone, hone]
    exact ⟨.noFreeAddresses, rfl⟩

theorem readsBack_iff : ReadsBack t n ↔ ∀ r, ¬ t.On n r := by
  constructor
  · intro h r hr
    have hread : getByID quietStatement r.id t = .ok (scanDevice r) := by
      simp [getByID, quietStatement, hr.1]
    exact r.virtualIP.text_ne_dottedDecimal _ (h r hr quietStatement _ hread)
  · exact fun h r hr => absurd hr (h r)

theorem denotes_iff {bytes addr : Bytes} (hne : bytes ≠ []) :
    Denotes (dottedDecimal bytes) addr ↔ bytes = addr := by
  rw [Denotes, parse_dottedDecimal hne]
  exact ⟨Option.some.inj, congrArg some⟩

section

variable {lib : StdLib} {cidr : String} {ipnet : IPNet} {base : Bytes} {i : StatementInput}
  (hparse : lib.parseCIDR cidr = some ipnet) (hbase : to4 ipnet.ip = some base)

include hparse hbase in
theorem nextFreeVirtualIP_eq (hfault : i.fault = none) (n : UUID) (t : Devices) :
    nextFreeVirtualIP lib i n cidr t =
      if 2 ≤ hostBits ipnet.mask then .ok (dottedDecimal (hostAddress base 1))
      else .error .networkFull := by
  simp only [nextFreeVirtualIP, hfault, nextFreeHostIP, hparse, hbase]
  by_cases hbits : 2 ≤ hostBits ipnet.mask
  · rw [if_pos hbits, nextFreeIPv4_unused ?_ hbits]
    intro bytes
    rw [any_eq_false]
    intro r _ heq
    exact r.virtualIP.text_ne_dottedDecimal bytes (beq_iff_eq.mp heq)
  · obtain ⟨e, he⟩ := nextFreeIPv4_few (Nat.lt_of_not_le hbits) base
      fun s => ((t.rows.values i.order).filter (·.networkID == n)).any (·.virtualIP.text == s)
    rw [if_neg hbits, he]

include hparse hbase in
theorem ok_of_nextFree {ip : String} (h : nextFreeVirtualIP lib i n cidr t = .ok ip) :
    2 ≤ hostBits ipnet.mask ∧ ip = dottedDecimal (hostAddress base 1) := by
  cases hfault : i.fault with
  | some text => simp [nextFreeVirtualIP, hfault] at h
  | none =>
    rw [nextFreeVirtualIP_eq hparse hbase hfault] at h
    split at h
    · next hbits => exact ⟨hbits, (Except.ok.inj h).symm⟩
    · cases h

include hparse hbase in
theorem avoidsAssigned_iff :
    AvoidsAssigned lib t n cidr ↔
      (2 ≤ hostBits ipnet.mask → ∀ r, t.On n r → r.virtualIP.addr ≠ hostAddress base 1) := by
  constructor
  · intro h hbits r hr heq
    have hfree := nextFreeVirtualIP_eq hparse hbase (i := quietStatement) rfl n t
    rw [if_pos hbits] at hfree
    exact h _ _ hfree r hr ((denotes_iff (hostAddress_ne_nil base 1)).mpr heq.symm)
  · intro h i ip hfree r hr hdenotes
    obtain ⟨hbits, rfl⟩ := ok_of_nextFree hparse hbase hfree
    rw [denotes_iff (hostAddress_ne_nil base 1)] at hdenotes
    exact h hbits r hr hdenotes.symm

end

/-- The search avoids the addresses of the network's devices as long as none of them has the
    first host address, or there is nothing to search; and no device is read back with the
    address that it was given. -/
theorem allocation_sound_iff {lib : StdLib} {cidr : String} {ipnet : IPNet} {base : Bytes}
    (hparse : lib.parseCIDR cidr = some ipnet) (hbase : to4 ipnet.ip = some base) (t : Devices)
    (n : UUID) :
    (AvoidsAssigned lib t n cidr ∧ ReadsBack t n ↔ ∀ r, ¬ t.On n r) ∧
    (AvoidsAssigned lib t n cidr ↔
      hostBits ipnet.mask < 2 ∨ ∀ r, t.On n r → r.virtualIP.addr ≠ hostAddress base 1) := by
  have hav := avoidsAssigned_iff hparse hbase (t := t) (n := n)
  constructor
  · constructor
    · exact fun h => readsBack_iff.mp h.2
    · intro hnone
      exact ⟨hav.mpr fun _ r hr => absurd hr (hnone r), readsBack_iff.mpr hnone⟩
  · rw [hav, ← not_le, ← imp_iff_not_or]

/-- A device on network 7. -/
def desktop : Device where
  id := .ofBytes [8]
  userID := .ofBytes [1]
  networkID := .ofBytes [7]
  name := "desktop"
  os := .linux
  osVersion := ""
  publicKey := "desktop key"
  virtualIP := "10.77.0.1"
  lastPublicIP := none
  lastPrivateIP := none
  natType := none
  status := .offline
  lastSeenAt := none
  bytesSent := 0
  bytesReceived := 0
  advertisesExitNode := false
  createdAt := 0
  updatedAt := 0

/-- The table with the desktop in it. -/
def withDesktop : Devices := (create quietStatement desktop .empty).2

/-- The table with the desktop at the second host address. -/
def withSecond : Devices :=
  (create quietStatement { desktop with virtualIP := "10.77.0.2" } .empty).2

/-- The search avoids the desktop, and finds nothing wrong on another network. -/
theorem allocation_sound_second :
    AvoidsAssigned homeLib withSecond (.ofBytes [7]) "10.77.0.0/24" ∧
      AvoidsAssigned homeLib withSecond (.ofBytes [6]) "10.77.0.0/24" ∧
      ReadsBack withSecond (.ofBytes [6]) := by
  have hon : ∀ n r, withSecond.On n r → n = .ofBytes [7] ∧ r.virtualIP.addr = [10, 77, 0, 2] := by
    rintro n r ⟨hget, rfl⟩
    change (Table.empty.put (insertedRow quietStatement { desktop with virtualIP := "10.77.0.2" }
      ⟨[10, 77, 0, 2], 32, rfl⟩)).get r.id = some r at hget
    rw [Table.get_put] at hget
    split at hget
    · cases hget
      exact ⟨rfl, rfl⟩
    · cases hget
  have hiff := @allocation_sound_iff homeLib "10.77.0.0/24" _ _ rfl rfl withSecond
  refine ⟨(hiff _).2.mpr (.inr fun r hr => ?_), (hiff _).1.mpr fun r hr => ?_⟩
  · rw [(hon _ r hr).2]
    decide
  · exact absurd (hon _ r hr).1 (by decide)

/-- The first address that the search returns is returned again when it has been given to a
    device, and the device is read back with another. -/
theorem address_allocated_again :
    nextFreeVirtualIP homeLib quietStatement (.ofBytes [7]) "10.77.0.0/24" .empty =
      .ok desktop.virtualIP ∧
    ¬ AvoidsAssigned homeLib withDesktop (.ofBytes [7]) "10.77.0.0/24" ∧
    ¬ ReadsBack withDesktop (.ofBytes [7]) := by
  refine ⟨by decide +kernel, ?_, ?_⟩
  · intro h
    have hfree : nextFreeVirtualIP homeLib quietStatement (.ofBytes [7]) "10.77.0.0/24"
        withDesktop = .ok desktop.virtualIP := by decide +kernel
    exact h _ _ hfree (insertedRow quietStatement desktop ⟨[10, 77, 0, 1], 32, rfl⟩)
      ⟨by rfl, rfl⟩ (by unfold Denotes; decide +kernel)
  · intro h
    have hplain := h (insertedRow quietStatement desktop ⟨[10, 77, 0, 1], 32, rfl⟩) ⟨by rfl, rfl⟩
      quietStatement _ rfl
    revert hplain
    decide +kernel

end NexusVPN.Backend.Postgres
