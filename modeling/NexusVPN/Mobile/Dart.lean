import Mathlib.Algebra.GroupWithZero.Nat
import NexusVPN.Basic
import NexusVPN.Lib.DottedDecimal

/-! # Strings and numbers in Dart

    What the app takes from Dart's core library, over lists of characters. -/

namespace NexusVPN.Dart

open List Char

/-! ## Numbers -/

/-- What `trim` and `int.tryParse` skip. -/
def isWhitespace (c : Char) : Bool := isSpace c || c.toNat == 0xFEFF

/-- `String.trim`. -/
def trim (s : List Char) : List Char :=
  ((s.dropWhile isWhitespace).reverse.dropWhile isWhitespace).reverse

/-- `String.length`, in UTF-16 code units. -/
def length (s : List Char) : Nat := (s.map fun c => if c.toNat < 0x10000 then 1 else 2).sum

def parseHex (s : List Char) : Option Nat :=
  if s = [] then none
  else s.foldlM (fun acc c => (UUID.digitValue c).map fun d => 16 * acc + d) 0

/-- A number without a sign: decimal, or hexadecimal after `0x`. -/
def parseUnsigned : List Char → Option Nat
  | '0' :: 'x' :: digits => parseHex digits
  | '0' :: 'X' :: digits => parseHex digits
  | digits => parseDecimal digits

/-- `int.tryParse`. -/
def tryParse (s : List Char) : Option Int :=
  match trim s with
  | '-' :: digits => (parseUnsigned digits).map fun n => -Int.ofNat n
  | '+' :: digits => (parseUnsigned digits).map Int.ofNat
  | digits => (parseUnsigned digits).map Int.ofNat

example : tryParse "+10".toList = some 10 := by decide

/-! ## Lower case -/

/-- `String.toLowerCase`: beyond ASCII one character may become several. -/
def toLowerCase (beyond : Char → List Char) (s : List Char) : List Char :=
  s.flatMap fun c => if c.toNat < 128 then [c.toLower] else beyond c

/-- Characters that lower case may give for one that is not ASCII: the dotted capital I and
    the Kelvin sign give i and k. -/
def Foreign (c : Char) : Prop := 128 ≤ c.toNat ∨ c = 'i' ∨ c = 'k'

instance (c : Char) : Decidable (Foreign c) := inferInstanceAs (Decidable (_ ∨ _))

/-- Unicode's lower case beyond ASCII. -/
structure LowerCase where
  beyond : Char → List Char
  ne_nil : ∀ c, beyond c ≠ []
  foreign : ∀ c, 128 ≤ c.toNat → ∀ d ∈ beyond c, Foreign d

namespace LowerCase

/-- Nothing has a case beyond ASCII. -/
def plain : LowerCase where
  beyond c := [c]
  ne_nil _ := cons_ne_nil _ _
  foreign c hc d hd := by
    rw [mem_singleton.mp hd]
    exact .inl hc

def toLowerCase (L : LowerCase) (s : List Char) : List Char := Dart.toLowerCase L.beyond s

/-- The same from right to left. -/
def reverse (L : LowerCase) : LowerCase where
  beyond c := (L.beyond c).reverse
  ne_nil c h := L.ne_nil c (reverse_eq_nil_iff.mp h)
  foreign c hc d hd := L.foreign c hc d (mem_reverse.mp hd)

variable {L : LowerCase} {s t : List Char} {c : Char}

theorem toLowerCase_nil : L.toLowerCase [] = [] := rfl

theorem toLowerCase_ascii (hc : c.toNat < 128) :
    L.toLowerCase (c :: s) = c.toLower :: L.toLowerCase s := by
  simp [toLowerCase, Dart.toLowerCase, hc]

theorem toLowerCase_beyond (hc : 128 ≤ c.toNat) :
    L.toLowerCase (c :: s) = L.beyond c ++ L.toLowerCase s := by
  have hc' : ¬c.toNat < 128 := by omega
  simp [toLowerCase, Dart.toLowerCase, hc']

theorem toLowerCase_reverse : (L.toLowerCase s).reverse = L.reverse.toLowerCase s.reverse := by
  unfold toLowerCase Dart.toLowerCase
  rw [reverse_flatMap]
  congr 1
  funext c
  simp only [Function.comp_apply]
  split <;> rfl

theorem toLower_of_beyond (hc : 128 ≤ c.toNat) : c.toLower = c := by
  delta toLower
  split
  case isTrue hupper =>
    have hle := UInt32.le_iff_toNat_le.mp hupper.2
    have hval : c.toNat = c.val.toNat := rfl
    simp at hle
    omega
  case isFalse => rfl

theorem startsWith_iff (ht : ∀ c ∈ t, ¬Foreign c) :
    t <+: L.toLowerCase s ↔ t <+: s.map toLower := by
  induction t generalizing s with
  | nil => simp
  | cons d t ih =>
    cases s with
    | nil => rfl
    | cons c s =>
      have hd := ht d mem_cons_self
      have htail := ih (s := s) fun x hx => ht x (mem_cons_of_mem _ hx)
      by_cases hc : c.toNat < 128
      · rw [toLowerCase_ascii hc, map_cons, cons_prefix_cons, cons_prefix_cons, htail]
      · -- Neither string begins with `d`.
        have hbeyond : 128 ≤ c.toNat := by omega
        constructor
        · intro hstart
          rw [toLowerCase_beyond hbeyond] at hstart
          cases hblock : L.beyond c with
          | nil => exact (L.ne_nil c hblock).elim
          | cons e block =>
            rw [hblock, cons_append, cons_prefix_cons] at hstart
            have hforeign := L.foreign c hbeyond e (hblock ▸ mem_cons_self)
            exact (hd (hstart.1 ▸ hforeign)).elim
        · intro hstart
          rw [map_cons, cons_prefix_cons, toLower_of_beyond hbeyond] at hstart
          exact (hd (.inl (hstart.1 ▸ hbeyond))).elim

theorem endsWith_iff (ht : ∀ c ∈ t, ¬Foreign c) : t <:+ L.toLowerCase s ↔ t <:+ s.map toLower := by
  have hreverse : ∀ c ∈ t.reverse, ¬Foreign c := fun c hc => ht c (mem_reverse.mp hc)
  calc t <:+ L.toLowerCase s ↔ t.reverse <+: (L.toLowerCase s).reverse := reverse_prefix.symm
    _ ↔ t.reverse <+: s.reverse.map toLower := by
      rw [toLowerCase_reverse, startsWith_iff hreverse]
    _ ↔ t <:+ s.map toLower := by rw [map_reverse, reverse_prefix]

theorem eq_map_of_ascii (hs : ∀ c ∈ s, c.toNat < 128) : L.toLowerCase s = s.map toLower := by
  induction s with
  | nil => rfl
  | cons c s ih =>
    rw [toLowerCase_ascii (hs c mem_cons_self), map_cons,
      ih fun d hd => hs d (mem_cons_of_mem _ hd)]

theorem mem_toLowerCase {d : Char} (hd : ¬Foreign d) : d ∈ L.toLowerCase s ↔ d ∈ s.map toLower := by
  simp only [toLowerCase, Dart.toLowerCase, mem_flatMap, mem_map]
  constructor
  · rintro ⟨c, hc, hmem⟩
    split at hmem
    · exact ⟨c, hc, (mem_singleton.mp hmem).symm⟩
    · exact (hd (L.foreign c (by omega) d hmem)).elim
  · rintro ⟨c, hc, rfl⟩
    refine ⟨c, hc, ?_⟩
    split
    · exact mem_singleton_self _
    case isFalse hbeyond =>
      have hlower := toLower_of_beyond (c := c) (by omega)
      exact (hd (.inl (by rw [hlower]; omega))).elim

/-- Only ASCII characters come to be a text without i and k. -/
theorem eq_iff (ht : ∀ c ∈ t, ¬Foreign c) : L.toLowerCase s = t ↔ s.map toLower = t := by
  have hascii : L.toLowerCase s = t ∨ s.map toLower = t → ∀ c ∈ s, c.toNat < 128 := by
    intro heq c hc
    by_contra hbeyond
    rcases heq with heq | heq
    · obtain ⟨e, he⟩ := exists_mem_of_ne_nil _ (L.ne_nil c)
      have hmem : e ∈ L.toLowerCase s := mem_flatMap.mpr ⟨c, hc, by rw [if_neg hbeyond]; exact he⟩
      exact ht e (heq ▸ hmem) (L.foreign c (by omega) e he)
    · have hmem : c.toLower ∈ t := heq ▸ mem_map_of_mem hc
      rw [toLower_of_beyond (by omega)] at hmem
      exact ht c hmem (.inl (by omega))
  constructor
  · intro heq
    rw [← eq_map_of_ascii (L := L) (hascii (.inl heq)), heq]
  · intro heq
    rw [eq_map_of_ascii (hascii (.inr heq)), heq]

theorem takeWhile_toLowerCase {d : Char} (hd : ¬Foreign d) (hcase : ∀ c, c.toLower = d ↔ c = d) :
    (L.toLowerCase s).takeWhile (· != d) = L.toLowerCase (s.takeWhile (· != d)) := by
  induction s with
  | nil => rfl
  | cons c s ih =>
    by_cases hc : c.toNat < 128
    · rw [toLowerCase_ascii hc]
      by_cases heq : c = d
      · have hlower : c.toLower = d := (hcase c).mpr heq
        rw [hlower]
        simp [heq, toLowerCase_nil]
      · have hlower : c.toLower ≠ d := fun h => heq ((hcase c).mp h)
        simp [heq, hlower, ih, toLowerCase_ascii hc]
    · have hbeyond : 128 ≤ c.toNat := by omega
      have heq : c ≠ d := by
        rintro rfl
        exact hd (.inl hbeyond)
      -- Nothing becomes the delimiter, and no block contains it.
      have hblock : ∀ e ∈ L.beyond c, (e != d) = true := by
        intro e he
        rw [bne_iff_ne]
        rintro rfl
        exact hd (L.foreign c hbeyond e he)
      rw [toLowerCase_beyond hbeyond, takeWhile_append_of_pos hblock, ih]
      simp [heq, toLowerCase_beyond hbeyond]

end LowerCase

end NexusVPN.Dart
