import NexusVPN.Lib.IPv6
import NexusVPN.Mobile.Dart

/-! # Server addresses on the phone

    `validateServerUrl` lets an address without TLS pass if its host cannot be routed off the
    local network.  `isPrivateHost` decides that from the host's text. -/

namespace NexusVPN.Mobile

open List IPv6 Char Nat Dart LowerCase

open Dart (LowerCase)

/-! ## The source -/

/-- One part of a dotted quad. -/
def octet (part : List Char) : Option Int :=
  if part = [] ∨ 3 < Dart.length part then none
  else if 1 < Dart.length part ∧ ['0'] <+: part then none
  else match tryParse part with
    | none => none
    | some n => if n < 0 ∨ 255 < n then none else some n

/-- `_parseIPv4`. -/
def parseIPv4 (s : List Char) : Option (Int × Int × Int × Int) :=
  match s.splitOn '.' with
  | [p, q, r, t] => do
    let a ← octet p
    let b ← octet q
    let c ← octet r
    let d ← octet t
    pure (a, b, c, d)
  | _ => none

/-- The ranges of `isPrivateHost`, by the first two octets. -/
def privateOctets (a b : Int) : Bool :=
  a == 10
    || a == 127
    || (a == 172 && 16 ≤ b && b ≤ 31)
    || (a == 192 && b == 168)
    || (a == 169 && b == 254)
    || (a == 100 && 64 ≤ b && b ≤ 127)

/-- What `isPrivateHost` takes for the beginning of a link-local or unique local address. -/
def privatePrefixes : List (List Char) :=
  ["fe8".toList, "fe9".toList, "fea".toList, "feb".toList, "fc".toList, "fd".toList]

/-- The part of a host before its zone. -/
def beforeZone (host : List Char) : List Char := host.takeWhile (· != '%')

/-- What `isPrivateHost` says of a host that is no local name and has lost its zone. -/
def isPrivateAddress (bare : List Char) : Bool :=
  match parseIPv4 bare with
  | some (a, b, _, _) => privateOctets a b
  | none =>
    if ':' ∈ bare then
      bare == "::1".toList || privatePrefixes.any fun p => decide (p <+: bare)
    else false

def isPrivateHost (L : LowerCase) (host : List Char) : Bool :=
  let h := L.toLowerCase host
  if h = "localhost".toList ∨ ".local".toList <:+ h ∨ ".localhost".toList <:+ h then true
  else isPrivateAddress (beforeZone h)

/-- What the app reads of a `Uri`. -/
structure Uri where
  scheme : List Char
  host : List Char
deriving DecidableEq

/-- What `validateServerUrl` throws. -/
inductive UrlError where
  | formatException (message : String)
  | insecureServerUrl (message : String)
deriving DecidableEq

/-- The trailing slashes off. -/
def dropSlashes (s : List Char) : List Char := (s.reverse.dropWhile (· == '/')).reverse

/-- `validateServerUrl`; `parse` is `Uri.tryParse`. -/
def validateServerUrl (L : LowerCase) (parse : List Char → Option Uri) (input : List Char) :
    Except UrlError (List Char) :=
  let trimmed := trim input
  if trimmed = [] then .error (.formatException "Enter your server address.")
  else
    let unusable := UrlError.formatException
      ("That does not look like an address. It should start with http:// or " ++
        "https:// — for example http://192.168.1.20:8080")
    match parse trimmed with
    | none => .error unusable
    | some uri =>
      if uri.scheme = [] ∨ uri.host = [] then .error unusable
      else
        let scheme := L.toLowerCase uri.scheme
        if scheme ≠ "http".toList ∧ scheme ≠ "https".toList then
          .error (.formatException (String.ofList scheme ++ " addresses are not supported."))
        else if scheme = "http".toList ∧ isPrivateHost L uri.host = false then
          .error (.insecureServerUrl (String.ofList uri.host ++
            " is not on your local network, so http would send your " ++
            "password across the internet unencrypted. Use https:// instead."))
        else .ok (dropSlashes trimmed)

/-! ## What a host denotes -/

/-- The address, in a block of addresses of `width` bits that share the first `bits` of
    `base`. -/
def InBlock (width bits base address : Nat) : Prop :=
  address / 2 ^ (width - bits) = base / 2 ^ (width - bits)

/-- The number of a dotted quad. -/
def ipv4 (a b c d : UInt8) : Nat := ((a.toNat * 256 + b.toNat) * 256 + c.toNat) * 256 + d.toNat

/-- 10/8, 127/8, 172.16/12, 192.168/16, 169.254/16 and 100.64/10. -/
def LocalIPv4 (address : Nat) : Prop :=
  InBlock 32 8 (ipv4 10 0 0 0) address ∨ InBlock 32 8 (ipv4 127 0 0 0) address ∨
  InBlock 32 12 (ipv4 172 16 0 0) address ∨ InBlock 32 16 (ipv4 192 168 0 0) address ∨
  InBlock 32 16 (ipv4 169 254 0 0) address ∨ InBlock 32 10 (ipv4 100 64 0 0) address

/-- `::1`, or an address of fe80::/10 or fc00::/7, which the first of its groups tells. -/
def LocalIPv6 (groups : List Nat) : Prop :=
  groups = [0, 0, 0, 0, 0, 0, 0, 1] ∨
  ∃ g ∈ groups.head?, InBlock 16 10 0xfe80 g ∨ InBlock 16 7 0xfc00 g

/-- Names that are local by convention. -/
def LocalName (h : List Char) : Prop :=
  h = "localhost".toList ∨ ".local".toList <:+ h ∨ ".localhost".toList <:+ h

instance (h : List Char) : Decidable (LocalName h) := inferInstanceAs (Decidable (_ ∨ _))

/-- Canonical dotted quads. -/
def LocalQuad (h : List Char) : Prop :=
  ∃ a b c d : UInt8, h = (dottedDecimal [a, b, c, d]).toList ∧ LocalIPv4 (ipv4 a b c d)

/-- IPv6 literals, which a zone may follow. -/
def LocalLiteral (h : List Char) : Prop :=
  ∃ groups, parse (beforeZone h) = some groups ∧ LocalIPv6 groups

/-- The host is on the local network.  Case does not matter. -/
def Local (host : List Char) : Prop :=
  LocalName (host.map toLower) ∨ LocalQuad (host.map toLower) ∨ LocalLiteral (host.map toLower)

/-! ## How a host is spelt -/

/-- The part is read as the octet `n`, whatever it looks like. -/
structure ReadAs (part : List Char) (n : Int) : Prop where
  ne_nil : part ≠ []
  short : Dart.length part ≤ 3
  no_zero : ¬(1 < Dart.length part ∧ ['0'] <+: part)
  parsed : tryParse part = some n
  bounds : 0 ≤ n ∧ n ≤ 255

/-- Dots part the text in four, and they are read as these octets. -/
def ReadAsQuad (s : List Char) (a b c d : Int) : Prop :=
  ∃ p q r t, s.splitOn '.' = [p, q, r, t] ∧ ReadAs p a ∧ ReadAs q b ∧ ReadAs r c ∧ ReadAs t d

/-- The host is spelt as `isPrivateHost` expects.  A private quad is made of digits and dots
    alone, without signs, white space or a zone.  What begins like a link-local or unique
    local address is an IPv6 literal, and its first group is written with all four digits. -/
structure Plain (L : LowerCase) (host : List Char) : Prop where
  quad : ∀ a b c d, ReadAsQuad (beforeZone (L.toLowerCase host)) a b c d →
    privateOctets a b = true → ∀ x ∈ host, x.isDigit = true ∨ x = '.'
  literal : ':' ∈ beforeZone (host.map toLower) →
    (∃ p ∈ privatePrefixes, p <+: beforeZone (host.map toLower)) →
    (parse (beforeZone (host.map toLower))).isSome = true ∧
      (firstGroup (beforeZone (host.map toLower))).length = 4

/-! ## Quads -/

variable {a b d n : Int}

theorem octet_eq_some_iff {part : List Char} : octet part = some n ↔ ReadAs part n := by
  unfold octet
  constructor
  · intro h
    obtain ⟨hshort, h⟩ := Option.ite_none_left_eq_some.mp h
    obtain ⟨hzero, h⟩ := Option.ite_none_left_eq_some.mp h
    split at h
    · cases h
    · next m hparse =>
      obtain ⟨hbounds, ⟨⟩⟩ := Option.ite_none_left_eq_some.mp h
      rw [not_or] at hshort
      exact ⟨hshort.1, by omega, hzero, hparse, by omega⟩
  · rintro ⟨hne, hshort, hzero, hparse, hbounds⟩
    rw [if_neg (not_or.mpr ⟨hne, by omega⟩), if_neg hzero, hparse]
    exact if_neg (by omega)

variable {c : Char} {s : List Char}

theorem parseIPv4_eq_some_iff {c : Int} :
    parseIPv4 s = some (a, b, c, d) ↔ ReadAsQuad s a b c d := by
  unfold parseIPv4 ReadAsQuad
  constructor
  · intro h
    split at h
    · next p q r t hsplit =>
      simp only [Option.bind_eq_bind, Option.bind_eq_some_iff, octet_eq_some_iff] at h
      obtain ⟨_, ha, _, hb, _, hc, _, hd, ⟨⟩⟩ := h
      exact ⟨p, q, r, t, hsplit, ha, hb, hc, hd⟩
    · cases h
  · rintro ⟨p, q, r, t, hsplit, ha, hb, hc, hd⟩
    simp only [← octet_eq_some_iff] at ha hb hc hd
    simp [hsplit, ha, hb, hc, hd]

/-! ### What is not in a number -/

theorem mem_trim (hc : c ∈ s) (hspace : Dart.isWhitespace c = false) : c ∈ Dart.trim s := by
  have hdrop : ∀ {l : List Char}, c ∈ l → c ∈ l.dropWhile Dart.isWhitespace := by
    intro l hl
    rw [← takeWhile_append_dropWhile (p := Dart.isWhitespace) (l := l), mem_append] at hl
    rcases hl with hl | hl
    · have htrue := mem_takeWhile_imp hl
      rw [hspace] at htrue
      cases htrue
    · exact hl
  unfold trim
  rw [mem_reverse]
  apply hdrop
  rw [mem_reverse]
  exact hdrop hc

/-- A character that no number is written with. -/
def NoNumeral (c : Char) : Prop :=
  UUID.digitValue c = none ∧ c.isDigit = false ∧ Dart.isWhitespace c = false ∧ c ∉ "xX+-".toList

instance (c : Char) : Decidable (NoNumeral c) := inferInstanceAs (Decidable (_ ∧ _))

theorem not_mem_of_parseHex {n : Nat} (hc : NoNumeral c) (h : parseHex s = some n) :
    c ∉ s := by
  unfold parseHex at h
  split at h
  case isTrue => cases h
  case isFalse =>
    generalize 0 = acc at h
    clear * - hc h
    induction s generalizing acc with
    | nil => simp
    | cons x xs ih =>
      rw [foldlM_cons] at h
      obtain ⟨acc', hacc, hrest⟩ := Option.bind_eq_some_iff.mp h
      obtain ⟨d, hd, -⟩ := Option.map_eq_some_iff.mp hacc
      rw [mem_cons, not_or]
      refine ⟨?_, ih acc' hrest⟩
      rintro rfl
      rw [hc.1] at hd
      cases hd

theorem NoNumeral.signs (hc : NoNumeral c) : c ≠ 'x' ∧ c ≠ 'X' ∧ c ≠ '+' ∧ c ≠ '-' := by
  simpa using hc.2.2.2

theorem not_mem_of_parseUnsigned {n : Nat} (hc : NoNumeral c)
    (h : parseUnsigned s = some n) : c ∉ s := by
  have hzero : c ≠ '0' := by
    rintro rfl
    exact absurd hc.2.1 (by decide)
  obtain ⟨hx, hX, -, -⟩ := hc.signs
  unfold parseUnsigned at h
  split at h
  · have hrest := not_mem_of_parseHex hc h
    simp [hzero, hx, hrest]
  · have hrest := not_mem_of_parseHex hc h
    simp [hzero, hX, hrest]
  · unfold parseDecimal at h
    split at h
    case isTrue hdig =>
      intro hmem
      have hdigit := all_eq_true.mp hdig.2 c hmem
      rw [hc.2.1] at hdigit
      cases hdigit
    case isFalse => cases h

theorem ReadAs.not_mem (h : ReadAs s n) (hc : NoNumeral c) : c ∉ s := by
  intro hmem
  have htrim := mem_trim hmem hc.2.2.1
  obtain ⟨-, -, hplus, hminus⟩ := hc.signs
  have hparse := h.parsed
  unfold tryParse at hparse
  split at hparse
  all_goals
    obtain ⟨m, hm, -⟩ := Option.map_eq_some_iff.mp hparse
    have hrest := not_mem_of_parseUnsigned hc hm
    simp_all

theorem ReadAsQuad.not_mem {e : Int} (h : ReadAsQuad s a b d e) (hc : NoNumeral c)
    (hdot : c ≠ '.') : c ∉ s := by
  obtain ⟨p, q, r, t, hsplit, hp, hq, hr, ht⟩ := h
  intro hmem
  have hjoin : ['.'].intercalate (s.splitOn '.') = s := intercalate_splitOn _
  rw [← hjoin, hsplit] at hmem
  rcases mem_intercalate hmem with heq | ⟨part, hpart, hc'⟩
  · exact hdot heq
  · simp only [mem_cons, not_mem_nil, or_false] at hpart
    obtain rfl | rfl | rfl | rfl := hpart
    · exact hp.not_mem hc hc'
    · exact hq.not_mem hc hc'
    · exact hr.not_mem hc hc'
    · exact ht.not_mem hc hc'

/-! ### Quads of digits alone -/

section

variable {part : List Char}

theorem digit_facts {x : Char} (h : x.isDigit = true) :
    x.toNat < 0x10000 ∧ Dart.isWhitespace x = false ∧ x ∉ "+-xX".toList := by
  have hall : ∀ y ∈ decimalDigits,
      y.toNat < 0x10000 ∧ Dart.isWhitespace y = false ∧ y ∉ "+-xX".toList := by decide +kernel
  exact hall x (mem_decimalDigits h)

section

variable (h : ∀ x ∈ part, x.isDigit = true)
include h

theorem length_of_digits : Dart.length part = part.length := by
  induction part with
  | nil => rfl
  | cons x part ih =>
    have hx := (digit_facts (h x mem_cons_self)).1
    have htail := ih fun y hy => h y (mem_cons_of_mem _ hy)
    unfold Dart.length at htail ⊢
    rw [map_cons, sum_cons, htail, if_pos hx, length_cons]
    omega

theorem trim_of_digits : trim part = part := by
  have hdrop : ∀ {l : List Char}, (∀ x ∈ l, x.isDigit = true) →
      l.dropWhile Dart.isWhitespace = l := by
    intro l hl
    cases l with
    | nil => rfl
    | cons x l =>
      have hx := (digit_facts (hl x mem_cons_self)).2.1
      exact dropWhile_cons_of_neg (by rw [hx]; decide)
  unfold trim
  rw [hdrop h, hdrop fun x hx => h x (mem_reverse.mp hx), reverse_reverse]

theorem tryParse_of_digits (hne : part ≠ []) :
    tryParse part = some (Int.ofNat (ofDigitChars 10 part 0)) := by
  have hfacts : ∀ x ∈ part, x ≠ '+' ∧ x ≠ '-' ∧ x ≠ 'x' ∧ x ≠ 'X' := by
    intro x hx
    simpa using (digit_facts (h x hx)).2.2
  have hunsigned : parseUnsigned part = some (ofDigitChars 10 part 0) := by
    unfold parseUnsigned
    split
    · exact ((hfacts 'x' (by simp)).2.2.1 rfl).elim
    · exact ((hfacts 'X' (by simp)).2.2.2 rfl).elim
    · rw [parseDecimal, if_pos ⟨hne, all_eq_true.mpr h⟩]
  unfold tryParse
  rw [trim_of_digits h]
  split
  · exact ((hfacts '-' (by simp)).2.1 rfl).elim
  · exact ((hfacts '+' (by simp)).1 rfl).elim
  · rw [hunsigned, Option.map_some]

end

theorem ReadAs.eq_toDigits (h : ReadAs part n) (hdig : ∀ x ∈ part, x.isDigit = true) :
    ∃ b : UInt8, n = b.toNat ∧ part = toDigits 10 b.toNat := by
  have hparse := h.parsed
  rw [tryParse_of_digits hdig h.ne_nil] at hparse
  cases hparse
  -- Without a leading zero there is one way to spell a number.
  have hspelt : toDigits 10 (ofDigitChars 10 part 0) = part := by
    have hzero := h.no_zero
    rw [length_of_digits hdig] at hzero
    match part, h.ne_nil with
    | x :: xs, _ =>
      apply toDigits_ofDigitChars hdig
      by_contra hnot
      rw [not_or, not_ne_iff] at hnot
      obtain ⟨rfl, hxs⟩ := hnot
      have hlong : 0 < xs.length := length_pos_iff.mpr hxs
      exact hzero ⟨by rw [length_cons]; omega, by simp⟩
  have hlt : ofDigitChars 10 part 0 < 256 := by
    have hle := h.bounds.2
    rw [Int.ofNat_eq_natCast] at hle
    omega
  have hbyte : (UInt8.ofNat (ofDigitChars 10 part 0)).toNat = ofDigitChars 10 part 0 := by
    rw [UInt8.toNat_ofNat']
    omega
  refine ⟨UInt8.ofNat (ofDigitChars 10 part 0), ?_, ?_⟩
  · rw [hbyte]
    rfl
  · rw [hbyte, hspelt]

end

theorem ReadAsQuad.eq_dottedDecimal {c : Int} (h : ReadAsQuad s a b c d)
    (hdig : ∀ x ∈ s, x.isDigit = true ∨ x = '.') :
    ∃ a' b' c' d' : UInt8, a = a'.toNat ∧ b = b'.toNat ∧
      s = (dottedDecimal [a', b', c', d']).toList := by
  obtain ⟨p, q, r, t, hsplit, hp, hq, hr, ht⟩ := h
  have hjoin : ['.'].intercalate (s.splitOn '.') = s := intercalate_splitOn _
  rw [hsplit] at hjoin
  -- The dots stand between the parts, so that the parts are digits alone.
  have hpart : ∀ {part n}, part ∈ [p, q, r, t] → ReadAs part n → ∀ x ∈ part, x.isDigit = true := by
    intro part n hpart hread x hx
    have hmem : x ∈ ['.'].intercalate [p, q, r, t] := by
      simp only [mem_cons, not_mem_nil, or_false] at hpart
      obtain rfl | rfl | rfl | rfl := hpart
      all_goals simp [hx]
    rcases hdig x (hjoin ▸ hmem) with hdigit | rfl
    · exact hdigit
    · exact (hread.not_mem (by decide) hx).elim
  obtain ⟨a', ha, rfl⟩ := hp.eq_toDigits (hpart (by simp) hp)
  obtain ⟨b', hb, rfl⟩ := hq.eq_toDigits (hpart (by simp) hq)
  obtain ⟨c', -, rfl⟩ := hr.eq_toDigits (hpart (by simp) hr)
  obtain ⟨d', -, rfl⟩ := ht.eq_toDigits (hpart (by simp) ht)
  refine ⟨a', b', c', d', ha, hb, ?_⟩
  rw [← hjoin, dottedDecimal, String.toList_ofList]
  rfl

theorem localIPv4_iff {a b c d : UInt8} :
    LocalIPv4 (ipv4 a b c d) ↔ privateOctets a.toNat b.toNat = true := by
  have hb := b.toNat_lt
  have hc := c.toNat_lt
  have hd := d.toNat_lt
  -- What is left of the address in each of the blocks.
  have h8 : ipv4 a b c d / 16777216 = a.toNat := by unfold ipv4; omega
  have h10 : ipv4 a b c d / 4194304 = 4 * a.toNat + b.toNat / 64 := by unfold ipv4; omega
  have h12 : ipv4 a b c d / 1048576 = 16 * a.toNat + b.toNat / 16 := by unfold ipv4; omega
  have h16 : ipv4 a b c d / 65536 = 256 * a.toNat + b.toNat := by unfold ipv4; omega
  simp only [LocalIPv4, InBlock, reduceSub, reducePow, h8, h10, h12, h16, privateOctets,
    Bool.or_eq_true, Bool.and_eq_true, beq_iff_eq, decide_eq_true_eq]
  simp only [ipv4, UInt8.reduceToNat, or_assoc, and_assoc]
  constructor
  · rintro (h | h | h | h | h | h) <;> omega
  · rintro (h | h | h | h | h | h) <;> omega

/-! ## Literals -/

theorem localIPv6_cons {g : Nat} {tail : List Nat} :
    LocalIPv6 (g :: tail) ↔ (g = 0 ∧ tail = [0, 0, 0, 0, 0, 0, 1]) ∨
      (0xfe80 ≤ g ∧ g ≤ 0xfebf) ∨ (0xfc00 ≤ g ∧ g ≤ 0xfdff) := by
  have hlink : InBlock 16 10 0xfe80 g ↔ 0xfe80 ≤ g ∧ g ≤ 0xfebf := by
    simp only [InBlock, reduceSub, reducePow, reduceDiv]
    omega
  have hunique : InBlock 16 7 0xfc00 g ↔ 0xfc00 ≤ g ∧ g ≤ 0xfdff := by
    simp only [InBlock, reduceSub, reducePow, reduceDiv]
    omega
  simp only [LocalIPv6, List.cons.injEq, head?_cons, Option.mem_def, Option.some.injEq,
    exists_eq_left', hlink, hunique]

theorem value_of_private : ∀ p ∈ privatePrefixes, ∀ v ∈ readHex 0 p,
    (p.length = 3 ∧ 0xfe8 ≤ v ∧ v ≤ 0xfeb) ∨ (p.length = 2 ∧ 0xfc ≤ v ∧ v ≤ 0xfd) := by
  decide

theorem localIPv6_iff {p : List Char} {groups : List Nat} (h : parse s = some groups)
    (hmem : p ∈ privatePrefixes) (hp : p <+: s) :
    LocalIPv6 groups ↔ (firstGroup s).length = 4 := by
  obtain ⟨rest, rfl⟩ := hp
  have hcolon : ∀ q ∈ privatePrefixes, ∀ c ∈ q, (c != ':') = true := by decide
  have hfirst : firstGroup (p ++ rest) = p ++ firstGroup rest :=
    takeWhile_append_of_pos (hcolon p hmem)
  have hne : ∀ q ∈ privatePrefixes, q ≠ [] := by decide
  obtain ⟨g, tail, rfl, hg⟩ := parse_head h (by rw [hfirst]; simp [hne p hmem])
  rw [hfirst] at hg ⊢
  unfold hexGroup at hg
  split at hg
  case isFalse => cases hg
  case isTrue hlen =>
    rw [readHex_append] at hg
    obtain ⟨v, hv, hrest⟩ := Option.bind_eq_some_iff.mp hg
    have hbounds := readHex_bounds hrest
    rw [length_append] at hlen ⊢
    generalize (firstGroup rest).length = n at hlen hbounds ⊢
    rw [localIPv6_cons]
    -- What follows the prefix in the group decides how far the value is shifted.
    rcases value_of_private p hmem v hv with ⟨hthree, hlow, hhigh⟩ | ⟨htwo, hlow, hhigh⟩
    · rw [hthree] at hlen ⊢
      obtain rfl | rfl : n = 0 ∨ n = 1 := by omega
      all_goals omega
    · rw [htwo] at hlen ⊢
      obtain rfl | rfl | rfl : n = 0 ∨ n = 1 ∨ n = 2 := by omega
      all_goals omega

/-! ## What `isPrivateHost` goes by -/

theorem isPrivateAddress_iff :
    isPrivateAddress s = true ↔
      (∃ a b c d, ReadAsQuad s a b c d ∧ privateOctets a b = true) ∨
      (':' ∈ s ∧ (s = "::1".toList ∨ ∃ p ∈ privatePrefixes, p <+: s)) := by
  unfold isPrivateAddress
  cases hparse : parseIPv4 s with
  | some octets =>
    obtain ⟨a, b, c, d⟩ := octets
    have hread := parseIPv4_eq_some_iff.mp hparse
    have hno := hread.not_mem (c := ':') (by decide) (by decide)
    simp only [hno, false_and, or_false]
    constructor
    · intro hpriv
      exact ⟨a, b, c, d, hread, hpriv⟩
    · rintro ⟨a', b', c', d', hread', hpriv⟩
      rw [← parseIPv4_eq_some_iff, hparse] at hread'
      cases hread'
      exact hpriv
  | none =>
    have hno : ¬∃ a b c d, ReadAsQuad s a b c d ∧ privateOctets a b = true := by
      rintro ⟨a, b, c, d, hread, -⟩
      rw [← parseIPv4_eq_some_iff, hparse] at hread
      cases hread
    simp only [hno, false_or, Bool.if_false_right, Bool.and_eq_true, decide_eq_true_eq,
      Bool.or_eq_true, beq_iff_eq, any_eq_true]

section

variable {L : LowerCase} {host : List Char}

theorem localName_iff : LocalName (L.toLowerCase host) ↔ LocalName (host.map toLower) := by
  unfold LocalName
  rw [eq_iff (by decide), endsWith_iff (by decide),
    endsWith_iff (by decide)]

theorem toLower_eq_percent (c : Char) : c.toLower = '%' ↔ c = '%' := by
  by_cases hc : c.toNat < 128
  · have hall : ∀ n < 128, (ofNat n).toLower = '%' ↔ ofNat n = '%' := by decide +kernel
    have hiff := hall c.toNat hc
    rw [ofNat_toNat] at hiff
    exact hiff
  · rw [toLower_of_beyond (by omega)]

theorem beforeZone_toLowerCase :
    beforeZone (L.toLowerCase host) = L.toLowerCase (beforeZone host) :=
  takeWhile_toLowerCase (by decide) toLower_eq_percent

theorem beforeZone_map : beforeZone (host.map toLower) = (beforeZone host).map toLower := by
  unfold beforeZone
  rw [takeWhile_map]
  congr 2
  funext c
  rw [Function.comp_apply, Bool.eq_iff_iff, bne_iff_ne, bne_iff_ne, Ne, toLower_eq_percent]

theorem isPrivateHost_iff :
    isPrivateHost L host = true ↔
      LocalName (host.map toLower) ∨
      (∃ a b c d, ReadAsQuad (beforeZone (L.toLowerCase host)) a b c d ∧ privateOctets a b = true) ∨
      (':' ∈ beforeZone (host.map toLower) ∧
        (beforeZone (host.map toLower) = "::1".toList ∨
          ∃ p ∈ privatePrefixes, p <+: beforeZone (host.map toLower))) := by
  -- The lower case that Dart makes has the same literals in it as the ASCII one.
  have hliteral : ∀ s : List Char,
      (':' ∈ L.toLowerCase s ∧
        (L.toLowerCase s = "::1".toList ∨ ∃ p ∈ privatePrefixes, p <+: L.toLowerCase s)) ↔
      (':' ∈ s.map toLower ∧
        (s.map toLower = "::1".toList ∨ ∃ p ∈ privatePrefixes, p <+: s.map toLower)) := by
    intro s
    have hplain : ∀ p ∈ privatePrefixes, ∀ c ∈ p, ¬Dart.Foreign c := by decide
    have hstart : (∃ p ∈ privatePrefixes, p <+: L.toLowerCase s) ↔
        ∃ p ∈ privatePrefixes, p <+: s.map toLower := by
      apply exists_congr
      intro p
      apply and_congr_right
      intro hp
      exact startsWith_iff (hplain p hp)
    rw [mem_toLowerCase (by decide), eq_iff (by decide), hstart]
  have hlower := hliteral (beforeZone host)
  rw [← beforeZone_toLowerCase, ← beforeZone_map] at hlower
  rw [← localName_iff (L := L), ← hlower, ← isPrivateAddress_iff]
  show (if LocalName (L.toLowerCase host) then true else
    isPrivateAddress (beforeZone (L.toLowerCase host))) = true ↔ _
  split
  case isTrue hname => simp only [hname, true_or]
  case isFalse hname => simp only [hname, false_or]

end

/-! ## Private and local -/

section

variable {L : LowerCase} {host : List Char}

theorem digit_of_mem_dottedDecimal {bytes : List UInt8} (h : c ∈ (dottedDecimal bytes).toList) :
    c.isDigit = true ∨ c = '.' := by
  by_contra hnot
  rw [not_or, Bool.not_eq_true] at hnot
  exact not_mem_dottedDecimal hnot.2 hnot.1 bytes h

theorem digit_of_toLower (h : c.toLower.isDigit = true ∨ c.toLower = '.') :
    c.isDigit = true ∨ c = '.' := by
  by_cases hc : c.toNat < 128
  · have hall : ∀ n < 128, (ofNat n).toLower.isDigit = true ∨ (ofNat n).toLower = '.' →
        (ofNat n).isDigit = true ∨ ofNat n = '.' := by decide +kernel
    have himp := hall c.toNat hc
    rw [ofNat_toNat] at himp
    exact himp h
  · rwa [toLower_of_beyond (by omega)] at h

theorem localQuad_of_digits {c : Int} (hread : ReadAsQuad (beforeZone (L.toLowerCase host)) a b c d)
    (hpriv : privateOctets a b = true) (hdig : ∀ x ∈ host, x.isDigit = true ∨ x = '.') :
    LocalQuad (host.map toLower) := by
  have hall : ∀ x ∈ decimalDigits ++ ['.'],
      x.toNat < 128 ∧ x.toLower = x ∧ (x != '%') = true := by decide
  have hfacts : ∀ x ∈ host, x.toNat < 128 ∧ x.toLower = x ∧ (x != '%') = true := by
    intro x hx
    apply hall
    rw [mem_append, mem_singleton]
    exact (hdig x hx).imp_left mem_decimalDigits
  have hmap : host.map toLower = host := by
    calc host.map toLower = host.map id := map_congr_left fun x hx => (hfacts x hx).2.1
      _ = host := map_id host
  have hzone : beforeZone host = host := takeWhile_eq_self_iff.mpr fun x hx => (hfacts x hx).2.2
  rw [beforeZone_toLowerCase, hzone, eq_map_of_ascii fun x hx => (hfacts x hx).1,
    hmap] at hread
  obtain ⟨a', b', c', d', rfl, rfl, heq⟩ := hread.eq_dottedDecimal hdig
  rw [hmap]
  exact ⟨a', b', c', d', heq, localIPv4_iff.mpr hpriv⟩

theorem local_of_private (hplain : LocalName (host.map toLower) ∨ Plain L host)
    (h : isPrivateHost L host = true) : Local host := by
  rcases hplain with hname | hplain
  · exact .inl hname
  rcases isPrivateHost_iff.mp h with hname | ⟨a, b, c, d, hread, hpriv⟩ | ⟨hcolon, hliteral⟩
  · exact .inl hname
  · have hdig := hplain.quad a b c d hread hpriv
    exact .inr (.inl (localQuad_of_digits hread hpriv hdig))
  · refine .inr (.inr ?_)
    rcases hliteral with hloopback | ⟨p, hmem, hp⟩
    · refine ⟨[0, 0, 0, 0, 0, 0, 0, 1], ?_, .inl rfl⟩
      rw [hloopback]
      decide +kernel
    · obtain ⟨hsome, hfour⟩ := hplain.literal hcolon ⟨p, hmem, hp⟩
      obtain ⟨groups, hparse⟩ := Option.isSome_iff_exists.mp hsome
      exact ⟨groups, hparse, (localIPv6_iff hparse hmem hp).mpr hfour⟩

theorem plain_of_local (hname : ¬LocalName (host.map toLower))
    (h : isPrivateHost L host = true → Local host) : Plain L host where
  quad a b c d hread hpriv x hx := by
    have hcolon := hread.not_mem (c := ':') (by decide) (by decide)
    rcases h (isPrivateHost_iff.mpr (.inr (.inl ⟨a, b, c, d, hread, hpriv⟩))) with
      hlocal | ⟨a', b', c', d', heq, -⟩ | ⟨groups, hparse, -⟩
    · exact (hname hlocal).elim
    · have hlower : x.toLower ∈ (dottedDecimal [a', b', c', d']).toList := heq ▸ mem_map_of_mem hx
      exact digit_of_toLower (digit_of_mem_dottedDecimal hlower)
    · -- A literal has a colon, and a quad has none.
      have hmem := colon_of_parse hparse
      rw [beforeZone_map, ← mem_toLowerCase (L := L) (by decide),
        ← beforeZone_toLowerCase] at hmem
      exact (hcolon hmem).elim
  literal hcolon hstart := by
    rcases h (isPrivateHost_iff.mpr (.inr (.inr ⟨hcolon, .inr hstart⟩))) with
      hlocal | ⟨a, b, c, d, heq, -⟩ | ⟨groups, hparse, hlocal⟩
    · exact (hname hlocal).elim
    · rw [heq] at hcolon
      have hmem := (List.takeWhile_prefix _).subset hcolon
      exact (not_mem_dottedDecimal (by decide) (by decide) _ hmem).elim
    · obtain ⟨p, hmem, hp⟩ := hstart
      exact ⟨by rw [hparse]; rfl, (localIPv6_iff hparse hmem hp).mp hlocal⟩

end

theorem private_of_accepted {L : LowerCase} {parse : List Char → Option Uri} {input out : List Char}
    {uri : Uri} (hacc : validateServerUrl L parse input = .ok out)
    (hparse : parse (trim input) = some uri)
    (hhttp : L.toLowerCase uri.scheme = "http".toList) : isPrivateHost L uri.host = true := by
  unfold validateServerUrl at hacc
  simp only [hparse, hhttp] at hacc
  split at hacc
  · cases hacc
  split at hacc
  · cases hacc
  split at hacc
  · cases hacc
  split at hacc
  · cases hacc
  case isFalse hpriv =>
    simpa using hpriv

/-- A host that passes for private is a local one exactly if it is a local name or spelt as
    `isPrivateHost` expects.  So is the host of every address that is accepted without TLS. -/
theorem cleartext_local_iff (L : LowerCase) (parse : List Char → Option Uri) :
    (∀ host, (isPrivateHost L host = true → Local host) ↔
      (LocalName (host.map toLower) ∨ Plain L host)) ∧
    ∀ input out uri, validateServerUrl L parse input = .ok out →
      parse (trim input) = some uri → L.toLowerCase uri.scheme = "http".toList →
      (Local uri.host ↔ (LocalName (uri.host.map toLower) ∨ Plain L uri.host)) := by
  have hhost : ∀ host, (isPrivateHost L host = true → Local host) ↔
      (LocalName (host.map toLower) ∨ Plain L host) := by
    intro host
    constructor
    · intro h
      by_cases hname : LocalName (host.map toLower)
      · exact .inl hname
      · exact .inr (plain_of_local hname h)
    · exact local_of_private
  refine ⟨hhost, ?_⟩
  intro input out uri hacc hparse hhttp
  have hpriv := private_of_accepted hacc hparse hhttp
  rw [← hhost]
  exact ⟨fun hlocal _ => hlocal, fun h => h hpriv⟩

/-! ## Addresses that pass -/

/-- An address of the form `http://host`, and nothing else. -/
def plainUri (s : List Char) : Option Uri :=
  if "http://".toList <+: s then some ⟨"http".toList, s.drop 7⟩ else none

theorem cleartext_local_home : Local "192.168.1.20".toList := by
  have hplain : Plain .plain "192.168.1.20".toList := by
    constructor
    · intro _ _ _ _ _ _
      decide
    · intro hcolon
      exact absurd hcolon (by decide +kernel)
  exact ((cleartext_local_iff .plain plainUri).2 "http://192.168.1.20".toList
    "http://192.168.1.20".toList ⟨"http".toList, "192.168.1.20".toList⟩ (by decide +kernel)
    (by decide +kernel) (by decide +kernel)).mpr (.inr hplain)

theorem not_localQuad {h : List Char} (hparse : parseDottedDecimal h = none) : ¬LocalQuad h := by
  rintro ⟨a, b, c, d, rfl, -⟩
  rw [parse_dottedDecimal (cons_ne_nil _ _)] at hparse
  cases hparse

/-- A sign before the first octet, and a first group of two digits: the one is no address, and
    the other is not in fc00::/7. -/
theorem cleartext_abroad :
    (isPrivateHost .plain "+10.0.0.1".toList = true ∧ ¬Local "+10.0.0.1".toList) ∧
    (isPrivateHost .plain "fc::1".toList = true ∧ ¬Local "fc::1".toList) ∧
    validateServerUrl .plain plainUri "http://+10.0.0.1".toList =
      .ok "http://+10.0.0.1".toList := by
  refine ⟨⟨by decide +kernel, ?_⟩, ⟨by decide +kernel, ?_⟩, by decide +kernel⟩
  · rintro (hname | hquad | ⟨groups, hparse, -⟩)
    · exact absurd hname (by decide)
    · exact not_localQuad (by decide +kernel) hquad
    · have hnone : parse (beforeZone ("+10.0.0.1".toList.map toLower)) = none := by
        decide +kernel
      rw [hnone] at hparse
      cases hparse
  · rintro (hname | hquad | ⟨groups, hparse, hlocal⟩)
    · exact absurd hname (by decide)
    · exact not_localQuad (by decide +kernel) hquad
    · have hsome : parse (beforeZone ("fc::1".toList.map toLower)) =
          some [0xfc, 0, 0, 0, 0, 0, 0, 1] := by
        decide +kernel
      rw [hsome] at hparse
      cases hparse
      rw [localIPv6_cons] at hlocal
      omega

end NexusVPN.Mobile
