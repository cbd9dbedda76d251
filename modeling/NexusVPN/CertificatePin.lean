import NexusVPN.Mobile.Dart

/-! # Certificate pins

    Three clients are told the fingerprint of the server's certificate and check it in their
    own ways: `PinnedClient` for REST and `pinnedTLSConfig` for coordination, both in Go, and
    `PinnedHttpClient` on the phone.  SHA-256 and the platform's verification are parameters;
    so is what lower case means beyond ASCII. -/

namespace NexusVPN.Pin

open List UUID Char
open String (ofList)

/-! ## Characters -/

def isHexDigit (c : Char) : Bool :=
  ('0' ≤ c && c ≤ '9') || ('a' ≤ c && c ≤ 'f') || ('A' ≤ c && c ≤ 'F')

def isLowerHex (c : Char) : Bool := ('0' ≤ c && c ≤ '9') || ('a' ≤ c && c ≤ 'f')

/-- What people put between the digits. -/
def isSeparator (c : Char) : Bool := c == ':' || c == ' ' || c == '-'

/-- `unicode.ToLower`, with what it does beyond ASCII. -/
def toLower (beyond : Char → Char) (c : Char) : Char :=
  if c.toNat < 128 then c.toLower else beyond c

/-! ## The server and the platform -/

/-- What the client sees of a server in the handshake. -/
structure Presented where
  certificate : Bytes
  /-- The rest of the chain. -/
  issuers : List Bytes
  /-- Whether the platform's own verification passes. -/
  verdict : Bool

/-- `VerifyPeerCertificate` of both Go clients: the first certificate is the one that counts. -/
def verifyPeerCertificate (sha256 : Bytes → Bytes) (want : List Char) : List Bytes → Bool
  | [] => false
  | cert :: _ => hex (sha256 cert) == want

/-! ## The REST client -/

/-- One round of the loop of `normalizeFingerprint`. -/
def keptDigit (r : Char) : Option Char :=
  if ('0' ≤ r ∧ r ≤ '9') ∨ ('a' ≤ r ∧ r ≤ 'f') then some r
  else if 'A' ≤ r ∧ r ≤ 'F' then some (ofNat (r.toNat + ('a'.toNat - 'A'.toNat)))
  else none

/-- `normalizeFingerprint`: empty for anything that is not a SHA-256. -/
def normalizeFingerprint (fp : String) : List Char :=
  let out := fp.toList.filterMap keptDigit
  if out.length ≠ 64 then [] else out

/-- `PinnedClient`: whether its handshake with the server completes. -/
def pinnedClient (sha256 : Bytes → Bytes) (fp : String) (p : Presented) : Bool :=
  let want := normalizeFingerprint fp
  if want = [] then p.verdict
  else verifyPeerCertificate sha256 want (p.certificate :: p.issuers)

/-! ## The coordination client -/

namespace coordination

structure DialOptions where
  insecure : Bool
  insecureSkipVerify : Bool
  fingerprint : String

/-- What `pinnedTLSConfig` compares with. -/
def want (beyond : Char → Char) (fp : String) : List Char :=
  (fp.toList.filter fun c => !isSeparator c).map (toLower beyond)

/-- `Dial`: whether the handshake completes.  Without TLS there is none to fail. -/
def dial (beyond : Char → Char) (sha256 : Bytes → Bytes) (opts : DialOptions) (p : Presented) :
    Bool :=
  if opts.insecure then true
  else if opts.fingerprint ≠ "" then
    verifyPeerCertificate sha256 (want beyond opts.fingerprint) (p.certificate :: p.issuers)
  else opts.insecureSkipVerify || p.verdict

end coordination

/-! ## The phone -/

namespace mobile

/-- `PinnedHttpClient.normalizeFingerprint`. -/
def normalizeFingerprint (beyond : Char → List Char) (fp : String) : List Char :=
  let out := (Dart.toLowerCase beyond fp.toList).filter isLowerHex
  if out.length = 64 then out else []

/-- `PinnedHttpClient.create`: whether its handshake with the server completes.  The callback
    is asked only if the platform's verification has failed. -/
def create (beyond : Char → List Char) (sha256 : Bytes → Bytes) (fp : String) (p : Presented) :
    Bool :=
  let want := normalizeFingerprint beyond fp
  if want = [] then p.verdict
  else p.verdict || hex (sha256 p.certificate) == want

end mobile

/-! ## How fingerprints are written -/

/-- Sixty-four digits in any case, and separators. -/
structure Spelling (fp : String) : Prop where
  chars : ∀ c ∈ fp.toList, isHexDigit c = true ∨ isSeparator c = true
  count : (fp.toList.filter isHexDigit).length = 64

/-- The digits alone, in lower case. -/
def bare (fp : String) : List Char := (fp.toList.filter isHexDigit).map Char.toLower

/-- The groups that `FormatFingerprint` writes: four digits each, in upper case, with spaces
    between them. -/
def grouped : List Char → List Char
  | a :: b :: c :: d :: e :: rest =>
    a.toUpper :: b.toUpper :: c.toUpper :: d.toUpper :: ' ' :: grouped (e :: rest)
  | short => short.map toUpper

def formatFingerprint (fp : String) : String := ofList (grouped fp.toList)

example : formatFingerprint "0123456789abcdef01" = "0123 4567 89AB CDEF 01" := by decide

/-! ## One character

Digits and separators are ASCII, so that a fact about one of them is checked on the first
128 characters. -/

theorem ascii_of_isHexDigit {c : Char} (h : isHexDigit c = true) : c.toNat < 128 := by
  simp only [isHexDigit, Bool.or_eq_true, Bool.and_eq_true, decide_eq_true_eq, le_def,
    UInt32.le_iff_toNat_le] at h
  have hc : c.toNat = c.val.toNat := rfl
  simp at h
  omega

theorem ascii_of_isSeparator {c : Char} (h : isSeparator c = true) : c.toNat < 128 := by
  simp only [isSeparator, Bool.or_eq_true, beq_iff_eq] at h
  obtain (rfl | rfl) | rfl := h <;> decide

theorem ascii_facts : ∀ n < 128, let c := ofNat n
    (isHexDigit c = true → keptDigit c = some c.toLower ∧ isSeparator c = false ∧
      isLowerHex c.toLower = true) ∧
    (isSeparator c = true → keptDigit c = none ∧ isHexDigit c = false ∧
      isLowerHex c.toLower = false) ∧
    (isLowerHex c = true → isHexDigit c.toUpper = true ∧ c.toUpper.toLower = c) := by
  decide +kernel

/-! ## What each client compares with -/

section

variable {c : Char} {s : List Char} {fp : String}

theorem facts_of_ascii (h : c.toNat < 128) :
    (isHexDigit c = true → keptDigit c = some c.toLower ∧ isSeparator c = false ∧
      isLowerHex c.toLower = true) ∧
    (isSeparator c = true → keptDigit c = none ∧ isHexDigit c = false ∧
      isLowerHex c.toLower = false) ∧
    (isLowerHex c = true → isHexDigit c.toUpper = true ∧ c.toUpper.toLower = c) := by
  have hfacts := ascii_facts c.toNat h
  rw [ofNat_toNat] at hfacts
  exact hfacts

/-- Over digits and separators the three loops do the same: separators are dropped, and
    digits put in lower case. -/
theorem loops_agree (lower : Char → Char) (lowerCase : Char → List Char)
    (hs : ∀ c ∈ s, isHexDigit c = true ∨ isSeparator c = true) :
    s.filterMap keptDigit = (s.filter isHexDigit).map Char.toLower ∧
    (s.filter fun c => !isSeparator c).map (toLower lower) =
      (s.filter isHexDigit).map Char.toLower ∧
    (Dart.toLowerCase lowerCase s).filter isLowerHex = (s.filter isHexDigit).map Char.toLower := by
  induction s with
  | nil => exact ⟨rfl, rfl, rfl⟩
  | cons c s ih =>
    obtain ⟨hkept, hlower, hmobile⟩ := ih fun d hd => hs d (mem_cons_of_mem _ hd)
    have hhead := hs c mem_cons_self
    -- Either way the character is ASCII, and the parameters are not asked.
    have hascii : c.toNat < 128 := by
      cases hhead with
      | inl h => exact ascii_of_isHexDigit h
      | inr h => exact ascii_of_isSeparator h
    have hcase : Dart.toLowerCase lowerCase (c :: s) =
        c.toLower :: Dart.toLowerCase lowerCase s := by
      simp [Dart.toLowerCase, hascii]
    have hto : toLower lower c = c.toLower := if_pos hascii
    obtain ⟨hdigit, hsep, -⟩ := facts_of_ascii hascii
    cases hhead with
    | inl h =>
      obtain ⟨hk, hns, hl⟩ := hdigit h
      simp [hcase, hk, hns, hl, h, hto, hkept, hlower, hmobile]
    | inr h =>
      obtain ⟨hk, hnh, hl⟩ := hsep h
      simp [hcase, hk, hnh, hl, h, hkept, hlower, hmobile]

section

variable (h : Spelling fp)
include h

theorem Spelling.bare_length : (bare fp).length = 64 := by
  rw [bare, length_map, h.count]

theorem Spelling.bare_ne_nil : bare fp ≠ [] := by
  intro hnil
  have hlen := h.bare_length
  rw [hnil] at hlen
  simp at hlen

theorem Spelling.normalizeFingerprint : normalizeFingerprint fp = bare fp := by
  have hkept := (loops_agree id (fun c => [c]) h.chars).1
  show (if (fp.toList.filterMap keptDigit).length ≠ 64 then [] else _) = _
  rw [hkept]
  exact if_neg fun hne => hne h.bare_length

theorem Spelling.coordination_want (lower : Char → Char) : coordination.want lower fp = bare fp :=
  (loops_agree lower (fun c => [c]) h.chars).2.1

theorem Spelling.mobile_normalizeFingerprint (lowerCase : Char → List Char) :
    mobile.normalizeFingerprint lowerCase fp = bare fp := by
  have hkept := (loops_agree id lowerCase h.chars).2.2
  show (if ((Dart.toLowerCase lowerCase fp.toList).filter isLowerHex).length = 64 then _ else
    []) = _
  rw [hkept]
  exact if_pos h.bare_length

theorem Spelling.ne_empty : fp ≠ "" := by
  rintro rfl
  exact h.bare_ne_nil rfl

end

end

/-! ## What `FormatFingerprint` writes -/

theorem isLowerHex_hexDigit : ∀ n < 16, isLowerHex (hexDigit n) = true := by decide

theorem isLowerHex_of_mem_hex {b : Bytes} {c : Char} (h : c ∈ hex b) : isLowerHex c = true := by
  obtain ⟨x, -, hx⟩ := mem_flatMap.mp h
  have hlt : x.toNat < 256 := x.toNat_lt
  simp only [mem_cons, not_mem_nil, or_false] at hx
  obtain rfl | rfl := hx
  · exact isLowerHex_hexDigit _ (by omega)
  · exact isLowerHex_hexDigit _ (by omega)

theorem ascii_of_isLowerHex {c : Char} (h : isLowerHex c = true) : c.toNat < 128 := by
  apply ascii_of_isHexDigit
  show (isLowerHex c || _) = true
  rw [h, Bool.true_or]

theorem grouped_spec {s : List Char} (hs : ∀ c ∈ s, isLowerHex c = true) :
    (∀ c ∈ grouped s, isHexDigit c = true ∨ isSeparator c = true) ∧
      (grouped s).filter isHexDigit = s.map toUpper := by
  have hupper : ∀ c ∈ s, isHexDigit c.toUpper = true := fun c hc =>
    ((facts_of_ascii (ascii_of_isLowerHex (hs c hc))).2.2 (hs c hc)).1
  clear hs
  fun_induction grouped s with
  | case1 a b c d e rest ih =>
    obtain ⟨hchars, hfil⟩ := ih fun x hx => hupper x (by simp_all)
    have hspace : isHexDigit ' ' = false := by decide
    have hsep : isSeparator ' ' = true := by decide
    simp only [forall_mem_cons] at hupper
    obtain ⟨ha, hb, hc, hd, -⟩ := hupper
    constructor
    · simp only [forall_mem_cons]
      exact ⟨.inl ha, .inl hb, .inl hc, .inl hd, .inr hsep, hchars⟩
    · simp [ha, hb, hc, hd, hspace, hfil]
  | case2 s =>
    constructor
    · intro c hc
      obtain ⟨x, hx, rfl⟩ := mem_map.mp hc
      exact .inl (hupper x hx)
    · rw [filter_eq_self]
      intro c hc
      obtain ⟨x, hx, rfl⟩ := mem_map.mp hc
      exact hupper x hx

section

variable {b : Bytes}

theorem spelling_formatFingerprint (hb : b.length = 32) :
    Spelling (formatFingerprint (ofList (hex b))) := by
  obtain ⟨hchars, hfil⟩ := grouped_spec fun c => isLowerHex_of_mem_hex (b := b)
  constructor
  · simpa [formatFingerprint] using hchars
  · simp [formatFingerprint, hfil, length_hex, hb]

theorem bare_formatFingerprint : bare (formatFingerprint (ofList (hex b))) = hex b := by
  obtain ⟨-, hfil⟩ := grouped_spec fun c => isLowerHex_of_mem_hex (b := b)
  simp only [bare, formatFingerprint, String.toList_ofList, hfil, map_map]
  rw [map_congr_left (g := id), map_id]
  intro c hc
  have hlower := isLowerHex_of_mem_hex hc
  exact ((facts_of_ascii (ascii_of_isLowerHex hlower)).2.2 hlower).2

end

/-! ## The three clients -/

/-- The certificate is the one whose fingerprint is written `fp`. -/
def Matches (sha256 : Bytes → Bytes) (fp : String) (p : Presented) : Prop :=
  hex (sha256 p.certificate) = bare fp

/-- Each client completes the handshake with exactly the pinned server. -/
def Enforced (sha256 : Bytes → Bytes) (beyond : Char → Char) (beyondDart : Char → List Char)
    (opts : coordination.DialOptions) (p : Presented) : Prop :=
  (pinnedClient sha256 opts.fingerprint p = true ↔ Matches sha256 opts.fingerprint p) ∧
  (coordination.dial beyond sha256 opts p = true ↔ Matches sha256 opts.fingerprint p) ∧
  (mobile.create beyondDart sha256 opts.fingerprint p = true ↔ Matches sha256 opts.fingerprint p)

section

variable {sha256 : Bytes → Bytes} {fp : String} {p : Presented}

theorem pinnedClient_iff (h : Spelling fp) :
    pinnedClient sha256 fp p = true ↔ Matches sha256 fp p := by
  unfold pinnedClient
  simp only [h.normalizeFingerprint, if_neg h.bare_ne_nil, verifyPeerCertificate, beq_iff_eq]
  exact Iff.rfl

theorem coordination_dial_iff {beyond : Char → Char} {opts : coordination.DialOptions}
    (h : Spelling opts.fingerprint) (htls : opts.insecure = false) :
    coordination.dial beyond sha256 opts p = true ↔ Matches sha256 opts.fingerprint p := by
  simp only [coordination.dial, htls, Bool.false_eq_true, if_false, ne_eq, h.ne_empty,
    not_false_eq_true, if_true, h.coordination_want, verifyPeerCertificate, beq_iff_eq]
  exact Iff.rfl

theorem mobile_create_iff {beyond : Char → List Char} (h : Spelling fp) :
    mobile.create beyond sha256 fp p = true ↔ p.verdict = true ∨ Matches sha256 fp p := by
  unfold mobile.create
  simp only [h.mobile_normalizeFingerprint, if_neg h.bare_ne_nil, Bool.or_eq_true, beq_iff_eq]
  exact Iff.rfl

end

/-- However a fingerprint is spelt, all three clients go by the pin alone exactly if the
    platform does not vouch for the server, or the server is the pinned one.  What
    `FormatFingerprint` writes for a SHA-256 is one of its spellings. -/
theorem pins_agree_iff (sha256 : Bytes → Bytes) (beyond : Char → Char)
    (beyondDart : Char → List Char) :
    (∀ digest : Bytes, digest.length = 32 →
      Spelling (formatFingerprint (ofList (hex digest))) ∧
      bare (formatFingerprint (ofList (hex digest))) = hex digest) ∧
    ∀ (opts : coordination.DialOptions) (p : Presented), opts.insecure = false →
      Spelling opts.fingerprint →
      (Enforced sha256 beyond beyondDart opts p ↔
        (p.verdict = false ∨ Matches sha256 opts.fingerprint p)) := by
  constructor
  · intro digest hlen
    exact ⟨spelling_formatFingerprint hlen, bare_formatFingerprint⟩
  · intro opts p htls h
    simp only [Enforced, pinnedClient_iff h, coordination_dial_iff h htls, mobile_create_iff h,
      true_and]
    cases p.verdict <;> simp

/-! ## A server the phone was never paired with -/

/-- Nothing but the first byte of a certificate counts. -/
def plainSHA256 (cert : Bytes) : Bytes := List.replicate 32 (cert.headD 0)

def plainOptions : coordination.DialOptions where
  insecure := false
  insecureSkipVerify := false
  fingerprint := formatFingerprint (ofList (hex (plainSHA256 [0xab])))

/-- Some machine with the certificate `cert` and a self-signed chain, or one that an authority
    vouches for. -/
def plainServer (cert : UInt8) (verdict : Bool) : Presented := ⟨[cert], [], verdict⟩

theorem pins_agree_self_signed :
    Enforced plainSHA256 id (fun c => [c]) plainOptions (plainServer 0xcd false) := by
  obtain ⟨hformat, hagree⟩ := pins_agree_iff plainSHA256 id fun c => [c]
  have hspelling := (hformat (plainSHA256 [0xab]) rfl).1
  exact (hagree plainOptions (plainServer 0xcd false) rfl hspelling).mpr (.inl rfl)

/-- An authority vouches for another machine: the Go clients refuse it, the phone does not. -/
theorem phone_trusts_authority :
    ¬Matches plainSHA256 plainOptions.fingerprint (plainServer 0xcd true) ∧
    pinnedClient plainSHA256 plainOptions.fingerprint (plainServer 0xcd true) = false ∧
    coordination.dial id plainSHA256 plainOptions (plainServer 0xcd true) = false ∧
    mobile.create (fun c => [c]) plainSHA256 plainOptions.fingerprint
      (plainServer 0xcd true) = true := by
  refine ⟨?_, ?_, ?_, ?_⟩
  · unfold Matches
    decide +kernel
  all_goals decide +kernel

end NexusVPN.Pin
