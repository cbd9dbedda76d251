import NexusVPN.Basic

/-! # Invite codes and pairing links

    `client/agent/invite.go` and `ParsePairingLink` of `client/agent/pairing.go`, over lists of
    characters.  Both take links of one scheme; which kind of link it is they tell by what
    follows the scheme.  What `url.Parse` returns is given. -/

namespace NexusVPN.Client.Links

open List Char Option

/-! ## Strings -/

/-- `strings.TrimFunc`. -/
def trim (p : Char → Bool) (s : List Char) : List Char :=
  ((s.dropWhile p).reverse.dropWhile p).reverse

/-- Simple case folding, of characters that it takes to ASCII. -/
def foldRune (c : Char) : Char :=
  if c = 'K' then 'k' else if c = 'ſ' then 's' else c.toLower

/-- `strings.EqualFold`, where the other text is ASCII. -/
def equalFold (s : List Char) (t : String) : Bool := s.map foldRune == t.toList.map foldRune

/-- `unicode.ToUpper`. -/
structure UpperCase where
  rune : Char → Char
  ascii : ∀ c, c.toNat < 128 → rune c = c.toUpper

/-- `url.URL`, as far as it is looked at. -/
structure URL where
  scheme : List Char
  opaquePart : List Char
  host : List Char
  path : List Char
  /-- `Query().Get`. -/
  get : String → List Char

/-! ## The two parsers -/

def isSlash (c : Char) : Bool := c == '/'

def lastSegment (path : List Char) : List Char :=
  ((((trim isSlash path).splitOn '/').reverse.map (trim isSpace)).find? fun p =>
    !p.isEmpty && !equalFold p "join").getD []

section

variable (parse : List Char → Option URL) (U : UpperCase)

/-- `strings.ToUpper(strings.TrimSpace(strings.Trim(s, "/")))`. -/
def finish (s : List Char) : List Char := (trim isSpace (trim isSlash s)).map U.rune

def parseInviteCode (input : List Char) : List Char :=
  let s := trim isSpace input
  if s = [] then []
  else
    match parse s with
    | none => finish U s
    | some u =>
      if u.scheme = [] then finish U s
      else if equalFold u.scheme "nexusvpn" then
        finish U (lastSegment (u.opaquePart ++ u.host ++ u.path))
      else if equalFold u.scheme "http" || equalFold u.scheme "https" then
        finish U (lastSegment u.path)
      else []

/-- `ParsePairingLink`: the server, the token and the fingerprint. -/
def parsePairingLink (input : List Char) : Option (List Char × List Char × List Char) := do
  let s := trim isSpace input
  if s = [] then none
  else
    let u ← parse s
    if !equalFold u.scheme "nexusvpn" then none
    else if !equalFold (trim isSlash (u.opaquePart ++ u.host ++ u.path)) "pair" then none
    else
      let serverURL := trim isSpace (u.get "s")
      let token := trim isSpace (u.get "t")
      if serverURL = [] ∨ token = [] then none
      else some (serverURL, token, trim isSpace (u.get "f"))

/-- The link is one of the scheme to `pair`, with a server and a token. -/
def IsPairing (input : List Char) : Prop :=
  trim isSpace input ≠ [] ∧ ∃ u ∈ parse (trim isSpace input),
    equalFold u.scheme "nexusvpn" = true ∧
    equalFold (trim isSlash (u.opaquePart ++ u.host ++ u.path)) "pair" = true ∧
    trim isSpace (u.get "s") ≠ [] ∧ trim isSpace (u.get "t") ≠ []

end

/-! ## Segments -/

/-- What `lastSegment` returns as it is. -/
structure Segment (c : List Char) : Prop where
  ne_nil : c ≠ []
  no_slash : ∀ x ∈ c, isSlash x = false
  no_space : ∀ x ∈ c, isSpace x = false
  not_join : equalFold c "join" = false

variable {c w path : List Char}

theorem trim_eq_self {p : Char → Bool} (h : ∀ x ∈ c, p x = false) : trim p c = c := by
  have hdrop : ∀ {l : List Char}, (∀ x ∈ l, p x = false) → l.dropWhile p = l := by
    intro l hl
    cases l with
    | nil => rfl
    | cons x l => exact dropWhile_cons_of_neg (by simp [hl x])
  rw [trim, hdrop h, hdrop fun x hx => h x (mem_reverse.mp hx), reverse_reverse]

theorem trim_parts (p : Char → Bool) (s : List Char) : ∃ a b, s = a ++ trim p s ++ b ∧
    (∀ x ∈ a, p x = true) ∧ ∀ x ∈ b, p x = true := by
  refine ⟨s.takeWhile p, ((s.dropWhile p).reverse.takeWhile p).reverse, ?_, ?_, ?_⟩
  · rw [append_assoc, trim, ← reverse_append, takeWhile_append_dropWhile, reverse_reverse,
      takeWhile_append_dropWhile]
  · exact all_eq_true.mp all_takeWhile
  · exact fun x hx => all_eq_true.mp all_takeWhile x (mem_reverse.mp hx)

def isCode (p : List Char) : Bool := !p.isEmpty && !equalFold p "join"

/-- The last segment that is a code. -/
def code? (path : List Char) : Option (List Char) :=
  ((path.splitOn '/').reverse.map (trim isSpace)).find? isCode

theorem code?_append (w v : List Char) : code? (w ++ '/' :: v) = (code? v).or (code? w) := by
  rw [code?, splitOn_append_cons_self, reverse_append, map_append, find?_append]
  rfl

theorem code?_slashes (hw : ∀ x ∈ w, isSlash x = true) : code? (w ++ path) = code? path := by
  induction w with
  | nil => rfl
  | cons x w ih =>
    obtain ⟨hx, hw⟩ := forall_mem_cons.mp hw
    rw [beq_iff_eq.mp hx, cons_append, ← nil_append ('/' :: _), code?_append, ih hw]
    exact or_none

theorem code?_before (hw : ∀ x ∈ w, isSlash x = true) : code? (path ++ w) = code? path := by
  cases w with
  | nil => rw [append_nil]
  | cons x w =>
    obtain ⟨hx, hw⟩ := forall_mem_cons.mp hw
    have hnone : code? (w ++ []) = none := code?_slashes hw
    rw [append_nil] at hnone
    rw [beq_iff_eq.mp hx, code?_append, hnone, none_or]

theorem code?_trim (path : List Char) : code? (trim isSlash path) = code? path := by
  obtain ⟨a, b, heq, ha, hb⟩ := trim_parts isSlash path
  generalize trim isSlash path = t at heq ⊢
  rw [heq, code?_before hb, code?_slashes ha]

theorem lastSegment_eq (path : List Char) : lastSegment path = (code? path).getD [] := by
  rw [← code?_trim]
  rfl

theorem Segment.code (h : Segment c) : code? c = some c := by
  rw [code?, splitOn_eq_singleton_of_beq_eq_false h.no_slash]
  simp [isCode, trim_eq_self h.no_space, h.ne_nil, h.not_join]

theorem Segment.lastSegment (h : Segment c) (hpath : trim isSlash path = c) :
    lastSegment path = c := by
  rw [lastSegment_eq, ← code?_trim, hpath, h.code]
  rfl

theorem Segment.finish (h : Segment c) (U : UpperCase) : finish U c = c.map U.rune := by
  rw [Links.finish, trim_eq_self h.no_slash, trim_eq_self h.no_space]

theorem foldRune_of_isSpace {x : Char} (h : isSpace x = true) : foldRune x = x := by
  have hne : x ≠ '\u212a' ∧ x ≠ '\u017f' := by
    constructor
    · rintro rfl
      exact absurd h (by decide)
    · rintro rfl
      exact absurd h (by decide)
  rw [foldRune, if_neg hne.1, if_neg hne.2]
  delta toLower
  refine dif_neg fun hupper => ?_
  have hlow := UInt32.le_iff_toNat_le.mp hupper.1
  have hhigh := UInt32.le_iff_toNat_le.mp hupper.2
  have hval : x.toNat = x.val.toNat := rfl
  simp [isSpace] at h hlow hhigh
  omega

theorem segment_of_pair (h : equalFold c "pair" = true) : Segment c := by
  have hfold : c.map foldRune = "pair".toList.map foldRune := beq_iff_eq.mp h
  have hmem : ∀ x ∈ c, foldRune x ∈ "pair".toList := by
    intro x hx
    have hx' := mem_map_of_mem (f := foldRune) hx
    rw [hfold] at hx'
    exact (by decide : ∀ y ∈ "pair".toList.map foldRune, y ∈ "pair".toList) _ hx'
  refine ⟨?_, fun x hx => ?_, fun x hx => ?_, ?_⟩
  · rintro rfl
    cases hfold
  · cases hslash : isSlash x with
    | false => rfl
    | true =>
      rw [beq_iff_eq.mp hslash] at hx
      exact absurd (hmem _ hx) (by decide)
  · cases hspace : isSpace x with
    | false => rfl
    | true =>
      have hx' := hmem x hx
      rw [foldRune_of_isSpace hspace] at hx'
      exact absurd hspace ((by decide : ∀ y ∈ "pair".toList, ¬ isSpace y = true) x hx')
  · rw [equalFold, hfold]
    decide

/-! ## Pairing links as invites -/

/-- A pairing link is taken for an invite, with the code `PAIR`. -/
theorem pairing_not_invite_iff (parse : List Char → Option URL) (U : UpperCase)
    (input : List Char) :
    ¬ (parsePairingLink parse input ≠ none ∧ parseInviteCode parse U input ≠ []) ↔
      ¬ IsPairing parse input := by
  refine not_congr ⟨?_, ?_⟩
  · rintro ⟨hpairing, -⟩
    obtain ⟨r, hr⟩ := ne_none_iff_exists'.mp hpairing
    obtain ⟨hne, hr⟩ := ite_none_left_eq_some.mp hr
    obtain ⟨u, hu, hr⟩ := bind_eq_some_iff.mp hr
    obtain ⟨hsch, hr⟩ := ite_none_left_eq_some.mp hr
    obtain ⟨hpair, hr⟩ := ite_none_left_eq_some.mp hr
    obtain ⟨hparts, -⟩ := ite_none_left_eq_some.mp hr
    exact ⟨hne, u, hu, by simpa using hsch, by simpa using hpair, not_or.mp hparts⟩
  · rintro ⟨hne, u, hu, hsch, hpair, hsrv, htoken⟩
    have hseg := segment_of_pair hpair
    have hnil : u.scheme ≠ [] := by
      intro hnil
      rw [hnil] at hsch
      cases hsch
    refine ⟨?_, ?_⟩
    · simp [parsePairingLink, hne, mem_def.mp hu, hsch, hpair, hsrv, htoken, -append_assoc]
    · rw [parseInviteCode]
      simp only [hne, mem_def.mp hu, hnil, hsch, if_true, if_false]
      rw [hseg.lastSegment rfl, hseg.finish]
      simpa using hseg.ne_nil

/-- A link as `StartPairing` makes them. -/
def pairingLink : List Char := "nexusvpn://pair?s=https%3A%2F%2F10.0.0.1&t=token".toList

/-- What `url.Parse` returns for it. -/
def pairingURL : URL :=
  ⟨"nexusvpn".toList, [], "pair".toList, [], fun key =>
    if key = "s" then "https://10.0.0.1".toList else if key = "t" then "token".toList else []⟩

/-- It is offered as an invite to the network `PAIR`. -/
theorem pairing_link_offered :
    let parse := fun s => if s = pairingLink then some pairingURL else none
    parsePairingLink parse pairingLink = some ("https://10.0.0.1".toList, "token".toList, []) ∧
      parseInviteCode parse ⟨toUpper, fun _ _ => rfl⟩ pairingLink = "PAIR".toList := by
  decide +kernel

/-! ## Codes in their wrappings -/

def inviteLink (U : UpperCase) (code : List Char) : List Char :=
  "nexusvpn://join/".toList ++ (trim isSpace code).map U.rune

/-- `inviteAlphabet`, in upper and in lower case. -/
def codeRunes : List Char :=
  let alphabet := "0123456789ABCDEFGHJKMNPQRSTVWXYZ".toList
  alphabet ++ alphabet.map toLower

/-- A link with the code, and what `url.Parse` makes of it if it accepts it: the scheme is in
    lower case, and `nexusvpn:join/…` has neither host nor path. -/
inductive Carries (code : List Char) : List Char → URL → Prop
  | join (k : Nat) (scheme join query : List Char) (get : String → List Char)
    (hsch : scheme.map toLower = "nexusvpn".toList)
    (hjoin : join.map toLower = "join".toList) :
    Carries code (scheme ++ "://".toList ++ join ++ '/' :: code ++ replicate k '/' ++ query)
      ⟨"nexusvpn".toList, [], join, '/' :: code ++ replicate k '/', get⟩
  | joinOpaque (k : Nat) (scheme join query : List Char) (get : String → List Char)
    (hsch : scheme.map toLower = "nexusvpn".toList)
    (hjoin : join.map toLower = "join".toList) :
    Carries code (scheme ++ ':' :: join ++ '/' :: code ++ replicate k '/' ++ query)
      ⟨"nexusvpn".toList, join ++ '/' :: code ++ replicate k '/', [], [], get⟩
  | web (k : Nat) (scheme rest host w : List Char) (get : String → List Char)
    (hsch : scheme.map toLower = "http".toList ∨ scheme.map toLower = "https".toList) :
    Carries code (scheme ++ ':' :: rest) ⟨scheme.map toLower, [], host,
      w ++ "/join".toList ++ '/' :: code ++ replicate k '/', get⟩

/-- A code alone has no scheme. -/
def Wrapped (parse : List Char → Option URL) (code s : List Char) : Prop :=
  (∃ k, s = code ++ replicate k '/' ∧ ∀ u ∈ parse s, u.scheme = []) ∨
    ∃ u, parse s = some u ∧ Carries code s u

theorem segment_of_code (hne : c ≠ []) (hc : ∀ x ∈ c, x ∈ codeRunes) : Segment c := by
  have hrunes : ∀ y ∈ codeRunes, isSlash y = false ∧ isSpace y = false ∧ foldRune y ≠ 'o' := by
    decide +kernel
  refine ⟨hne, fun x hx => (hrunes x (hc x hx)).1, fun x hx => (hrunes x (hc x hx)).2.1, ?_⟩
  refine Bool.eq_false_iff.mpr fun hjoin => ?_
  have hfold : c.map foldRune = "join".toList.map foldRune := beq_iff_eq.mp hjoin
  have ho : 'o' ∈ c.map foldRune := by
    rw [hfold]
    decide
  obtain ⟨x, hx, hfolds⟩ := mem_map.mp ho
  exact (hrunes x (hc x hx)).2.2 hfolds

theorem Segment.trim_slashes (h : Segment c) (k : Nat) :
    trim isSlash (c ++ replicate k '/') = c := by
  obtain ⟨x, xs, hx⟩ := exists_cons_of_ne_nil h.ne_nil
  have hleft : ∀ v, (c ++ v).dropWhile isSlash = c ++ v := fun v => by
    rw [hx, cons_append, dropWhile_cons_of_neg (by simp [h.no_slash x (hx ▸ mem_cons_self)])]
  have hself : (c.reverse.dropWhile isSlash).reverse = c := by
    have htrim : trim isSlash c = c := trim_eq_self h.no_slash
    rwa [trim, ← append_nil c, hleft, append_nil] at htrim
  rw [trim, hleft, reverse_append, dropWhile_append_of_pos (by simp [isSlash]), hself]

theorem Segment.lastSegment_slashes (h : Segment c) (w : List Char) (k : Nat) :
    Links.lastSegment (w ++ '/' :: c ++ replicate k '/') = c := by
  rw [lastSegment_eq, code?_before (by simp [isSlash]), code?_append, h.code]
  rfl

theorem map_rune (U : UpperCase) (hc : ∀ x ∈ c, x ∈ codeRunes) : c.map U.rune = c.map toUpper := by
  refine map_congr_left fun x hx => U.ascii x ?_
  exact (by decide +kernel : ∀ y ∈ codeRunes, y.toNat < 128) x (hc x hx)

theorem parseInviteCode_wrapped (parse : List Char → Option URL) (U : UpperCase)
    (input : List Char) (hne : c ≠ []) (hc : ∀ x ∈ c, x ∈ codeRunes)
    (hwrapped : Wrapped parse c (trim isSpace input)) :
    parseInviteCode parse U input = c.map toUpper := by
  have hseg := segment_of_code hne hc
  rw [← map_rune U hc, ← hseg.finish U]
  unfold parseInviteCode
  generalize trim isSpace input = s at hwrapped
  rcases hwrapped with ⟨k, rfl, hbare⟩ | ⟨u, hu, hcarry⟩
  · -- A bare code: only the slashes are trimmed.
    have hfinish : finish U (c ++ replicate k '/') = finish U c := by
      rw [finish, finish, hseg.trim_slashes k, trim_eq_self hseg.no_slash]
    simp only [append_eq_nil_iff, hne, false_and, if_false, hfinish]
    split
    · rfl
    · next u hu => rw [if_pos (hbare u hu)]
  · simp only [hu]
    cases hcarry with
    | join k scheme join query get hsch hjoin =>
      have hlast := hseg.lastSegment_slashes join k
      simp [equalFold] at hlast ⊢
      rw [hlast]
    | joinOpaque k scheme join query get hsch hjoin =>
      have hlast := hseg.lastSegment_slashes join k
      simp [equalFold] at hlast ⊢
      rw [hlast]
    | web k scheme rest host w get hsch =>
      have hlast := hseg.lastSegment_slashes (w ++ "/join".toList) k
      rcases hsch with h | h <;> simp [h, equalFold] at hlast ⊢ <;> rw [hlast]

/-- Whatever it is wrapped in, a code is read as itself, in upper case. -/
theorem invite_code_survives (parse : List Char → Option URL) (U : UpperCase)
    (code : List Char) (hne : code ≠ []) (hcode : ∀ x ∈ code, x ∈ codeRunes) :
    (∀ input, Wrapped parse code (trim isSpace input) →
      parseInviteCode parse U input = code.map toUpper) ∧
    ∀ get, parse (inviteLink U code) =
        some ⟨"nexusvpn".toList, [], "join".toList, '/' :: code.map toUpper, get⟩ →
      parseInviteCode parse U (inviteLink U code) = code.map toUpper := by
  refine ⟨fun input => parseInviteCode_wrapped parse U input hne hcode, fun get hget => ?_⟩
  have hupper : ∀ x ∈ code.map toUpper, x ∈ codeRunes ∧ x.toUpper = x := by
    intro x hx
    obtain ⟨y, hy, rfl⟩ := mem_map.mp hx
    exact (by decide +kernel : ∀ y ∈ codeRunes, y.toUpper ∈ codeRunes ∧
      y.toUpper.toUpper = y.toUpper) y (hcode y hy)
  have hlink : inviteLink U code = "nexusvpn://join/".toList ++ code.map toUpper := by
    unfold inviteLink
    rw [trim_eq_self (p := isSpace) (segment_of_code hne hcode).no_space]
    exact congrArg _ (map_rune U hcode)
  have hseg : Segment (code.map toUpper) :=
    segment_of_code (by simpa using hne) fun x hx => (hupper x hx).1
  have hspace : ∀ x ∈ inviteLink U code, isSpace x = false := by
    rw [hlink]
    refine forall_mem_append.mpr ⟨?_, hseg.no_space⟩
    decide +kernel
  rw [parseInviteCode_wrapped parse U _ hseg.ne_nil fun x hx => (hupper x hx).1]
  · exact (map_congr_left fun x hx => (hupper x hx).2).trans (map_id' _)
  · rw [trim_eq_self hspace]
    refine .inr ⟨_, hget, ?_⟩
    rw [hlink]
    simpa using Carries.join 0 "nexusvpn".toList "join".toList [] get rfl rfl

/-- A code in lower case, with what comes of pasting the link to it. -/
theorem invite_code_survives_pasted :
    let link := "nexusvpn://join/k7m2qp/".toList
    let parse := fun s => if s = link then
      some (URL.mk "nexusvpn".toList [] "join".toList "/k7m2qp/".toList fun _ => []) else none
    parseInviteCode parse ⟨toUpper, fun _ _ => rfl⟩ (' ' :: link) = "K7M2QP".toList := by
  intro link parse
  refine (invite_code_survives parse _ "k7m2qp".toList (by decide) (by decide +kernel)).1 _ ?_
  rw [(by decide +kernel : trim isSpace (' ' :: link) = link)]
  refine .inr ⟨_, if_pos rfl, ?_⟩
  exact .join 1 "nexusvpn".toList "join".toList [] _ (by decide +kernel) (by decide +kernel)

end NexusVPN.Client.Links
