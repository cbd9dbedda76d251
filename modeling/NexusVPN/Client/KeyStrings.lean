import Mathlib.Algebra.Order.Ring.Nat
import NexusVPN.Client.WireGuard
import NexusVPN.Lib.Base64
import NexusVPN.Lib.DottedDecimal

/-! # Keys as text

    A WireGuard key is 32 bytes.  The control plane and the configuration have it in base64,
    the UAPI in hexadecimal.  `UpsertPeer` goes by the bytes, `PeerStats` by the base64 text.

    Of what the engine answers to `get` only the documented shape is assumed: the fields of
    the interface, then for each peer its key and its fields. -/

namespace NexusVPN.Client

open List Base64 UUID
open String (ofList toList_ofList)

/-! ## Spellings -/

/-- Why a text is no key.  Where base64 goes wrong is left out. -/
inductive KeyTextError where
  | corruptInput
  | wrongLength (got : Nat)

def base64KeyToHex (key : String) : Except KeyTextError String :=
  match decodeString false key with
  | none => .error .corruptInput
  | some raw =>
    if raw.length ≠ 32 then .error (.wrongLength raw.length) else .ok (ofList (hex raw))

def hexKeyToBase64 (hexKey : String) : Option String := (unhex hexKey.toList).map encodeToString

/-- The key that the engine is given for a text. -/
def keyBytes (key : String) : Option Bytes :=
  match base64KeyToHex key with
  | .error _ => none
  | .ok hexKey => unhex hexKey.toList

variable {key : Bytes} {s : String}

theorem base64KeyToHex_ok {hexKey : String} (h : base64KeyToHex s = .ok hexKey) :
    ∃ key, decodeString false s = some key ∧ hexKey = ofList (hex key) := by
  unfold base64KeyToHex at h
  split at h
  · cases h
  · next raw hraw =>
    split at h
    · cases h
    · exact ⟨raw, hraw, (Except.ok.inj h).symm⟩

theorem base64KeyToHex_of_decode (h : decodeString false s = some key)
    (hlen : key.length = 32) : base64KeyToHex s = .ok (ofList (hex key)) := by
  simp only [base64KeyToHex, h]
  exact if_neg (not_not.mpr hlen)

theorem keyBytes_of_ok {hexKey : String} (h : base64KeyToHex s = .ok hexKey) :
    keyBytes s = unhex hexKey.toList := by
  rw [keyBytes, h]

theorem decodeString_of_keyBytes (h : keyBytes s = some key) : decodeString false s = some key := by
  cases hhex : base64KeyToHex s with
  | error e =>
    rw [keyBytes, hhex] at h
    cases h
  | ok hexKey =>
    obtain ⟨raw, hraw, rfl⟩ := base64KeyToHex_ok hhex
    rw [keyBytes_of_ok hhex, toList_ofList, unhex_hex] at h
    rw [hraw, h]

theorem hexKeyToBase64_hex (key : Bytes) :
    hexKeyToBase64 (ofList (hex key)) = some (encodeToString key) := by
  rw [hexKeyToBase64, toList_ofList, unhex_hex]
  rfl

/-! ## The answer to `get` -/

namespace UAPI

/-- A line `name=value`. -/
structure Field where
  name : String
  value : String
  name_plain : '=' ∉ name.toList
  no_space : ∀ c ∈ name.toList ++ '=' :: value.toList, isSpace c = false

def Field.line (f : Field) : List Char := f.name.toList ++ '=' :: f.value.toList

/-- What is said about a peer. -/
structure Peer where
  key : Bytes
  fields : List Field
  fields_other : ∀ f ∈ fields, f.name ≠ "public_key"

structure Dump where
  interface : List Field
  interface_other : ∀ f ∈ interface, f.name ≠ "public_key"
  peers : List Peer

theorem not_isSpace_hex {c : Char} (h : c ∈ hex key) : isSpace c = false := by
  have hdigit : ∀ n < 16, isSpace (hexDigit n) = false := by decide
  obtain ⟨b, -, hc⟩ := mem_flatMap.mp h
  have hb := b.toNat_lt
  rcases mem_pair.mp hc with rfl | rfl
  · exact hdigit _ (by omega)
  · exact hdigit _ (by omega)

def Peer.keyField (p : Peer) : Field where
  name := "public_key"
  value := ofList (hex p.key)
  name_plain := by decide
  no_space := by
    have hname : "public_key".toList.any isSpace = false := by decide
    intro c hc
    rcases mem_append.mp hc with hc | hc
    · simpa using any_eq_false.mp hname c hc
    · rcases mem_cons.mp hc with rfl | hc
      · rfl
      · rw [toList_ofList] at hc
        exact not_isSpace_hex hc

def Peer.lines (p : Peer) : List (List Char) := p.keyField.line :: p.fields.map Field.line

def Dump.lines (d : Dump) : List (List Char) :=
  d.interface.map Field.line ++ d.peers.flatMap Peer.lines

/-- What `IpcGet` returns. -/
def Dump.text (d : Dump) : String := ofList (d.lines.flatMap (· ++ ['\n']))

/-- The answer is about the peers that there are. -/
def Dump.Reports (d : Dump) (wg : WGDevice) : Prop :=
  ∀ key, (wg.lookup key).isSome ↔ ∃ p ∈ d.peers, p.key = key

/-! ## Reading the answer -/

structure PeerStats where
  publicKey : String
  endpoint : String
  lastHandshake : Time
  txBytes : UInt64
  rxBytes : UInt64
  allowedIPs : List String

/-- `strconv.ParseUint(s, 10, 64)`, of which the error is dropped. -/
def parseUint (s : String) : UInt64 :=
  match parseDecimal s.toList with
  | none => 0
  | some n => UInt64.ofNat (min n (2 ^ 64 - 1))

/-- `strconv.ParseInt(s, 10, 64)`. -/
def parseInt (s : String) : Option Int :=
  let signed (sign : Int) (digits : List Char) : Option Int :=
    match parseDecimal digits with
    | none => none
    | some n => if -(2 ^ 63) ≤ sign * n ∧ sign * n < 2 ^ 63 then some (sign * n) else none
  match s.toList with
  | '-' :: digits => signed (-1) digits
  | '+' :: digits => signed 1 digits
  | digits => signed 1 digits

/-- `time.Unix(sec, 0)`. -/
def unixTime (sec : Int) : Time := (sec + 62135596800) * 1000000000

/-- A field that is not the key, in the block of a peer. -/
def PeerStats.set (s : PeerStats) (key value : String) : PeerStats :=
  if key = "endpoint" then { s with endpoint := value }
  else if key = "last_handshake_time_sec" then
    match parseInt value with
    | some sec => if 0 < sec then { s with lastHandshake := unixTime sec } else s
    | none => s
  else if key = "tx_bytes" then { s with txBytes := parseUint value }
  else if key = "rx_bytes" then { s with rxBytes := parseUint value }
  else if key = "allowed_ip" then { s with allowedIPs := s.allowedIPs ++ [value] }
  else s

/-- `strings.Cut(line, "=")`. -/
def cut (line : String) : Option (String × String) :=
  match line.toList.dropWhile (· ≠ '=') with
  | [] => none
  | _ :: value => some (ofList (line.toList.takeWhile (· ≠ '=')), ofList value)

/-- Why there are no statistics. -/
inductive StatsError where
  | ipc (text : String)
  | parsePublicKey

/-- The loop of `parseStats`.  A line that is empty has nothing to cut. -/
def parseLines : List (List Char) → Option PeerStats → Except StatsError (List PeerStats)
  | [], current => .ok current.toList
  | line :: lines, current =>
    match cut (trimSpace (ofList line)) with
    | none => parseLines lines current
    | some (key, value) =>
      if key = "public_key" then
        match hexKeyToBase64 value with
        | none => .error .parsePublicKey
        | some b64 => (parseLines lines (some ⟨b64, "", 0, 0, 0, []⟩)).map (current.toList ++ ·)
      else parseLines lines (current.map (·.set key value))

def parseStats (raw : String) : Except StatsError (List PeerStats) :=
  parseLines (raw.toList.splitOn '\n') none

/-- `Device.PeerStats`, with what `IpcGet` returns. -/
def peerStats (answer : Except String String) (publicKey : String) :
    Except StatsError (Option PeerStats) :=
  match answer with
  | .error text => .error (.ipc text)
  | .ok raw => (parseStats raw).map (·.find? (·.publicKey == publicKey))

/-! ## What is read -/

theorem trimSpace_of_no_space {cs : List Char} (h : ∀ c ∈ cs, isSpace c = false) :
    trimSpace (ofList cs) = ofList cs := by
  have hkeep : ∀ ds : List Char, (∀ c ∈ ds, isSpace c = false) → ds.dropWhile isSpace = ds := by
    intro ds hds
    cases ds with
    | nil => rfl
    | cons d ds => rw [dropWhile_cons_of_neg (by simp [hds d mem_cons_self])]
  rw [trimSpace, toList_ofList, hkeep cs h, hkeep cs.reverse, reverse_reverse]
  exact fun c hc => h c (mem_reverse.mp hc)

theorem cut_line (f : Field) : cut (trimSpace (ofList f.line)) = some (f.name, f.value) := by
  have hname : ∀ c ∈ f.name.toList, (decide (c ≠ '=')) = true := by
    intro c hc
    exact decide_eq_true fun heq => f.name_plain (heq ▸ hc)
  rw [Field.line, trimSpace_of_no_space f.no_space, cut, toList_ofList,
    dropWhile_append_of_pos hname, takeWhile_append_of_pos hname]
  simp

theorem parseLines_fields {fields : List Field} (h : ∀ f ∈ fields, f.name ≠ "public_key")
    (rest : List (List Char)) (current : Option PeerStats) :
    parseLines (fields.map Field.line ++ rest) current =
      parseLines rest (current.map (fields.foldl (fun s f => s.set f.name f.value) ·)) := by
  induction fields generalizing current with
  | nil => simp
  | cons f fields ih =>
    rw [map_cons, cons_append, parseLines, cut_line]
    dsimp only
    rw [if_neg (h f mem_cons_self), ih fun g hg => h g (mem_cons_of_mem f hg)]
    simp [Option.map_map, Function.comp_def]

/-- What is read of the block of a peer. -/
def Peer.stats (p : Peer) : PeerStats :=
  p.fields.foldl (fun s f => s.set f.name f.value) ⟨encodeToString p.key, "", 0, 0, 0, []⟩

theorem publicKey_stats (p : Peer) : p.stats.publicKey = encodeToString p.key := by
  have hset : ∀ (s : PeerStats) (key value : String),
      (s.set key value).publicKey = s.publicKey := by
    intro s key value
    unfold PeerStats.set
    repeat' split
    all_goals rfl
  have hfold : ∀ (fields : List Field) (s : PeerStats),
      (fields.foldl (fun s f => s.set f.name f.value) s).publicKey = s.publicKey := by
    intro fields
    induction fields with
    | nil => exact fun _ => rfl
    | cons f fields ih => exact fun s => (ih _).trans (hset s f.name f.value)
  exact hfold p.fields _

theorem parseLines_peers (peers : List Peer) (current : Option PeerStats) :
    parseLines (peers.flatMap Peer.lines ++ [[]]) current =
      .ok (current.toList ++ peers.map Peer.stats) := by
  induction peers generalizing current with
  | nil => simp [parseLines, cut, trimSpace]
  | cons p peers ih =>
    rw [flatMap_cons, Peer.lines, append_assoc, cons_append, parseLines, cut_line]
    dsimp only [Peer.keyField]
    rw [if_pos rfl, hexKeyToBase64_hex]
    dsimp only
    rw [parseLines_fields p.fields_other, ih]
    rfl

theorem not_mem_line (f : Field) : '\n' ∉ f.line := by
  intro hbreak
  have hspace := f.no_space '\n' hbreak
  cases hspace

theorem splitOn_lines {lines : List (List Char)} (h : ∀ l ∈ lines, '\n' ∉ l) :
    (lines.flatMap (· ++ ['\n'])).splitOn '\n' = lines ++ [[]] := by
  induction lines with
  | nil => rfl
  | cons l lines ih =>
    rw [flatMap_cons, append_assoc, singleton_append,
      splitOn_append_cons_self_of_not_mem (h l mem_cons_self),
      ih fun l' hl' => h l' (mem_cons_of_mem l hl')]
    rfl

theorem parseStats_text (d : Dump) : parseStats d.text = .ok (d.peers.map Peer.stats) := by
  have hlines : ∀ l ∈ d.lines, '\n' ∉ l := by
    intro l hl
    rcases mem_append.mp hl with hl | hl
    · obtain ⟨f, -, rfl⟩ := mem_map.mp hl
      exact not_mem_line f
    · obtain ⟨p, -, hl⟩ := mem_flatMap.mp hl
      rcases mem_cons.mp hl with rfl | hl
      · exact not_mem_line _
      · obtain ⟨f, -, rfl⟩ := mem_map.mp hl
        exact not_mem_line f
  rw [parseStats, Dump.text, toList_ofList, splitOn_lines hlines, Dump.lines,
    append_assoc, parseLines_fields d.interface_other, Option.map_none, parseLines_peers]
  rfl

/-! ## Finding a peer -/

/-- `PeerStats` returns what there is about the peer with that key. -/
def Finds (d : Dump) (publicKey : String) : Prop :=
  ∃ p ∈ d.peers, keyBytes publicKey = some p.key ∧
    peerStats (.ok d.text) publicKey = .ok (some p.stats)

/-- The text that is compared is the one that base64 writes. -/
theorem finds_iff_encode {d : Dump} (hkey : keyBytes s = some key)
    (hthere : ∃ p ∈ d.peers, p.key = key) : Finds d s ↔ encodeToString key = s := by
  have hread : peerStats (.ok d.text) s =
      .ok ((d.peers.map Peer.stats).find? (·.publicKey == s)) := by
    rw [peerStats, parseStats_text]
    rfl
  constructor
  · intro hfinds
    obtain ⟨p, -, hp, hfound⟩ := hfinds
    cases hkey.symm.trans hp
    rw [hread] at hfound
    have hsame := find?_some (Except.ok.inj hfound)
    rw [← publicKey_stats]
    exact beq_iff_eq.mp hsame
  · intro hs
    obtain ⟨p, hp, rfl⟩ := hthere
    -- Whichever block comes first under that text has the same key.
    cases hfind : (d.peers.map Peer.stats).find? (·.publicKey == s) with
    | none =>
      have hnone := find?_eq_none.mp hfind p.stats (mem_map_of_mem hp)
      rw [publicKey_stats, hs, beq_self_eq_true] at hnone
      exact absurd rfl hnone
    | some found =>
      obtain ⟨p', hp', rfl⟩ := mem_map.mp (mem_of_find?_eq_some hfind)
      have hfound := find?_some hfind
      have hsame : encodeToString p'.key = s := by
        rw [← publicKey_stats]
        exact beq_iff_eq.mp hfound
      have hdecode := decodeString_of_keyBytes hkey
      rw [← hsame, decodeString_encodeToString] at hdecode
      refine ⟨p', hp', hkey.trans hdecode.symm, ?_⟩
      rw [hread, hfind]

theorem finds_iff {fault : Option String} {cfg : PeerConfig} {wg : WGDevice} {d : Dump}
    (hok : (WGDevice.upsertPeer keyBytes fault cfg wg).1 = .ok ())
    (hd : d.Reports (WGDevice.upsertPeer keyBytes fault cfg wg).2) :
    Finds d cfg.publicKey ↔ Canonical cfg.publicKey := by
  unfold WGDevice.upsertPeer at hok
  split at hok
  · cases hok
  · next key hkey =>
    split at hok
    · cases hok
    · have hthere := (hd key).mp ((WGDevice.isSome_lookup_upsertPeer hkey key).mpr (.inl rfl))
      rw [finds_iff_encode hkey hthere]
      exact encodeToString_eq_iff (decodeString_of_keyBytes hkey)

end UAPI

end NexusVPN.Client
