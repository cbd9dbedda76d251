import NexusVPN.Basic

/-! # Relay wire protocol

    `relay/udprelay/protocol.go`, which `client/internal/relayproxy/protocol.go`
    duplicates byte for byte: the frame layout both ends of a relayed path
    speak.  Every datagram starts with a one-byte frame type; BIND and DATA
    frames carry a sixteen-byte device id after it. -/

namespace NexusVPN.Relay

open List

/-! ## Frame types -/

def frameBind : UInt8 := 0x01
def frameBindAck : UInt8 := 0x02
def frameData : UInt8 := 0x03
def frameKeepalive : UInt8 := 0x04
def frameError : UInt8 := 0x05

/-- The frame type byte plus the device UUID of BIND and DATA frames. -/
def headerLen : Nat := 1 + 16

/-- The size of the read buffer on both ends. -/
def maxPacketSize : Nat := 1500 + headerLen

/-- `ErrShortFrame`, the only error the decoders return. -/
inductive FrameError where
  | short

/-! ## Encoding -/

def encodeBind (deviceID : UUID) (sessionToken : Bytes) : Bytes :=
  frameBind :: (deviceID.bytes ++ sessionToken)

def encodeBindAck : Bytes := [frameBindAck]

def encodeKeepalive : Bytes := [frameKeepalive]

/-- The UTF-8 bytes of a string. -/
def utf8 (s : String) : Bytes := s.toUTF8.data.toList

def encodeError (reason : String) : Bytes := frameError :: utf8 reason

def encodeData (peerID : UUID) (payload : Bytes) : Bytes := frameData :: (peerID.bytes ++ payload)

theorem take_encodeData (peer : UUID) (payload : Bytes) :
    (encodeData peer payload).take maxPacketSize = encodeData peer (payload.take 1500) := by
  have hlen := peer.length_eq
  simp [encodeData, maxPacketSize, headerLen, take_append, hlen,
    take_of_length_le (show peer.bytes.length ≤ 1516 by omega)]

/-! ## Decoding -/

/-- BIND and DATA share their layout; `typ` is the type byte expected. -/
def decodeHeader (typ : UInt8) (frame : Bytes) : Except FrameError (UUID × Bytes) :=
  if frame.length < headerLen ∨ frame.head? ≠ some typ then .error .short
  else .ok (UUID.ofBytes ((frame.drop 1).take 16), frame.drop headerLen)

/-- The device id and the session token of a BIND frame. -/
def decodeBind (frame : Bytes) : Except FrameError (UUID × Bytes) := decodeHeader frameBind frame

/-- The device id and the opaque payload of a DATA frame. -/
def decodeData (frame : Bytes) : Except FrameError (UUID × Bytes) := decodeHeader frameData frame

/-- `copy(frame[1:headerLen], senderID[:])`: a frame addressed to a peer becomes
    a frame stamped by its sender. -/
def rewriteDataPeer (frame : Bytes) (senderID : UUID) : Bytes :=
  frame.take 1 ++ senderID.bytes ++ frame.drop headerLen

/-! ## Round trips -/

variable {id : UUID} {frame payload : Bytes}

theorem decodeHeader_ok_iff {typ : UInt8} {rest : Bytes} :
    decodeHeader typ frame = .ok (id, rest) ↔ frame = typ :: (id.bytes ++ rest) := by
  unfold decodeHeader
  constructor
  · intro h
    split at h
    · cases h
    · next hcond =>
      obtain ⟨hlen, hhead⟩ := not_or.mp hcond
      rw [Nat.not_lt] at hlen
      rw [not_not] at hhead
      obtain ⟨hid, hrest⟩ := Prod.mk.inj (Except.ok.inj h)
      cases frame with
      | nil => simp at hhead
      | cons b tl =>
        have hb : b = typ := Option.some.inj hhead
        have htl : 16 ≤ tl.length := by simp [headerLen] at hlen; omega
        -- The id is read from the 16 bytes behind the type.
        have hbytes : id.bytes = tl.take 16 := by
          rw [← hid]
          simp only [UUID.ofBytes, drop_one, tail_cons]
          rw [take_append_of_le_length (by simp; omega), take_take, Nat.min_self]
        rw [hb, hbytes, ← hrest]
        simp [headerLen]
  · rintro rfl
    have hlen := id.length_eq
    rw [if_neg (by simp [headerLen, hlen])]
    have htake : (id.bytes ++ rest).take 16 = id.bytes := take_left' hlen
    have hdrop : (id.bytes ++ rest).drop 16 = rest := drop_left' hlen
    simp [headerLen, htake, hdrop]

theorem decodeBind_ok_iff {rawToken : Bytes} :
    decodeBind frame = .ok (id, rawToken) ↔ frame = encodeBind id rawToken :=
  decodeHeader_ok_iff

theorem decodeData_ok_iff : decodeData frame = .ok (id, payload) ↔ frame = encodeData id payload :=
  decodeHeader_ok_iff

@[simp] theorem decodeBind_encodeBind (id : UUID) (tok : Bytes) :
    decodeBind (encodeBind id tok) = .ok (id, tok) := decodeBind_ok_iff.mpr rfl

@[simp] theorem decodeData_encodeData (id : UUID) (payload : Bytes) :
    decodeData (encodeData id payload) = .ok (id, payload) := decodeData_ok_iff.mpr rfl

/-! ## Stamping -/

@[simp] theorem rewriteDataPeer_encodeData (id senderID : UUID) (payload : Bytes) :
    rewriteDataPeer (encodeData id payload) senderID = encodeData senderID payload := by
  have hdrop : (id.bytes ++ payload).drop 16 = payload := drop_left' id.length_eq
  simp [rewriteDataPeer, encodeData, headerLen, hdrop]

theorem rewriteDataPeer_getElem? (h : decodeData frame = .ok (id, payload)) (senderID : UUID)
    (i : Nat) :
    (rewriteDataPeer frame senderID)[i]? =
      if 1 ≤ i ∧ i ≤ 16 then senderID.bytes[i - 1]? else frame[i]? := by
  rw [decodeData_ok_iff] at h
  subst h
  rw [rewriteDataPeer_encodeData]
  have hs := senderID.length_eq
  have hid := id.length_eq
  cases i with
  | zero => simp [encodeData]
  | succ j =>
    simp only [encodeData, getElem?_cons_succ, Nat.add_sub_cancel]
    by_cases hj : j < 16
    · rw [if_pos ⟨by omega, by omega⟩, getElem?_append_left (by omega)]
    · rw [if_neg (by omega), getElem?_append_right (by omega),
        getElem?_append_right (by omega), hs, hid]

theorem eq_encodeData_of_stamped {out : Bytes} {senderID : UUID}
    (hdec : decodeData frame = .ok (id, payload)) (hbytes : ∀ i : Nat, out[i]? =
      if 1 ≤ i ∧ i ≤ 16 then senderID.bytes[i - 1]? else frame[i]?) :
    out = encodeData senderID payload := by
  apply ext_getElem?
  intro i
  rw [hbytes, ← rewriteDataPeer_getElem? hdec senderID, decodeData_ok_iff.mp hdec,
    rewriteDataPeer_encodeData]

end NexusVPN.Relay
