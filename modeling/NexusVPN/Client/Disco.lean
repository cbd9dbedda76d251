import Mathlib.Data.List.Induction
import NexusVPN.Lib.GoMap
import NexusVPN.Net

/-! # Peer discovery

    `client/internal/disco`: small packets on the socket of WireGuard.  `Bind` takes them out
    of what is received, and `Prober` matches the pongs to the pings that it has sent. -/

namespace NexusVPN.Client.Disco

open List Option

/-! ## Packets -/

def magic : Bytes := [0x4e, 0x58, 0x64, 0x69, 0x73, 0x63]

def typePing : UInt8 := 1
def typePong : UInt8 := 2

/-- `TxID`: exactly eight bytes. -/
structure TxID where
  bytes : Bytes
  length_eq : bytes.length = 8
deriving DecidableEq

/-- `var id TxID; copy(id[:], b)`. -/
def TxID.ofBytes (b : Bytes) : TxID := ⟨(b ++ replicate 8 0).take 8, by simp⟩

structure Message where
  type : UInt8
  txID : TxID
  sender : UUID

def packetLen : Nat := magic.length + 1 + 8 + 16

def isDisco (b : Bytes) : Bool := decide (magic.length ≤ b.length) && b.take magic.length == magic

def encode (msgType : UInt8) (txID : TxID) (sender : UUID) : Bytes :=
  magic ++ msgType :: (txID.bytes ++ sender.bytes)

/-- `Decode`; the only error is `ErrNotDisco`. -/
def decode (b : Bytes) : Option Message :=
  if !isDisco b || decide (b.length < packetLen) then none
  else
    let msg : Message := ⟨b.getD magic.length 0, .ofBytes (b.drop (magic.length + 1)),
      .ofBytes (b.drop (magic.length + 1 + 8))⟩
    if msg.type ≠ typePing ∧ msg.type ≠ typePong then none else some msg

/-- `txIDKey`: the bytes as a big-endian number. -/
def txIDKey (id : TxID) : Nat := id.bytes.foldl (fun n b => n * 256 + b.toNat) 0

theorem foldl_bytes_inj (a b : Bytes) (m n : Nat) (hlen : a.length = b.length)
    (h : a.foldl (fun n b => n * 256 + b.toNat) m = b.foldl (fun n b => n * 256 + b.toNat) n) :
    m = n ∧ a = b := by
  induction a generalizing b m n with
  | nil =>
    obtain rfl := length_eq_zero_iff.mp hlen.symm
    exact ⟨h, rfl⟩
  | cons x a ih =>
    obtain ⟨y, b, rfl⟩ := exists_cons_of_length_eq_add_one hlen.symm
    obtain ⟨hdigit, rfl⟩ := ih b _ _ (by simpa using hlen) h
    dsimp only at hdigit
    have hx := x.toNat_lt
    have hy := y.toNat_lt
    obtain rfl : x = y := UInt8.toNat_inj.mp (by omega)
    exact ⟨by omega, rfl⟩

theorem txIDKey_inj {x y : TxID} (h : txIDKey x = txIDKey y) : x = y := by
  obtain ⟨a, ha⟩ := x
  obtain ⟨b, hb⟩ := y
  obtain ⟨-, rfl⟩ := foldl_bytes_inj a b 0 0 (ha.trans hb.symm) h
  rfl

/-! ## Receiving -/

section

variable {E σ : Type}

/-- `packets[i]`, `sizes[i]` and `eps[i]`. -/
structure Slot (E : Type) where
  buffer : Bytes
  size : Nat
  endpoint : E

def Slot.packet (s : Slot E) : Bytes := s.buffer.take s.size

/-- `copy(dst, src)`. -/
def copyInto (dst src : Bytes) : Bytes := src.take dst.length ++ dst.drop src.length

/-- `Bind`: the address of an endpoint, and the handler, which may change a state. -/
structure Bind (E σ : Type) where
  addrPort : E → UDPAddr
  handler : Message → UDPAddr → σ → σ

def Bind.dispatch (b : Bind E σ) (s : Slot E) (st : σ) : σ :=
  match decode s.packet with
  | none => st
  | some msg => b.handler msg (b.addrPort s.endpoint) st

/-- The variables of the loop in `intercept`. -/
structure Batch (E σ : Type) where
  slots : List (Slot E)
  kept : Nat
  state : σ

def Bind.round (b : Bind E σ) (v : Batch E σ) (i : Nat) : Batch E σ :=
  match v.slots[i]? with
  | none => v
  | some s =>
    if isDisco s.packet then { v with state := b.dispatch s v.state }
    else
      { v with
        slots := if v.kept ≠ i then
            v.slots.modify v.kept fun d => ⟨copyInto d.buffer s.packet, s.size, s.endpoint⟩
          else v.slots
        kept := v.kept + 1 }

/-- `intercept`, when `fn` has returned `n` and no error. -/
def Bind.intercept (b : Bind E σ) (n : Nat) (slots : List (Slot E)) (st : σ) : Batch E σ :=
  (range n).foldl b.round ⟨slots, 0, st⟩

/-- What a slot says to the caller. -/
def Slot.view (s : Slot E) : Bytes × Nat × E := (s.packet, s.size, s.endpoint)

theorem decode_encode {t : UInt8} (ht : t = typePing ∨ t = typePong) (x : TxID) (s : UUID) :
    decode (encode t x s) = some ⟨t, x, s⟩ := by
  obtain ⟨x, hx⟩ := x
  obtain ⟨s, hs⟩ := s
  rcases ht with rfl | rfl <;>
    simp [decode, encode, isDisco, magic, packetLen, typePing, typePong, TxID.ofBytes,
      UUID.ofBytes, hx, hs]

variable {b : Bind E σ}

theorem packet_copyInto {s d : Slot E} (hs : s.size ≤ s.buffer.length)
    (hd : s.size ≤ d.buffer.length) :
    Slot.view ⟨copyInto d.buffer s.packet, s.size, s.endpoint⟩ = s.view := by
  have hlen : s.packet.length = s.size := length_take_of_le hs
  have hcopy : copyInto d.buffer s.packet = s.packet ++ d.buffer.drop s.size := by
    rw [copyInto, hlen, take_of_length_le (by omega)]
  rw [Slot.view, Slot.view, Slot.packet, hcopy, take_left' hlen]

/-- The slots are what is kept, a gap that may be overwritten, and what is still to be read. -/
theorem foldl_round (kept gap rest tail : List (Slot E)) (st : σ)
    (hfits : ∀ s ∈ rest, ∀ d ∈ gap ++ rest, s.size ≤ d.buffer.length) :
    ∃ kept' gap', (range' (kept.length + gap.length) rest.length).foldl b.round
        ⟨kept ++ gap ++ rest ++ tail, kept.length, st⟩ =
      ⟨kept ++ kept' ++ gap' ++ tail, kept.length + kept'.length,
        rest.foldl (fun st s => b.dispatch s st) st⟩ ∧
      kept'.map Slot.view = (rest.filter fun s => !isDisco s.packet).map Slot.view := by
  induction rest generalizing kept gap st with
  | nil => exact ⟨[], gap, by simp⟩
  | cons s rest ih =>
    have hget : (kept ++ gap ++ s :: rest ++ tail)[kept.length + gap.length]? = some s := by
      rw [append_assoc _ (s :: rest), getElem?_append_right (by simp)]
      simp
    have hrest : ∀ s' ∈ rest, ∀ d ∈ gap ++ s :: rest, s'.size ≤ d.buffer.length :=
      fun s' hs' => hfits s' (.tail _ hs')
    rw [length_cons, range'_succ, foldl_cons, foldl_cons, Bind.round]
    simp only [hget]
    cases hdisco : isDisco s.packet with
    | true =>
      obtain ⟨kept', gap', hrun, hviews⟩ := ih kept (gap ++ [s]) (b.dispatch s st)
        (by simpa using hrest)
      exact ⟨kept', gap', by simpa [Nat.add_assoc] using hrun, by simpa [hdisco] using hviews⟩
    | false =>
      have hsame : b.dispatch s st = st := by simp [Bind.dispatch, decode, hdisco]
      rw [hsame]
      cases gap with
      | nil =>
        obtain ⟨kept', gap', hrun, hviews⟩ := ih (kept ++ [s]) [] st
          fun s' hs' d hd => hrest s' hs' d (.tail _ hd)
        exact ⟨s :: kept', gap', by simpa [Nat.add_assoc, Nat.add_comm 1] using hrun,
          by simp [hdisco, hviews]⟩
      | cons d gap =>
        let s' : Slot E := ⟨copyInto d.buffer s.packet, s.size, s.endpoint⟩
        have hcopied : s'.view = s.view :=
          packet_copyInto (hfits s (.head _) s (by simp)) (hfits s (.head _) d (by simp))
        obtain ⟨kept', gap', hrun, hviews⟩ := ih (kept ++ [s']) (gap ++ [s]) st
          fun s₁ hs₁ d₁ hd₁ => hrest s₁ hs₁ d₁ (mem_cons_of_mem _ (by simpa using hd₁))
        refine ⟨s' :: kept', gap', ?_, by simp [hdisco, hviews, hcopied]⟩
        have hmodify : (kept ++ d :: gap ++ s :: rest ++ tail).modify kept.length
            (fun d => ⟨copyInto d.buffer s.packet, s.size, s.endpoint⟩) =
            kept ++ [s'] ++ (gap ++ [s]) ++ rest ++ tail := by
          rw [modify_eq_take_drop]
          simp [s']
        simp only [hmodify]
        simpa [Nat.add_assoc, Nat.add_comm 1] using hrun

/-- What is left of a batch are the packets that are no disco packets, in order and as they
    were; the handler sees what `Decode` accepts, and that is what `Encode` has written. -/
theorem intercept_exact (b : Bind E σ) (n : Nat) (slots : List (Slot E)) (st : σ)
    (hn : n ≤ slots.length)
    (hfits : ∀ s ∈ slots.take n, ∀ d ∈ slots.take n, s.size ≤ d.buffer.length) :
    let v := b.intercept n slots st
    let own := (slots.take n).filter fun s => !isDisco s.packet
    v.kept = own.length ∧ (v.slots.take v.kept).map Slot.view = own.map Slot.view ∧
      v.state = ((slots.take n).filterMap fun s =>
        (decode s.packet).map (·, b.addrPort s.endpoint)).foldl
          (fun st m => b.handler m.1 m.2 st) st ∧
      ∀ t x s, t = typePing ∨ t = typePong → decode (encode t x s) = some ⟨t, x, s⟩ := by
  obtain ⟨kept', gap', hrun, hviews⟩ := foldl_round (b := b) [] [] (slots.take n) (slots.drop n) st
    hfits
  have hbatch : b.intercept n slots st = ⟨kept' ++ gap' ++ slots.drop n, kept'.length,
      (slots.take n).foldl (fun st s => b.dispatch s st) st⟩ := by
    simpa [Bind.intercept, range_eq_range', length_take_of_le hn] using hrun
  rw [hbatch]
  refine ⟨by simpa using congrArg length hviews, by simpa using hviews, ?_,
    fun t x s ht => decode_encode ht x s⟩
  rw [foldl_filterMap]
  show foldl _ st _ = foldl _ st _
  congr 1
  funext st s
  rw [Bind.dispatch]
  cases decode s.packet <;> rfl

/-- A ping, and a packet of WireGuard. -/
def pingBatch : List (Slot Unit) :=
  [⟨encode typePing (.ofBytes [1]) .nil, 31, ()⟩, ⟨[4, 0, 0, 0, 7] ++ replicate 26 0, 5, ()⟩]

/-- The packet moves down, and the handler counts the ping. -/
theorem intercept_exact_ping :
    let v := Bind.intercept ⟨fun _ => ⟨[], 0⟩, fun _ _ st => st + 1⟩ 2 pingBatch 0
    v.kept = 1 ∧ (v.slots.take v.kept).map Slot.view = [([4, 0, 0, 0, 7], 5, ())] ∧
      v.state = 1 := by
  obtain ⟨hkept, hviews, hstate, -⟩ := intercept_exact
    ⟨fun _ => ⟨[], 0⟩, fun _ _ st => st + 1⟩ 2 pingBatch 0 (by decide) (by decide)
  exact ⟨hkept, hviews, hstate⟩

end

/-! ## The prober -/

structure InflightPing where
  peer : UDPAddr
  sent : Time

structure Result where
  addr : UDPAddr
  rtt : Int
  seenAt : Time

structure Prober where
  selfID : UUID
  inflight : GoMap Nat InflightPing
  results : GoMap UUID Result

namespace Prober

/-- `NewProber`. -/
def new (selfID : UUID) : Prober := ⟨selfID, ∅, ∅⟩

/-- `Ping`, and the packet that is sent to `addr`. -/
def ping (p : Prober) (addr : UDPAddr) (txID : TxID) (now : Time) : Prober × Bytes :=
  ({ p with inflight := p.inflight.insert (txIDKey txID) ⟨addr, now⟩ },
    encode typePing txID p.selfID)

/-- `onPacket`, and the packet that is sent back; the clock is read twice. -/
def onPacket (p : Prober) (msg : Message) (src : UDPAddr) (since now : Time) :
    Prober × Option Bytes :=
  if msg.type = typePing then (p, some (encode typePong msg.txID p.selfID))
  else if msg.type = typePong then
    match p.inflight.lookup (txIDKey msg.txID) with
    | none => (p, none)
    | some sent =>
      ({ p with inflight := p.inflight.erase (txIDKey msg.txID)
                results := p.results.insert msg.sender ⟨src, since.sub sent.sent, now⟩ }, none)
  else (p, none)

def forget (p : Prober) (peer : UUID) : Prober := { p with results := p.results.erase peer }

def expireInflight (p : Prober) (ord : MapOrder Nat) (maxAge : Int) (now : Time) : Prober :=
  let cutoff : Time := now - maxAge
  { p with inflight := GoMap.deleteLoop ord (fun _ ping => decide (ping.sent < cutoff)) p.inflight }

end Prober

/-- What happens to a prober.  A packet comes in through `dispatch`. -/
inductive Step where
  | ping (addr : UDPAddr) (txID : TxID) (now : Time)
  | expireInflight (ord : MapOrder Nat) (maxAge : Int) (now : Time)
  | forget (peer : UUID)
  | packet (b : Bytes) (src : UDPAddr) (since now : Time)

namespace Prober

def step (p : Prober) : Step → Prober
  | .ping addr txID now => (p.ping addr txID now).1
  | .expireInflight ord maxAge now => p.expireInflight ord maxAge now
  | .forget peer => p.forget peer
  | .packet b src since now =>
    match decode b with
    | none => p
    | some msg => (p.onPacket msg src since now).1

/-- The pong that comes in with this step, and the ping in flight that it is recorded for. -/
def answered (p : Prober) : Step → Option (Message × InflightPing)
  | .packet b _ _ _ => (decode b).bind fun msg =>
    if msg.type = typePong then (p.inflight.lookup (txIDKey msg.txID)).map (msg, ·) else none
  | _ => none

end Prober

/-! ## What results rest on -/

/-- A pong with that transaction id. -/
def Answers (x : TxID) : Step → Prop
  | .packet b _ _ _ => ∃ msg ∈ decode b, msg.type = typePong ∧ msg.txID = x
  | _ => False

/-- A ping of that time expires. -/
def Expires (sent : Time) : Step → Prop
  | .expireInflight _ maxAge now => sent < now - maxAge
  | _ => False

/-- A ping with that transaction id was sent at that time, and has neither expired nor been
    answered. -/
def Awaited (before : List Step) (x : TxID) (sent : Time) : Prop :=
  ∃ l addr r, before = l ++ .ping addr x sent :: r ∧ ∀ a ∈ r, ¬Answers x a ∧ ¬Expires sent a

def pingID : Step → Option TxID
  | .ping _ x _ => some x
  | _ => none

/-- What a step after `before` may do to the results. -/
structure Backed (before : List Step) (p : Prober) (a : Step) : Prop where
  /-- A result comes from a pong to a ping that is awaited. -/
  recorded : ∀ msg ping, p.answered a = some (msg, ping) → ∃ b src since now,
    a = .packet b src since now ∧ decode b = some msg ∧ msg.type = typePong ∧
      Awaited before msg.txID ping.sent ∧
      (p.step a).results = p.results.insert msg.sender ⟨src, since.sub ping.sent, now⟩
  /-- Nothing else changes them, but for `Forget`. -/
  unchanged : p.answered a = none → (∀ peer, a ≠ .forget peer) → (p.step a).results = p.results
  /-- Pings never do. -/
  pings : ∀ b src since now msg, a = .packet b src since now → decode b = some msg →
    msg.type = typePing → (p.step a).results = p.results

variable {p : Prober} {a : Step} {before : List Step} {k : Nat} {ping : InflightPing}

open Prober

/-- A pong that is recorded uses up its ping. -/
theorem of_answered {msg : Message} (h : p.answered a = some (msg, ping)) :
    ∃ b src since now, a = .packet b src since now ∧ decode b = some msg ∧ msg.type = typePong ∧
      p.inflight.lookup (txIDKey msg.txID) = some ping ∧ p.step a =
        { p with inflight := p.inflight.erase (txIDKey msg.txID)
                 results := p.results.insert msg.sender ⟨src, since.sub ping.sent, now⟩ } := by
  cases a with
  | packet b src since now =>
    obtain ⟨msg', hdec, h⟩ := bind_eq_some_iff.mp h
    obtain ⟨hpong, h⟩ := ite_none_right_eq_some.mp h
    obtain ⟨ping', hlook, heq⟩ := map_eq_some_iff.mp h
    cases heq
    refine ⟨b, src, since, now, rfl, hdec, hpong, hlook, ?_⟩
    simp [Prober.step, onPacket, hdec, hpong, hlook, typePing, typePong]
  | _ => cases h

/-- Any other packet leaves everything as it is. -/
theorem step_of_not_answered {b : Bytes} {src : UDPAddr} {since now : Time}
    (h : p.answered (.packet b src since now) = none) : p.step (.packet b src since now) = p := by
  simp only [Prober.step]
  cases hdec : decode b with
  | none => rfl
  | some msg =>
    simp only [onPacket]
    split
    · rfl
    · split
      · next hpong =>
        have hnone : p.inflight.lookup (txIDKey msg.txID) = none := by
          simpa [answered, hdec, hpong] using h
        rw [hnone]
      · rfl

/-- What is in flight after a step has just been sent, or is still awaited. -/
theorem inflight_step (h : (p.step a).inflight.lookup k = some ping) :
    (∃ x, a = .ping ping.peer x ping.sent ∧ txIDKey x = k) ∨
      p.inflight.lookup k = some ping ∧ (∀ x, txIDKey x = k → ¬Answers x a) ∧
        ¬Expires ping.sent a := by
  cases a with
  | ping addr x now =>
    simp only [Prober.step, Prober.ping] at h
    rw [GoMap.lookup_insert_if] at h
    split at h
    · next heq =>
      cases h
      exact .inl ⟨x, rfl, heq.symm⟩
    · exact .inr ⟨h, fun _ _ => id, id⟩
  | forget peer => exact .inr ⟨h, fun _ _ => id, id⟩
  | expireInflight ord maxAge now =>
    simp only [Prober.step, expireInflight] at h
    rw [GoMap.lookup_deleteLoop] at h
    obtain ⟨hold, hkept⟩ := filter_eq_some_iff.mp h
    exact .inr ⟨hold, fun _ _ => id, by simpa [Expires] using hkept⟩
  | packet b src since now =>
    cases hans : p.answered (.packet b src since now) with
    | none =>
      rw [step_of_not_answered hans] at h
      refine .inr ⟨h, ?_, id⟩
      rintro _ rfl ⟨msg, hmsg, hpong, rfl⟩
      simp [answered, mem_def.mp hmsg, hpong, h] at hans
    | some found =>
      obtain ⟨_, _, _, _, ⟨⟩, hmsg, -, -, hstep⟩ := of_answered hans
      rw [hstep] at h
      dsimp only at h
      rw [GoMap.lookup_erase_if] at h
      obtain ⟨hne, hold⟩ := ite_none_left_eq_some.mp h
      refine .inr ⟨hold, ?_, id⟩
      rintro x rfl ⟨_, hmsg', -, rfl⟩
      cases hmsg.symm.trans hmsg'
      exact hne rfl

theorem Awaited.step {x : TxID} {sent : Time} (h : Awaited before x sent) (hans : ¬Answers x a)
    (hexp : ¬Expires sent a) : Awaited (before ++ [a]) x sent := by
  obtain ⟨l, addr, r, rfl, hr⟩ := h
  refine ⟨l, addr, r ++ [a], by simp, ?_⟩
  exact forall_mem_append.mpr ⟨hr, forall_mem_singleton.mpr ⟨hans, hexp⟩⟩

/-- Whatever is in flight is awaited. -/
theorem awaited_of_inflight (selfID : UUID)
    (h : (before.foldl Prober.step (.new selfID)).inflight.lookup k = some ping) :
    ∃ x, txIDKey x = k ∧ Awaited before x ping.sent := by
  induction before using reverseRecOn generalizing k ping with
  | nil => cases h
  | append_singleton before a ih =>
    rw [foldl_append] at h
    rcases inflight_step h with ⟨x, rfl, hx⟩ | ⟨hold, hans, hexp⟩
    · exact ⟨x, hx, before, ping.peer, [], rfl, by simp⟩
    · obtain ⟨x, hx, hawait⟩ := ih hold
      exact ⟨x, hx, hawait.step (hans x hx) hexp⟩

/-- Once a ping is out of flight, it stays so until its id is used again. -/
theorem not_inflight (as : List Step) (hout : p.inflight.lookup k = none)
    (has : ∀ x, txIDKey x = k → ∀ addr now, .ping addr x now ∉ as) :
    (as.foldl Prober.step p).inflight.lookup k = none := by
  refine foldlRecOn (motive := fun q : Prober => q.inflight.lookup k = none) as _ hout ?_
  intro q hq a ha
  by_contra hin
  obtain ⟨ping, hping⟩ := ne_none_iff_exists'.mp hin
  rcases inflight_step hping with ⟨x, rfl, hx⟩ | ⟨hold, -⟩
  · exact has x hx _ _ ha
  · rw [hq] at hold
    cases hold

theorem backed (selfID : UUID) (before : List Step) (a : Step) :
    Backed before (before.foldl Prober.step (.new selfID)) a where
  recorded msg ping h := by
    obtain ⟨b, src, since, now, rfl, hmsg, hpong, hlook, hstep⟩ := of_answered h
    obtain ⟨x, hx, hawait⟩ := awaited_of_inflight selfID hlook
    obtain rfl := txIDKey_inj hx
    exact ⟨b, src, since, now, rfl, hmsg, hpong, hawait, by rw [hstep]⟩
  unchanged hnone hforget := by
    cases a with
    | ping | expireInflight => rfl
    | forget peer => exact absurd rfl (hforget peer)
    | packet => rw [step_of_not_answered hnone]
  pings b src since now msg ha hmsg hping := by
    subst ha
    rw [step_of_not_answered]
    simp [answered, hmsg, hping, typePing, typePong]

/-- Every result is backed by a ping that was still awaited, and if no transaction id is used
    twice, every ping yields one result at most. -/
theorem results_backed (selfID : UUID) (as : List Step) (hids : (as.filterMap pingID).Nodup) :
    (∀ l a r, as = l ++ a :: r → Backed l (l.foldl Prober.step (.new selfID)) a) ∧
    ∀ l a l' a' r msg msg' ping ping', as = l ++ a :: (l' ++ a' :: r) →
      (l.foldl Prober.step (.new selfID)).answered a = some (msg, ping) →
      ((l ++ a :: l').foldl Prober.step (.new selfID)).answered a' = some (msg', ping') →
      msg.txID ≠ msg'.txID := by
  refine ⟨fun l a r _ => backed selfID l a, ?_⟩
  intro l a l' a' r msg msg' ping ping' has hans hans' heq
  obtain ⟨_, _, _, _, -, -, -, hawait, -⟩ := (backed selfID l a).recorded msg ping hans
  obtain ⟨_, _, _, _, -, -, -, hlook, -⟩ := of_answered hans'
  have hout : ((l ++ a :: l').foldl Prober.step (.new selfID)).inflight.lookup
      (txIDKey msg.txID) = none := by
    rw [foldl_append]
    refine not_inflight l' ?_ ?_
    · obtain ⟨_, _, _, _, -, -, -, -, hstep⟩ := of_answered hans
      rw [hstep]
      exact AList.lookup_erase _ _
    · -- The id belongs to a ping that came before the pong.
      intro x hx addr now hmem
      obtain rfl := txIDKey_inj hx
      obtain ⟨u, addr', v, rfl, -⟩ := hawait
      rw [has, filterMap_append] at hids
      exact disjoint_of_nodup_append hids (mem_filterMap.mpr ⟨_, mem_append_right _ (.head _), rfl⟩)
        (mem_filterMap.mpr ⟨_, .tail _ (mem_append_left _ hmem), rfl⟩)
  rw [← heq, hout] at hlook
  cases hlook

def aTxID : TxID := .ofBytes [1]

/-- A pong is recorded, and what the peer sends again is not. -/
theorem results_backed_once :
    let peer : UUID := .ofBytes [2]
    let pong : Step := .packet (encode typePong aTxID peer) ⟨[192, 0, 2, 1], 51820⟩ 30 31
    let l : List Step := [.ping ⟨[192, 0, 2, 1], 51820⟩ aTxID 10]
    Backed l (l.foldl Prober.step (.new .nil)) pong ∧
      ((l.foldl Prober.step (.new .nil)).answered pong).isSome ∧
      ((l ++ [pong]).foldl Prober.step (.new .nil)).answered pong = none :=
  ⟨(results_backed .nil [_, _] (by decide)).1 [_] _ [] rfl, by decide, by decide⟩

end NexusVPN.Client.Disco
