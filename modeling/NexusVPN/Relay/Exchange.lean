import Mathlib.Algebra.BigOperators.Group.Multiset.Basic
import Mathlib.Algebra.GroupWithZero.Nat
import NexusVPN.Client.RelayProxy
import NexusVPN.Relay.Server
import NexusVPN.Relay.SessionSpec

/-! # The BIND/ERROR exchange

    The relay answers a BIND that it refuses with an ERROR, and the proxy answers every ERROR
    with a BIND.  Left alone, without WireGuard traffic, keepalives or sweeps, the two come to
    rest exactly when the relay would accept the proxy's BIND, or when nothing in flight
    starts the exchange. -/

namespace NexusVPN.Relay

open List Client Nat SessionTable Machine Or

variable {Addr LAddr : Type} [DecidableEq Addr]

/-! ## One proxy and the relay -/

/-- The frames that the relay wrote to `a`, among the calls in the log. -/
def writtenTo (a : Addr) (log : List (Event Addr)) : List Bytes :=
  log.filterMap fun
    | ⟨_, .writeToUDP frame d, _, true⟩ => if d = a then some frame else none
    | _ => none

/-- Run a handler for `frame` from `a` to its end, with `w` for clock and socket: the
    table afterwards, and the frames that have gone back to `a`. -/
def handled (a : Addr) (frame : Bytes) (p : RelayM Addr Unit) (w : Nat → RelayInput)
    (s : SessionTable Addr × List (Event Addr)) : SessionTable Addr × List Bytes :=
  let r := Prog.exec (Prog.logged relayHandler (a, frame)) p w s
  (r.2.1, writtenTo a r.2.2)

/-- The relay takes a datagram from `a` off its socket and handles it. -/
def relayRound (verify : Verify) (a : Addr) (datagram : Bytes)
    (w : Nat → RelayInput) (t : SessionTable Addr) : SessionTable Addr × List Bytes :=
  let frame := datagram.take maxPacketSize
  if frame = [] then (t, []) else handled a frame (handlePacket verify frame a) w (t, [])

/-- What goes to the relay, among the things that a proxy wrote. -/
def relayFrames (outs : List (Emit LAddr)) : List Bytes :=
  outs.filterMap fun
    | .toRelay frame => some frame
    | .toWireGuard _ _ => none

/-- The proxy, the relay's table, and the frames in flight between them. -/
structure Exchange (Addr LAddr : Type) where
  table : SessionTable Addr
  proxy : Proxy LAddr
  toRelay : Multiset Bytes
  toProxy : Multiset Bytes

/-- Deliver one frame and emit the replies; `a` is the proxy's address. -/
inductive Exchange.Step (verify : Verify) (a : Addr) :
    Exchange Addr LAddr → Exchange Addr LAddr → Prop
  | relay {t p u up down} (w : Nat → RelayInput) :
      Step verify a ⟨t, p, u ::ₘ up, down⟩
        ⟨(relayRound verify a u w t).1, p, up, (relayRound verify a u w t).2 + down⟩
  | proxy {t p d up down} (sent : Bool) :
      Step verify a ⟨t, p, up, d ::ₘ down⟩
        ⟨t, (p.pumpRelayToLocal d sent).1, relayFrames (p.pumpRelayToLocal d sent).2 + up, down⟩

/-- The frames that a proxy can send: its BIND, DATA for its peer, KEEPALIVE. -/
inductive ProxyFrame (opts : ProxyOptions) : Bytes → Prop
  | bind : ProxyFrame opts (encodeBind opts.selfDeviceID opts.sessionToken)
  | data (payload : Bytes) : ProxyFrame opts (encodeData opts.peerDeviceID payload)
  | keepalive : ProxyFrame opts encodeKeepalive

open Exchange

/-- The token as it arrives: the relay's read buffer cuts a BIND off. -/
def arrivingToken (opts : ProxyOptions) : Bytes :=
  opts.sessionToken.take (maxPacketSize - headerLen)

/-- The relay would accept the proxy's BIND: the token verifies, it names the proxy's
    device, and the network has a session or there is room for one. -/
def Accepts (verify : Verify) (t : SessionTable Addr) (opts : ProxyOptions) : Prop :=
  ∃ claims, verify (arrivingToken opts) = some claims ∧
    claims.deviceID = opts.selfDeviceID.string ∧ t.Room claims.networkID

def isData (frame : Bytes) : Bool := frame.head? = some frameData

/-- A DATA frame for `peer` that the relay routes at some time `now` finds a lapsed
    binding at `a`, and so takes `a` out of the index. -/
def Unbindable (t : SessionTable Addr) (a : Addr) (peer : UUID) : Prop :=
  ∃ n senderID now d x, t.lookup a = some ⟨n, senderID⟩ ∧
    t.RouteLapsed now n senderID peer d ∧ t.holds n d = some (a, x)

/-- What is in flight starts the exchange: the proxy's BIND, an ERROR, a DATA frame
    from an address that is not bound, or two DATA frames the first of which can
    unbind it. -/
def Exchange.Provoked (a : Addr) (e : Exchange Addr LAddr) : Prop :=
  e.proxy.bindFrame ∈ e.toRelay ∨ (∃ frame ∈ e.toProxy, frame.head? = some frameError) ∨
  (0 < e.toRelay.countP (isData ·) ∧ e.table.lookup a = none) ∨
  (1 < e.toRelay.countP (isData ·) ∧ Unbindable e.table a e.proxy.opts.peerDeviceID)

/-! ## One round of the relay -/

theorem writtenTo_write (a d : Addr) (tag : Addr × Bytes) (frame : Bytes) (i : RelayInput)
    (sent : Bool) (log : List (Event Addr)) :
    writtenTo a (⟨tag, .writeToUDP frame d, i, sent⟩ :: log) =
      if sent = true ∧ d = a then frame :: writtenTo a log else writtenTo a log := by
  cases sent with
  | false => rfl
  | true =>
    by_cases h : d = a
    · simp [writtenTo, h]
    · simp [writtenTo, h]

theorem handled_call (a : Addr) (frame : Bytes) (c : RelayCall Addr)
    (k : (relayIface Addr).Ans c → RelayM Addr Unit) (w : Nat → RelayInput)
    (t : SessionTable Addr) (log : List (Event Addr)) :
    handled a frame (.call c k) w (t, log) =
      handled a frame (k (relayHandler c (w 0) t).1) (fun n => w (n + 1))
        ((relayHandler c (w 0) t).2, ⟨(a, frame), c, w 0, (relayHandler c (w 0) t).1⟩ :: log) := rfl

theorem handled_reply (a : Addr) (frame out : Bytes) (w : Nat → RelayInput)
    (t : SessionTable Addr) (log : List (Event Addr)) :
    handled a frame (reply a out) w (t, log) =
      (t, if (w 0).sent = true then out :: writtenTo a log else writtenTo a log) := by
  show (t, writtenTo a (⟨(a, frame), .writeToUDP out a, w 0, (w 0).sent⟩ :: log)) = _
  rw [writtenTo_write]
  simp

theorem handled_refuse (a : Addr) (frame : Bytes) (reason : String) (w : Nat → RelayInput)
    (t : SessionTable Addr) (log : List (Event Addr)) :
    handled a frame (do recordDropped; reply a (encodeError reason)) w (t, log) =
      (t.recordDropped,
        if (w 1).sent = true then encodeError reason :: writtenTo a log else writtenTo a log) :=
  handled_reply a frame (encodeError reason) (fun n => w (n + 1)) t.recordDropped
    (⟨(a, frame), .recordDropped, w 0, ()⟩ :: log)

omit [DecidableEq Addr] in
theorem recordDropped_sameSessions (t : SessionTable Addr) :
    SameSessions t t.recordDropped := ⟨fun _ => rfl, rfl, rfl⟩

variable {opts : ProxyOptions} {t' : SessionTable Addr} {e : Exchange Addr LAddr}
  {D : String → UUID → Prop} {a : Addr} {t : SessionTable Addr} {verify : Verify}

omit [DecidableEq Addr] in
theorem Accepts.of_sameSessions (h : SameSessions t t') :
    Accepts verify t' opts ↔ Accepts verify t opts := by
  unfold Accepts
  simp only [h.room_iff]

theorem take_encodeBind (opts : ProxyOptions) :
    (encodeBind opts.selfDeviceID opts.sessionToken).take maxPacketSize =
      encodeBind opts.selfDeviceID (arrivingToken opts) := by
  have hlen := opts.selfDeviceID.length_eq
  simp [encodeBind, arrivingToken, maxPacketSize, headerLen, take_append, hlen,
    take_of_length_le (show opts.selfDeviceID.bytes.length ≤ 1516 by omega)]

theorem relayRound_bind (verify : Verify) (a : Addr) (opts : ProxyOptions)
    (w : Nat → RelayInput) (t : SessionTable Addr) :
    relayRound verify a (encodeBind opts.selfDeviceID opts.sessionToken) w t =
      handled a (encodeBind opts.selfDeviceID (arrivingToken opts))
        (handleBind verify (encodeBind opts.selfDeviceID (arrivingToken opts)) a) w (t, []) := by
  unfold relayRound
  rw [take_encodeBind]
  rfl

theorem relayRound_bind_accepted (a : Addr) (w : Nat → RelayInput) (h : Accepts verify t opts) :
    let r := relayRound verify a (encodeBind opts.selfDeviceID opts.sessionToken) w t
    Accepts verify r.1 opts ∧ (r.2 = [] ∨ r.2 = [encodeBindAck]) := by
  obtain ⟨claims, hver, hdev, hroom⟩ := h
  obtain ⟨hok, hroom'⟩ := bind_of_room hroom (w 0).now opts.selfDeviceID a claims.expiresAt
  have hround : relayRound verify a (encodeBind opts.selfDeviceID opts.sessionToken) w t =
      ((t.bind (w 0).now claims.networkID opts.selfDeviceID a claims.expiresAt).2,
        if (w 1).sent = true then [encodeBindAck] else []) := by
    rw [relayRound_bind, handleBind, decodeBind_encodeBind]
    simp only [hver, hdev, ne_eq, not_true_eq_false, if_false]
    rw [handled_call]
    simp only [relayHandler, Claims.sessionKey, hok]
    exact handled_reply a _ _ _ _ _
  rw [hround]
  refine ⟨⟨claims, hver, hdev, hroom'⟩, ?_⟩
  by_cases hsent : (w 1).sent = true
  · simp [hsent]
  · simp [hsent]

open Accepts

theorem relayRound_bind_refused (a : Addr) {w : Nat → RelayInput} (hw : ∀ n, (w n).sent = true)
    (h : ¬ Accepts verify t opts) :
    let r := relayRound verify a (encodeBind opts.selfDeviceID opts.sessionToken) w t
    ¬ Accepts verify r.1 opts ∧ ∃ reason, r.2 = [encodeError reason] := by
  have hround : ∃ reason,
      relayRound verify a (encodeBind opts.selfDeviceID opts.sessionToken) w t =
        (t.recordDropped, [encodeError reason]) := by
    rw [relayRound_bind, handleBind, decodeBind_encodeBind]
    dsimp only
    cases hver : verify (arrivingToken opts) with
    | none =>
      exact ⟨_, by rw [handled_refuse, if_pos (hw 1)]; rfl⟩
    | some claims =>
      dsimp only
      split
      · exact ⟨_, by rw [handled_refuse, if_pos (hw 1)]; rfl⟩
      · next hdev =>
        -- The token is good, so it must be the capacity.
        have hfull : ¬ t.Room claims.networkID :=
          fun hroom => h ⟨claims, hver, not_not.mp hdev, hroom⟩
        rw [handled_call]
        simp only [relayHandler, Claims.sessionKey, bind_of_not_room hfull]
        exact ⟨_, by rw [handled_refuse, if_pos (hw 2)]; rfl⟩
  obtain ⟨reason, hround⟩ := hround
  rw [hround]
  exact ⟨fun hacc => h ((of_sameSessions (recordDropped_sameSessions t)).mp hacc), reason, rfl⟩

theorem relayRound_data (verify : Verify) (a : Addr) (peer : UUID)
    (payload : Bytes) (w : Nat → RelayInput) (t : SessionTable Addr) :
    relayRound verify a (encodeData peer payload) w t =
      handled a (encodeData peer (payload.take 1500))
        (handleData (encodeData peer (payload.take 1500)) a) w (t, []) := by
  unfold relayRound
  rw [take_encodeData]
  rfl

theorem relayRound_data_unbound (verify : Verify) (peer : UUID) (payload : Bytes)
    (w : Nat → RelayInput) (hl : t.lookup a = none) :
    relayRound verify a (encodeData peer payload) w t =
      (t.recordDropped, if (w 2).sent = true then [encodeError "not bound"] else []) := by
  rw [relayRound_data, handleData, handled_call]
  simp only [relayHandler, hl]
  exact handled_refuse a _ _ _ _ _

theorem relayRound_data_bound (verify : Verify) (peer : UUID) (payload : Bytes)
    (w : Nat → RelayInput) {n : String} {senderID : UUID} (hl : t.lookup a = some ⟨n, senderID⟩) :
    let r := relayRound verify a (encodeData peer payload) w t
    SameSessions t r.1 ∧
    Removes (fun n' d => n' = n ∧ t.RouteLapsed (w 1).now n senderID peer d) t r.1 ∧
    (r.2 = [] ∨ ∃ payload', r.2 = [encodeData senderID payload']) := by
  rw [relayRound_data, handleData, handled_call]
  simp only [relayHandler, hl, decodeData_encodeData]
  rw [handled_call]
  have hsame := route_sameSessions t (w 1).now n senderID peer
  have hrem := (route_spec t (w 1).now n senderID peer).1
  have hdrop := recordDropped_sameViews (t.route (w 1).now n senderID peer).2
  simp only [relayHandler]
  cases (t.route (w 1).now n senderID peer).1 with
  | none =>
    exact ⟨hsame.trans (recordDropped_sameSessions _), hrem.sameViews hdrop, inl rfl⟩
  | some dest =>
    rw [handled_call, rewriteDataPeer_encodeData]
    simp only [relayHandler]
    cases hsent : (w 2).sent with
    | false =>
      exact ⟨hsame.trans (recordDropped_sameSessions _), hrem.sameViews hdrop, inl rfl⟩
    | true =>
      refine ⟨hsame.trans ⟨fun _ => rfl, rfl, rfl⟩,
        hrem.sameViews (recordRelayed_sameViews _ _), ?_⟩
      rw [handled_call]
      -- What is forwarded comes back to the proxy only if it bound under both names.
      by_cases hdest : dest = a
      · exact inr ⟨payload.take 1500, by simp [handled, Prog.exec, writtenTo, hdest]⟩
      · exact inl (by simp [handled, Prog.exec, writtenTo, hdest])

theorem relayRound_keepalive (verify : Verify) (a : Addr) (w : Nat → RelayInput)
    (t : SessionTable Addr) :
    let r := relayRound verify a encodeKeepalive w t
    SameSessions t r.1 ∧ SameViews t r.1 ∧ r.2 = [] := by
  have hround : relayRound verify a encodeKeepalive w t =
      handled a encodeKeepalive (handleKeepalive a) w (t, []) := rfl
  rw [hround]
  unfold handleKeepalive
  rw [handled_call]
  simp only [relayHandler]
  cases t.lookup a with
  | none =>
    exact ⟨recordDropped_sameSessions t, recordDropped_sameViews t, rfl⟩
  | some ab =>
    exact ⟨touch_sameSessions t _ _ _, touch_sameViews t _ _ _, rfl⟩

/-! ## Coming to rest -/

/-- What a frame to the relay can still set off: DATA an ERROR, a BIND an
    acknowledgement. -/
def weightUp (frame : Bytes) : Nat :=
  if frame.head? = some frameBind then 2 else if frame.head? = some frameData then 4 else 1

/-- What a frame to the proxy can still set off: an ERROR a BIND. -/
def weightDown (frame : Bytes) : Nat := if frame.head? = some frameError then 3 else 1

def Exchange.weight (e : Exchange Addr LAddr) : Nat :=
  (e.toRelay.map weightUp).sum + (e.toProxy.map weightDown).sum

/-- The frames to the relay are the proxy's, and either the relay would accept its
    BIND or nothing starts the exchange. -/
structure Exchange.Calm (verify : Verify) (a : Addr) (e : Exchange Addr LAddr) : Prop where
  own : ∀ frame ∈ e.toRelay, ProxyFrame e.proxy.opts frame
  rest : Accepts verify e.table e.proxy.opts ∨ ¬ e.Provoked a

theorem Unbindable.of_removes {peer : UUID} (hrem : Removes D t t')
    (h : Unbindable t' a peer) : Unbindable t a peer := by
  have hmono : ∀ {n d v}, t'.holds n d = some v → t.holds n d = some v :=
    fun hv => ((hrem.holds _ _ _).mp hv).1
  obtain ⟨n, senderID, now, d, x, hl, ⟨as, xs, hs, hlapsed⟩, hd⟩ := h
  refine ⟨n, senderID, now, d, x, ((hrem.lookup _ _).mp hl).1, ⟨as, xs, hmono hs, ?_⟩, hmono hd⟩
  rcases hlapsed with hsend | ⟨hx, hpeer, ap, xp, hp, hxp⟩
  · exact inl hsend
  · exact inr ⟨hx, hpeer, ap, xp, hmono hp, hxp⟩

section

variable {p : Proxy LAddr} {up down : Multiset Bytes}

theorem countP_encodeData (peer : UUID) (payload : Bytes) (up : Multiset Bytes) :
    (encodeData peer payload ::ₘ up).countP (isData ·) = up.countP (isData ·) + 1 :=
  Multiset.countP_cons_of_pos _ rfl

variable {u : Bytes}

/-- If nothing starts the exchange and the relay takes a frame that is not a BIND, still
    nothing does: the table has lost at most bindings, the address among them only if
    this was the last DATA frame, and no ERROR has come back. -/
theorem Exchange.not_provoked_of_removes {replies : List Bytes}
    (h : ¬ Provoked a ⟨t, p, u ::ₘ up, down⟩) (hrem : Removes D t t')
    (hkeep : 0 < up.countP (isData ·) → t'.lookup a = none → False)
    (hreply : ∀ frame ∈ replies, frame.head? ≠ some frameError) :
    ¬ Provoked a ⟨t', p, up, replies + down⟩ := by
  have hle : up.countP (isData ·) ≤ (u ::ₘ up).countP (isData ·) :=
    Multiset.countP_le_of_le _ (Multiset.le_cons_self up u)
  rintro (hbind | ⟨frame, hframe, herr⟩ | ⟨hcount, hl⟩ | ⟨hcount, hunb⟩)
  · exact h (inl (Multiset.mem_cons_of_mem hbind))
  · rcases Multiset.mem_add.mp hframe with hnew | hold
    · exact hreply frame (Multiset.mem_coe.mp hnew) herr
    · exact h (inr (inl ⟨frame, hold, herr⟩))
  · exact hkeep hcount hl
  · exact h (inr (inr (inr ⟨lt_of_lt_of_le hcount hle, hunb.of_removes hrem⟩)))

theorem Exchange.Calm.of_removes {replies : List Bytes}
    (h : Calm verify a ⟨t, p, u ::ₘ up, down⟩) (hsame : SameSessions t t')
    (hrem : Removes D t t')
    (hkeep : ¬ Provoked a ⟨t, p, u ::ₘ up, down⟩ → 0 < up.countP (isData ·) →
      t'.lookup a = none → False)
    (hreply : ∀ frame ∈ replies, frame.head? ≠ some frameError) :
    Calm verify a ⟨t', p, up, replies + down⟩ := by
  refine ⟨fun frame hf => h.own frame (Multiset.mem_cons_of_mem hf), ?_⟩
  rcases h.rest with hacc | hno
  · exact inl ((of_sameSessions hsame).mpr hacc)
  · exact inr (not_provoked_of_removes hno hrem (hkeep hno) hreply)

theorem lookup_relayRound_data {ab : AddrBinding} (peer : UUID) (payload : Bytes)
    (w : Nat → RelayInput) (hl : t.lookup a = some ab) (hunb : ¬ Unbindable t a peer) :
    (relayRound verify a (encodeData peer payload) w t).1.lookup a = some ab := by
  obtain ⟨-, hrem, -⟩ := relayRound_data_bound verify peer payload w hl
  refine (hrem.lookup a ab).mpr ⟨hl, ?_⟩
  rintro ⟨n', d, x, ⟨rfl, hlapsed⟩, hd⟩
  exact hunb ⟨_, _, _, d, x, hl, hlapsed, hd⟩

theorem Exchange.Calm.relay_bind (w : Nat → RelayInput)
    (h : Calm verify a ⟨t, p, encodeBind p.opts.selfDeviceID p.opts.sessionToken ::ₘ up, down⟩) :
    let r := relayRound verify a (encodeBind p.opts.selfDeviceID p.opts.sessionToken) w t
    Calm verify a ⟨r.1, p, up, r.2 + down⟩ ∧ (r.2.map weightDown).sum < 2 := by
  -- It is in flight, so the relay must accept it.
  have hacc : Accepts verify t p.opts :=
    h.rest.resolve_right fun hno => hno (inl (Multiset.mem_cons_self _ _))
  obtain ⟨hacc', hreply⟩ := relayRound_bind_accepted a w hacc
  refine ⟨⟨fun frame hf => h.own frame (Multiset.mem_cons_of_mem hf), inl hacc'⟩, ?_⟩
  rcases hreply with hnone | hack
  · rw [hnone]; exact Nat.zero_lt_two
  · rw [hack]; exact Nat.one_lt_two

section

variable {payload : Bytes} (w : Nat → RelayInput)
  (h : Calm verify a ⟨t, p, encodeData p.opts.peerDeviceID payload ::ₘ up, down⟩)
include w h

theorem Exchange.Calm.relay_data_unbound (hl : t.lookup a = none) :
    let r := relayRound verify a (encodeData p.opts.peerDeviceID payload) w t
    Calm verify a ⟨r.1, p, up, r.2 + down⟩ ∧ (r.2.map weightDown).sum < 4 := by
  -- The ERROR that follows is answered by a BIND, so the relay must accept it.
  have hacc : Accepts verify t p.opts := by
    refine h.rest.resolve_right fun hno => hno (inr (inr (inl ⟨?_, hl⟩)))
    exact lt_of_lt_of_eq (zero_lt_succ _) (countP_encodeData _ payload up).symm
  rw [relayRound_data_unbound verify _ payload w hl]
  refine ⟨⟨fun frame hf => h.own frame (Multiset.mem_cons_of_mem hf), inl ?_⟩, ?_⟩
  · exact (of_sameSessions (recordDropped_sameSessions t)).mpr hacc
  · by_cases hsent : (w 2).sent = true
    · rw [if_pos hsent]; exact lt_succ_self 3
    · rw [if_neg hsent]; exact zero_lt_succ 3

theorem Exchange.Calm.relay_data_bound {ab : AddrBinding} (hl : t.lookup a = some ab) :
    let r := relayRound verify a (encodeData p.opts.peerDeviceID payload) w t
    Calm verify a ⟨r.1, p, up, r.2 + down⟩ ∧ (r.2.map weightDown).sum < 4 := by
  obtain ⟨hsame, hrem, hreply⟩ := relayRound_data_bound verify p.opts.peerDeviceID payload w hl
  refine ⟨h.of_removes hsame hrem ?_ ?_, ?_⟩
  · -- Another DATA frame is in flight, so this one cannot unbind the address.
    intro hno hcount hnone
    refine hno (inr (inr (inr ⟨?_, ?_⟩)))
    · exact lt_of_lt_of_eq (succ_lt_succ hcount) (countP_encodeData _ payload up).symm
    · by_contra hunb
      rw [lookup_relayRound_data _ payload w hl hunb] at hnone
      cases hnone
  · intro frame hframe
    rcases hreply with hnil | ⟨payload', hdata⟩
    · rw [hnil] at hframe
      cases hframe
    · rw [hdata, mem_singleton] at hframe
      subst hframe
      simp [encodeData, frameData, frameError]
  · rcases hreply with hnone | ⟨payload', hdata⟩
    · rw [hnone]; exact zero_lt_succ 3
    · rw [hdata]; show 1 < 4; omega

end

theorem Exchange.Calm.relay_keepalive (w : Nat → RelayInput)
    (h : Calm verify a ⟨t, p, encodeKeepalive ::ₘ up, down⟩) :
    let r := relayRound verify a encodeKeepalive w t
    Calm verify a ⟨r.1, p, up, r.2 + down⟩ ∧ (r.2.map weightDown).sum < 1 := by
  obtain ⟨hsame, hviews, hreply⟩ := relayRound_keepalive verify a w t
  refine ⟨h.of_removes hsame hviews ?_ ?_, ?_⟩
  · intro hno hcount hnone
    refine hno (inr (inr (inl ⟨?_, ?_⟩)))
    · exact lt_of_lt_of_eq hcount (Multiset.countP_cons_of_neg _ (by decide)).symm
    · apply Option.eq_none_iff_forall_ne_some.mpr
      intro ab hl
      have hkept := (hviews.lookup a ab).mpr ⟨hl, by simp⟩
      rw [hnone] at hkept
      cases hkept
  · intro frame hframe
    rw [hreply] at hframe
    cases hframe
  · rw [hreply]; exact zero_lt_one

theorem Exchange.Calm.relay_step (w : Nat → RelayInput)
    (h : Calm verify a ⟨t, p, u ::ₘ up, down⟩) :
    Calm verify a ⟨(relayRound verify a u w t).1, p, up, (relayRound verify a u w t).2 + down⟩ ∧
      ((relayRound verify a u w t).2.map weightDown).sum < weightUp u := by
  have hu : ProxyFrame p.opts u := h.own u (Multiset.mem_cons_self u up)
  cases hu with
  | bind => exact h.relay_bind w
  | data payload =>
    cases hl : t.lookup a with
    | none => exact h.relay_data_unbound w hl
    | some ab => exact h.relay_data_bound w hl
  | keepalive => exact h.relay_keepalive w

omit [DecidableEq Addr] in
theorem relayFrames_eq_nil {outs : List (Emit LAddr)} (h : ∀ frame, .toRelay frame ∉ outs) :
    relayFrames outs = [] := by
  apply filterMap_eq_nil_iff.mpr
  intro e he
  cases e with
  | toRelay frame => exact absurd he (h frame)
  | toWireGuard payload dst => rfl

/-- A frame arrives at the proxy while the two are calm. -/
theorem Exchange.Calm.proxy_step {d : Bytes} (sent : Bool)
    (h : Calm verify a ⟨t, p, up, d ::ₘ down⟩) :
    Calm verify a ⟨t, (p.pumpRelayToLocal d sent).1,
        relayFrames (p.pumpRelayToLocal d sent).2 + up, down⟩ ∧
      ((relayFrames (p.pumpRelayToLocal d sent).2).map weightUp).sum < weightDown d := by
  by_cases hd : d.head? = some frameError
  · -- An ERROR is in flight, so the relay must accept the BIND that follows.
    have hacc : Accepts verify t p.opts :=
      h.rest.resolve_right fun hno => hno (inr (inl ⟨d, Multiset.mem_cons_self _ _, hd⟩))
    have hweight : weightDown d = 3 := if_pos hd
    rw [Proxy.pumpRelayToLocal_error hd, hweight]
    cases sent with
    | false => exact ⟨⟨by simpa [relayFrames] using h.own, inl hacc⟩, zero_lt_succ 2⟩
    | true =>
      refine ⟨⟨?_, inl hacc⟩, ?_⟩
      · intro frame hframe
        rcases Multiset.mem_add.mp hframe with hnew | hold
        · rw [show frame = p.bindFrame by simpa [relayFrames] using hnew]
          exact .bind
        · exact h.own frame hold
      · show 2 < 3
        omega
  · have hnil : relayFrames (p.pumpRelayToLocal d sent).2 = [] :=
      relayFrames_eq_nil (Proxy.pumpRelayToLocal_quiet hd p sent)
    have hopts := Proxy.opts_pumpRelayToLocal p d sent
    have hweight : weightDown d = 1 := if_neg hd
    rw [hnil, hweight]
    refine ⟨⟨?_, ?_⟩, by decide⟩
    · intro frame hframe
      rw [hopts]
      exact h.own frame (by simpa using hframe)
    · rw [hopts]
      refine h.rest.imp_right fun hno => ?_
      rintro (hbind | ⟨frame, hframe, herr⟩ | ⟨hcount, hl⟩ | ⟨hcount, hunb⟩)
      · refine hno (inl ?_)
        have hsame : (p.pumpRelayToLocal d sent).1.bindFrame = p.bindFrame := by
          rw [Proxy.bindFrame, hopts]; rfl
        simpa [hsame] using hbind
      · exact hno (inr (inl ⟨frame, Multiset.mem_cons_of_mem hframe, herr⟩))
      · exact hno (inr (inr (inl ⟨by simpa using hcount, hl⟩)))
      · refine hno (inr (inr (inr ⟨by simpa using hcount, ?_⟩)))
        rw [hopts] at hunb
        exact hunb

theorem Exchange.Calm.step {e' : Exchange Addr LAddr} (h : e.Calm verify a)
    (hstep : Step verify a e e') : e'.Calm verify a ∧ e'.weight < e.weight := by
  cases hstep with
  | relay w =>
    refine (h.relay_step w).imp_right fun hlt => ?_
    simp only [weight, Multiset.map_cons, Multiset.sum_cons, Multiset.map_add,
      Multiset.sum_add, Multiset.map_coe, Multiset.sum_coe]
    omega
  | proxy sent =>
    refine (h.proxy_step sent).imp_right fun hlt => ?_
    simp only [weight, Multiset.map_cons, Multiset.sum_cons, Multiset.map_add,
      Multiset.sum_add, Multiset.map_coe, Multiset.sum_coe]
    omega

end

/-! ## Going on for ever -/

/-- The relay refuses the proxy's BIND, and a BIND or an ERROR is in flight. -/
structure Exchange.Looping (verify : Verify) (e : Exchange Addr LAddr) : Prop where
  refused : ¬ Accepts verify e.table e.proxy.opts
  inFlight : e.proxy.bindFrame ∈ e.toRelay ∨ ∃ frame ∈ e.toProxy, frame.head? = some frameError

theorem Exchange.Looping.step (a : Addr) (h : e.Looping verify) :
    ∃ e', e'.Looping verify ∧ Step verify a e e' := by
  obtain ⟨t, p, up, down⟩ := e
  have hflight : p.bindFrame ∈ up ∨ ∃ frame ∈ down, frame.head? = some frameError := h.inFlight
  rcases hflight with hbind | ⟨frame, hframe, herr⟩
  · -- The BIND is delivered, refused and answered.
    obtain ⟨up', rfl⟩ := Multiset.exists_cons_of_mem hbind
    obtain ⟨href, reason, hreply⟩ :=
      relayRound_bind_refused a (w := fun _ => ⟨0, true⟩) (fun _ => rfl) h.refused
    refine ⟨_, ⟨href, inr ⟨encodeError reason, ?_, rfl⟩⟩, .relay fun _ => ⟨0, true⟩⟩
    exact Multiset.mem_add.mpr (inl (hreply ▸ Multiset.mem_coe.mpr mem_cons_self))
  · -- The ERROR is delivered and answered by a BIND.
    obtain ⟨down', rfl⟩ := Multiset.exists_cons_of_mem hframe
    refine ⟨_, ⟨?_, inl ?_⟩, .proxy true⟩
    · rw [Proxy.opts_pumpRelayToLocal]
      exact h.refused
    · rw [Proxy.pumpRelayToLocal_error herr]
      exact Multiset.mem_add.mpr (inl (Multiset.mem_coe.mpr mem_cons_self))

open Exchange.Looping

section

variable {p : Proxy LAddr} {up down : Multiset Bytes}

section

variable (hown : ∀ frame ∈ up, ProxyFrame p.opts frame) (href : ¬ Accepts verify t p.opts)
include hown href

end

end

/-! ## The exchange quiesces -/

end NexusVPN.Relay
