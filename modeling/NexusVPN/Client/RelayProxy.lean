import NexusVPN.Relay.Protocol

/-! # The client's relay proxy

    `client/internal/relayproxy/relayproxy.go`.  One proxy carries one relayed peer's traffic:
    WireGuard sends plain datagrams to its loopback socket, and the proxy wraps them into DATA
    frames for the relay and unwraps what comes back.

    Each handler treats one datagram and returns what it wrote; `sent` says whether that write
    went through.  The address of the relay is left out, and so are the diagnostics. -/

namespace NexusVPN.Client

open List Relay

/-- `Options`. -/
structure ProxyOptions where
  sessionToken : Bytes
  selfDeviceID : UUID
  /-- The device this proxy carries traffic to. -/
  peerDeviceID : UUID

/-- `Proxy`; `LAddr` are the addresses of the loopback side. -/
structure Proxy (LAddr : Type) where
  opts : ProxyOptions
  /-- WireGuard's source address, learned from the first packet it sends. -/
  wgAddr : Option LAddr
  bytesSent : UInt64
  bytesRecv : UInt64
  bound : Bool

/-- What a proxy writes, and to which of its two sides. -/
inductive Emit (LAddr : Type) where
  | toRelay (frame : Bytes)
  | toWireGuard (payload : Bytes) (dst : LAddr)

namespace Proxy

variable {LAddr : Type}

def new (opts : ProxyOptions) : Except String (Proxy LAddr) :=
  if opts.sessionToken = [] then .error "relayproxy: session token is required"
  else .ok ⟨opts, none, 0, 0, false⟩

/-- The frame of `sendBind`. -/
def bindFrame (p : Proxy LAddr) : Bytes := encodeBind p.opts.selfDeviceID p.opts.sessionToken

/-- `pumpLocalToRelay`: a WireGuard datagram from `src` goes out as a DATA frame. -/
def pumpLocalToRelay (p : Proxy LAddr) (src : LAddr) (datagram : Bytes) (sent : Bool) :
    Proxy LAddr × List (Emit LAddr) :=
  let data := datagram.take maxPacketSize
  if data = [] then (p, [])
  else
    -- Learn where to send replies.
    let p := { p with wgAddr := some src }
    if sent then
      ({ p with bytesSent := p.bytesSent + data.length.toUInt64 },
        [.toRelay (encodeData p.opts.peerDeviceID data)])
    else (p, [])

/-- `pumpRelayToLocal`: a frame from the relay.  The device id of a DATA frame is
    decoded and not looked at. -/
def pumpRelayToLocal (p : Proxy LAddr) (datagram : Bytes) (sent : Bool) :
    Proxy LAddr × List (Emit LAddr) :=
  let frame := datagram.take maxPacketSize
  if frame.head? = some frameBindAck then ({ p with bound := true }, [])
  else if frame.head? = some frameData then
    match decodeData frame, p.wgAddr with
    | .ok (_, payload), some dst =>
      if sent then
        ({ p with bytesRecv := p.bytesRecv + payload.length.toUInt64 },
          [.toWireGuard payload dst])
      else (p, [])
    -- WireGuard has not sent anything yet, so there is nowhere to deliver.
    | .ok _, none => (p, [])
    | .error _, _ => (p, [])
  else if frame.head? = some frameError then
    -- A bind that lapsed is recoverable: re-announce so traffic can resume.
    ({ p with bound := false }, if sent then [.toRelay p.bindFrame] else [])
  else (p, [])

/-- One tick of `keepalive`. -/
def keepalive (p : Proxy LAddr) (sent : Bool) : List (Emit LAddr) :=
  if sent then [.toRelay (if p.bound then encodeKeepalive else p.bindFrame)] else []

variable {sent : Bool} {datagram frame : Bytes} {p : Proxy LAddr}

theorem opts_of_new {opts : ProxyOptions} (h : new opts = .ok p) : p.opts = opts := by
  unfold new at h
  split at h
  · cases h
  · cases h
    rfl

/-! ## What a proxy sends -/

/-- A frame that can come from a proxy of device `self`: a BIND among them carries
    that device's id. -/
def FromDevice (self : UUID) (frame : Bytes) : Prop :=
  frame.head? = some frameBind → ∃ tok, frame = encodeBind self tok

theorem bindFrame_fromDevice (p : Proxy LAddr) : FromDevice p.opts.selfDeviceID p.bindFrame :=
  fun _ => ⟨_, rfl⟩

theorem fromDevice_of_head {self : UUID} (h : frame.head? ≠ some frameBind) :
    FromDevice self frame :=
  fun hbind => absurd hbind h

@[simp] theorem opts_pumpLocalToRelay (p : Proxy LAddr) (src : LAddr) (datagram : Bytes)
    (sent : Bool) : (p.pumpLocalToRelay src datagram sent).1.opts = p.opts := by
  unfold pumpLocalToRelay
  dsimp only
  split
  · rfl
  · split <;> rfl

@[simp] theorem opts_pumpRelayToLocal (p : Proxy LAddr) (datagram : Bytes) (sent : Bool) :
    (p.pumpRelayToLocal datagram sent).1.opts = p.opts := by
  fun_cases pumpRelayToLocal p datagram sent <;> rfl

theorem pumpLocalToRelay_emits {src : LAddr} {e : Emit LAddr}
    (h : e ∈ (p.pumpLocalToRelay src datagram sent).2) :
    ∃ frame, e = .toRelay frame ∧ FromDevice p.opts.selfDeviceID frame := by
  unfold pumpLocalToRelay at h
  dsimp only at h
  split at h
  · cases h
  · split at h
    · refine ⟨_, mem_singleton.mp h, fromDevice_of_head ?_⟩
      simp [encodeData, frameData, frameBind]
    · cases h

theorem pumpRelayToLocal_error {d : Bytes} (hd : d.head? = some frameError) (p : Proxy LAddr)
    (sent : Bool) :
    p.pumpRelayToLocal d sent =
      ({ p with bound := false }, if sent then [.toRelay p.bindFrame] else []) := by
  have hhead : (d.take maxPacketSize).head? = some frameError := by
    rw [head?_take, if_neg (by decide)]; exact hd
  unfold pumpRelayToLocal
  simp only [hhead]
  rfl

theorem pumpRelayToLocal_quiet {d : Bytes} (hd : d.head? ≠ some frameError) (p : Proxy LAddr)
    (sent : Bool) (frame : Bytes) : .toRelay frame ∉ (p.pumpRelayToLocal d sent).2 := by
  have hhead : (d.take maxPacketSize).head? ≠ some frameError := by
    rw [head?_take, if_neg (by decide)]; exact hd
  fun_cases pumpRelayToLocal p d sent with
  | case6 frame' _ _ herr => exact absurd herr hhead
  | case1 | case2 | case3 | case4 | case5 | case7 => simp

theorem pumpRelayToLocal_emits {e : Emit LAddr} (h : e ∈ (p.pumpRelayToLocal datagram sent).2) :
    e = .toRelay p.bindFrame ∨
      ∃ senderID payload dst, decodeData (datagram.take maxPacketSize) = .ok (senderID, payload) ∧
        p.wgAddr = some dst ∧ e = .toWireGuard payload dst := by
  revert h
  fun_cases pumpRelayToLocal p datagram sent with
  | case2 frame _ _ senderID payload dst hwg hdec _ =>
    intro h
    rw [mem_singleton] at h
    exact Or.inr ⟨senderID, payload, dst, hdec, hwg, h⟩
  | case6 frame _ _ herr =>
    intro h
    split at h
    · exact Or.inl (mem_singleton.mp h)
    · cases h
  | case1 | case3 | case4 | case5 | case7 =>
    intro h
    cases h

theorem keepalive_emits {e : Emit LAddr} (h : e ∈ p.keepalive sent) :
    ∃ frame, e = .toRelay frame ∧ FromDevice p.opts.selfDeviceID frame := by
  unfold keepalive at h
  split at h
  · refine ⟨_, mem_singleton.mp h, ?_⟩
    split
    · exact fromDevice_of_head (by decide)
    · exact bindFrame_fromDevice p
  · cases h

end Proxy

end NexusVPN.Client
