import NexusVPN.Lib.GoMap
import NexusVPN.Relay.Protocol

/-! # The relay's session table

    `relay/udprelay/session.go`.  A session groups the devices of one network that relay
    through this node; `addrIndex` maps a peer's UDP address back to the session and device it
    bound as.  The two maps are keyed differently, and every operation has to keep them in step.

    An address is whatever `UDPAddr.String` tells apart, so the type of addresses is abstract.
    Clock readings reach the operations as arguments; nothing assumes that they grow. -/

namespace NexusVPN.Relay

/-! ## State -/

/-- One device attached to a session from a particular UDP address. -/
structure Binding (Addr : Type) where
  deviceID : UUID
  addr : Addr
  lastSeen : Time
  /-- The session token's expiry, zero when the token has none. -/
  expiresAt : Time

/-- The devices of one network that are relaying through this node. -/
structure Session (Addr : Type) where
  networkID : String
  bindings : Table UUID (Binding Addr) Binding.deviceID
  lastActive : Time

/-- What an address is bound as. -/
structure AddrBinding where
  networkID : String
  deviceID : UUID
deriving DecidableEq

/-- The node's only mutable state. -/
structure SessionTable (Addr : Type) where
  sessions : Table String (Session Addr) Session.networkID
  addrIndex : GoMap Addr AddrBinding
  idleTimeout : Int
  /-- Cap on the number of sessions; zero or less means no cap. -/
  maxSessions : Int
  bytesRelayed : UInt64
  packetsRelayed : UInt64
  packetsDropped : UInt64

/-- `ErrTooManySessions`: the node is at capacity. -/
structure ErrTooManySessions where
  max : Int

/-- `ErrTooManySessions.Error`. -/
def ErrTooManySessions.error (e : ErrTooManySessions) : String :=
  "relay: session capacity reached (max " ++ toString e.max ++ ")"

/-- `!expiresAt.IsZero() && now.After(expiresAt)`. -/
def lapsed (expiresAt now : Time) : Bool := !expiresAt.isZero && now.after expiresAt

/-- The token behind a binding has lapsed at `now`. -/
def Binding.expired {Addr : Type} (b : Binding Addr) (now : Time) : Bool := lapsed b.expiresAt now

/-- `EvictIdle` drops the binding: silent past the timeout, or expired. -/
def Binding.stale {Addr : Type} (b : Binding Addr) (now : Time) (idleTimeout : Int) : Bool :=
  decide (now.sub b.lastSeen > idleTimeout) || b.expired now

namespace SessionTable

variable {Addr : Type} [DecidableEq Addr]

/-- `NewSessionTable`; a timeout that is not positive becomes five minutes. -/
def new (idleTimeout : Int) (maxSessions : Int) : SessionTable Addr where
  sessions := .empty
  addrIndex := ∅
  idleTimeout := if idleTimeout ≤ 0 then 300000000000 else idleTimeout
  maxSessions := maxSessions
  bytesRelayed := 0
  packetsRelayed := 0
  packetsDropped := 0

variable (t : SessionTable Addr)

/-- The binding of a device in a network's session. -/
def bindingOf (networkID : String) (deviceID : UUID) :
    Option (Binding Addr) :=
  (t.sessions.get networkID).bind fun s => s.bindings.get deviceID

/-! ## Operations -/

/-- `delete(t.addrIndex, b.Addr.String()); delete(s.bindings, deviceID)`, for the
    session `s` of `networkID`. -/
def unbind (networkID : String) (deviceID : UUID) (b : Binding Addr) :
    SessionTable Addr :=
  match t.sessions.get networkID with
  | none => { t with addrIndex := t.addrIndex.erase b.addr }
  | some s =>
    { t with
      addrIndex := t.addrIndex.erase b.addr
      sessions := t.sessions.put { s with bindings := s.bindings.del deviceID } }

/-- The part of `Bind` after the session has been found or made. -/
def attach (s : Session Addr) (now : Time) (deviceID : UUID) (addr : Addr)
    (expiresAt : Time) : SessionTable Addr :=
  -- Drop the device's previous address from the index so a stale entry cannot
  -- keep routing traffic to an address the peer has moved away from.
  let addrIndex :=
    match s.bindings.get deviceID with
    | some prev => if prev.addr ≠ addr then t.addrIndex.erase prev.addr else t.addrIndex
    | none => t.addrIndex
  { t with
    sessions := t.sessions.put
      { s with
        bindings := s.bindings.put ⟨deviceID, addr, now, expiresAt⟩
        lastActive := now }
    addrIndex := addrIndex.insert addr ⟨s.networkID, deviceID⟩ }

/-- `Bind`: attach a device to its network's session at `addr`, replacing any
    previous binding of that device. -/
def bind (now : Time) (networkID : String) (deviceID : UUID) (addr : Addr)
    (expiresAt : Time) : Except ErrTooManySessions Unit × SessionTable Addr :=
  match t.sessions.get networkID with
  | some s => (.ok (), t.attach s now deviceID addr expiresAt)
  | none =>
    if t.maxSessions > 0 ∧ (t.sessions.len : Int) ≥ t.maxSessions then
      (.error ⟨t.maxSessions⟩, t)
    else
      (.ok (), t.attach ⟨networkID, .empty, 0⟩ now deviceID addr expiresAt)

/-- `Lookup`: resolve the sender of a datagram to its session binding. -/
def lookup (addr : Addr) : Option AddrBinding := t.addrIndex.lookup addr

/-- `sender.LastSeen = now; s.lastActive = now`. -/
def refresh (s : Session Addr) (sender : Binding Addr) (now : Time) :
    SessionTable Addr :=
  { t with
    sessions := t.sessions.put
      { s with
        bindings := s.bindings.put { sender with lastSeen := now }
        lastActive := now } }

/-- `Route`: the destination of a datagram from `senderID` to `peerID`, refreshing
    the sender's liveness.  A binding found expired on the way is dropped. -/
def route (now : Time) (networkID : String) (senderID peerID : UUID) :
    Option Addr × SessionTable Addr :=
  match t.sessions.get networkID with
  | none => (none, t)
  | some s =>
    match s.bindings.get senderID with
    | none => (none, t)
    | some sender =>
      if sender.expired now then
        -- The sender's authorization lapsed; force it to re-bind.
        (none, t.unbind networkID senderID sender)
      else
        let t := t.refresh s sender now
        match t.bindingOf networkID peerID with
        | none => (none, t)
        | some peer =>
          if peer.expired now then (none, t.unbind networkID peerID peer)
          else (some peer.addr, t)

/-- `Touch`: refresh liveness for a bound device. -/
def touch (now : Time) (networkID : String) (deviceID : UUID) :
    SessionTable Addr :=
  match t.sessions.get networkID with
  | none => t
  | some s =>
    match s.bindings.get deviceID with
    | some b => t.refresh s b now
    | none => { t with sessions := t.sessions.put { s with lastActive := now } }

def recordRelayed (n : Nat) : SessionTable Addr :=
  { t with bytesRelayed := t.bytesRelayed + n.toUInt64, packetsRelayed := t.packetsRelayed + 1 }

def recordDropped : SessionTable Addr :=
  { t with packetsDropped := t.packetsDropped + 1 }

/-- The body of `EvictIdle`'s inner loop. -/
def evictBinding (now : Time) (networkID : String) (t : SessionTable Addr) (deviceID : UUID) :
    SessionTable Addr :=
  match t.bindingOf networkID deviceID with
  | none => t
  | some b => if b.stale now t.idleTimeout then t.unbind networkID deviceID b else t

/-- `if len(s.bindings) == 0 { delete(t.sessions, networkID); removed++ }`. -/
def dropEmpty (networkID : String) (acc : SessionTable Addr × Nat) : SessionTable Addr × Nat :=
  match acc.1.sessions.get networkID with
  | none => acc
  | some s =>
    if s.bindings.len = 0 then
      ({ acc.1 with sessions := acc.1.sessions.del networkID }, acc.2 + 1)
    else acc

/-- The body of `EvictIdle`'s outer loop; `devs` orders the inner one. -/
def evictSession (now : Time) (devs : String → MapOrder UUID) (acc : SessionTable Addr × Nat)
    (networkID : String) : SessionTable Addr × Nat :=
  match acc.1.sessions.get networkID with
  | none => acc
  | some s =>
    dropEmpty networkID
      (((devs networkID).list s.bindings.map.keys).foldl (evictBinding now networkID) acc.1, acc.2)

/-- `EvictIdle`: drop stale bindings and the sessions left empty, and count the
    sessions removed.  `nets` and `devs` are the orders of the two loops. -/
def evictIdle (now : Time) (nets : MapOrder String)
    (devs : String → MapOrder UUID) : SessionTable Addr × Nat :=
  (nets.list t.sessions.map.keys).foldl (evictSession now devs) (t, 0)

end SessionTable

end NexusVPN.Relay
