import NexusVPN.Lib.Machine
import NexusVPN.Lib.Prog
import NexusVPN.Relay.Session

/-! # The relay server

    `relay/udprelay/server.go`, with the token verifier of `relay/token`.  One goroutine reads
    datagrams and handles them one after the other; a second one, the janitor, sweeps the
    session table.  The operations of the table each take its lock once, so a sweep can fall
    between any two table calls of one packet. -/

namespace NexusVPN.Relay

open List

/-! ## Session tokens -/

/-- The claims of a session token.  `exp` is the registered expiry claim. -/
structure Claims where
  deviceID : String
  relayID : String
  networkID : String
  exp : Option Time

/-- `Verifier.Verify`: the claims of a token that is valid. -/
abbrev Verify := Bytes → Option Claims

/-- `SessionKey`: the network is the rendezvous key. -/
def Claims.sessionKey (c : Claims) : String := c.networkID

/-- `ExpiresAt`: the token's expiry, or the zero time if unset. -/
def Claims.expiresAt (c : Claims) : Time := c.exp.getD 0

/-! ## Calls -/

/-- What a handler asks of the session table and of the socket. -/
inductive RelayCall (Addr : Type) where
  | bind (networkID : String) (deviceID : UUID) (addr : Addr) (expiresAt : Time)
  | lookup (addr : Addr)
  | route (networkID : String) (senderID peerID : UUID)
  | touch (networkID : String) (deviceID : UUID)
  | recordRelayed (n : Nat)
  | recordDropped
  | writeToUDP (frame : Bytes) (addr : Addr)

/-- The calls with the types of their answers; a write answers whether it worked. -/
@[reducible] def relayIface (Addr : Type) : Iface where
  Call := RelayCall Addr
  Ans
    | .bind .. => Except ErrTooManySessions Unit
    | .lookup _ => Option AddrBinding
    | .route .. => Option Addr
    | .touch .. | .recordRelayed _ | .recordDropped => Unit
    | .writeToUDP .. => Bool

/-- What a call reads from outside: the clock, and whether a write goes through. -/
structure RelayInput where
  now : Time
  sent : Bool

variable {Addr : Type}

/-- The calls on the session table.  A write does not touch it. -/
def relayHandler [DecidableEq Addr] : Handler (relayIface Addr) (SessionTable Addr) RelayInput
  | .bind n d a e, i, t => t.bind i.now n d a e
  | .lookup a, _, t => (t.lookup a, t)
  | .route n s p, i, t => t.route i.now n s p
  | .touch n d, i, t => ((), t.touch i.now n d)
  | .recordRelayed k, _, t => ((), t.recordRelayed k)
  | .recordDropped, _, t => ((), t.recordDropped)
  | .writeToUDP _ _, i, t => (i.sent, t)

/-! ## Handlers -/

/-- Programs of the relay's reader. -/
abbrev RelayM (Addr : Type) := Prog (relayIface Addr)

def recordDropped : RelayM Addr Unit := Prog.ask (I := relayIface Addr) .recordDropped

/-- `reply`: best effort, the outcome of the write is only logged. -/
def reply (addr : Addr) (frame : Bytes) : RelayM Addr Unit :=
  .call (.writeToUDP frame addr) fun _ => .ret ()

def handleBind (verify : Verify) (frame : Bytes) (addr : Addr) : RelayM Addr Unit :=
  match decodeBind frame with
  | .error _ => recordDropped
  | .ok (deviceID, rawToken) =>
    match verify rawToken with
    | none => do
      recordDropped
      reply addr (encodeError "unauthorized")
    | some claims =>
      -- The token names the device it was minted for; a peer cannot bind as
      -- somebody else by putting a different id in the frame header.
      if claims.deviceID ≠ deviceID.string then do
        recordDropped
        reply addr (encodeError "device mismatch")
      else
        .call (.bind claims.sessionKey deviceID addr claims.expiresAt) fun
          | .error err => do
            recordDropped
            reply addr (encodeError err.error)
          | .ok () => reply addr encodeBindAck

def handleData (frame : Bytes) (addr : Addr) : RelayM Addr Unit :=
  .call (.lookup addr) fun
    | none => do
      -- Never forward for an address that has not authenticated.
      recordDropped
      reply addr (encodeError "not bound")
    | some ⟨networkID, senderID⟩ =>
      match decodeData frame with
      | .error _ => recordDropped
      | .ok (peerID, _) =>
        .call (.route networkID senderID peerID) fun
          | none => recordDropped
          | some dest =>
            -- Stamp the frame with the sender's id so the receiver knows the
            -- origin, then forward the payload untouched.
            let frame := rewriteDataPeer frame senderID
            .call (.writeToUDP frame dest) fun
              | false => recordDropped
              | true => .call (.recordRelayed frame.length) .ret

def handleKeepalive (addr : Addr) : RelayM Addr Unit :=
  .call (.lookup addr) fun
    | none => recordDropped
    | some ⟨networkID, deviceID⟩ => .call (.touch networkID deviceID) .ret

/-- `handlePacket`: dispatch one datagram by frame type.  Unknown or unsolicited
    traffic is dropped without a reply. -/
def handlePacket (verify : Verify) (frame : Bytes) (addr : Addr) : RelayM Addr Unit :=
  if frame.head? = some frameBind then handleBind verify frame addr
  else if frame.head? = some frameData then handleData frame addr
  else if frame.head? = some frameKeepalive then handleKeepalive addr
  else recordDropped

/-! ## The reader and the janitor -/

/-- The datagram that the reader has in hand, and what is left to do for it. -/
structure Job (Addr : Type) where
  src : Addr
  frame : Bytes
  rest : RelayM Addr Unit

/-- A call the reader made, tagged with the source and the bytes of the datagram
    it was handling. -/
abbrev Event (Addr : Type) := Prog.Made (relayIface Addr) RelayInput (Addr × Bytes)

/-- The node: its table, the reader, and the reader's calls so far, newest first. -/
structure ServerState (Addr : Type) where
  table : SessionTable Addr
  job : Option (Job Addr)
  log : List (Event Addr)

/-- What can happen next. -/
inductive ServerAction (Addr : Type) where
  /-- The reader takes a datagram off the socket. -/
  | recv (src : Addr) (datagram : Bytes)
  /-- The reader makes its next call, or is done with the datagram in hand. -/
  | reader (i : RelayInput)
  /-- The janitor's ticker fires; `nets` and `devs` order its two loops. -/
  | janitor (now : Time) (nets : MapOrder String) (devs : String → MapOrder UUID)

namespace ServerState

/-- A node that has just started. -/
def init (idleTimeout maxSessions : Int) : ServerState Addr :=
  ⟨.new idleTimeout maxSessions, none, []⟩

variable [DecidableEq Addr]

/-- The reader and the janitor take turns in any order.  The read buffer holds
    `maxPacketSize` bytes, and an empty datagram is skipped. -/
def step (verify : Verify) (s : ServerState Addr) : ServerAction Addr → Option (ServerState Addr)
  | .recv src datagram =>
    match s.job with
    | some _ => none
    | none =>
      let frame := datagram.take maxPacketSize
      if frame = [] then some s
      else some { s with job := some ⟨src, frame, handlePacket verify frame src⟩ }
  | .reader i =>
    match s.job with
    | none => none
    | some ⟨_, _, .ret ()⟩ => some { s with job := none }
    | some ⟨src, frame, .call c k⟩ =>
      let r := Prog.logged relayHandler (src, frame) c i (s.table, s.log)
      some ⟨r.2.1, some ⟨src, frame, k r.1⟩, r.2.2⟩
  | .janitor now nets devs => some { s with table := (s.table.evictIdle now nets devs).1 }

variable {verify : Verify} {s s' : ServerState Addr} {act : ServerAction Addr}

/-- A property of the datagrams taken off the socket holds of every event. -/
theorem tags_step {T : Addr × Bytes → Prop} (hlog : ∀ e ∈ s.log, T e.tag)
    (hjob : ∀ job, s.job = some job → T (job.src, job.frame))
    (hrecv : ∀ src datagram, act = .recv src datagram → T (src, datagram.take maxPacketSize))
    (hstep : s.step verify act = some s') :
    (∀ e ∈ s'.log, T e.tag) ∧ ∀ job, s'.job = some job → T (job.src, job.frame) := by
  cases act with
  | recv src datagram =>
    simp only [step] at hstep
    split at hstep
    · cases hstep
    · split at hstep
      · cases hstep
        exact ⟨hlog, hjob⟩
      · cases hstep
        refine ⟨hlog, ?_⟩
        intro job hjob'
        cases hjob'
        exact hrecv src datagram rfl
  | reader i =>
    simp only [step] at hstep
    split at hstep
    · cases hstep
    · cases hstep
      refine ⟨hlog, ?_⟩
      intro job hjob'
      cases hjob'
    · next src frame c k hj =>
      cases hstep
      -- The new event is tagged with the datagram in hand.
      have htag : T (src, frame) := hjob _ hj
      refine ⟨?_, ?_⟩
      · exact forall_mem_cons.mpr ⟨htag, hlog⟩
      · intro job hjob'
        cases hjob'
        exact htag
  | janitor now nets devs =>
    cases hstep
    exact ⟨hlog, hjob⟩

/-- The reader's calls are all that is logged. -/
theorem log_step (hstep : s.step verify act = some s') :
    s'.log = s.log ∨ ∃ src frame c k i, act = .reader i ∧ s.job = some ⟨src, frame, .call c k⟩ ∧
      s'.log = ⟨(src, frame), c, i, (relayHandler c i s.table).1⟩ :: s.log := by
  cases act with
  | recv src datagram =>
    simp only [step] at hstep
    split at hstep
    · cases hstep
    · split at hstep <;> cases hstep <;> exact .inl rfl
  | reader i =>
    simp only [step] at hstep
    split at hstep
    · cases hstep
    · cases hstep
      exact .inl rfl
    · next hjob =>
      cases hstep
      exact .inr ⟨_, _, _, _, i, rfl, hjob, rfl⟩
  | janitor now nets devs =>
    cases hstep
    exact .inl rfl

theorem log_suffix_step (hstep : s.step verify act = some s') : s.log <:+ s'.log := by
  rcases log_step hstep with heq | ⟨src, frame, c, k, i, -, -, heq⟩
  · exact heq ▸ suffix_refl _
  · exact heq ▸ suffix_cons _ _

end ServerState

end NexusVPN.Relay
