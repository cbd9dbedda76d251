import NexusVPN.Lib.Track
import NexusVPN.Relay.Isolation

/-! # What the relay counts

    Every datagram is passed on to a peer, dropped or served, and the node counts it as what has
    become of it. -/

namespace NexusVPN.Relay

open List

variable {Addr : Type} {log : List (Event Addr)} {m : Nat}

/-- The length of a frame that has been passed on. -/
@[simp] def forwards : (c : RelayCall Addr) → (relayIface Addr).Ans c → Option Nat
  | .writeToUDP frame _, true => if frame.head? = some frameData then some frame.length else none
  | _, _ => none

/-- The sender has been bound, or its binding refreshed. -/
@[simp] def serves : (c : RelayCall Addr) → (relayIface Addr).Ans c → Bool
  | .bind .., .ok _ | .touch .., _ => true
  | _, _ => false

/-- What is still to be counted of the datagram in hand. -/
inductive Due where
  | outcome
  | length (n : Nat)
  | nothing

/-- A datagram has one outcome, and a frame that is passed on is counted right after. -/
@[simp] def counting : Protocol (relayIface Addr) Due where
  may _ _ := True
  legal
    | .outcome, .recordRelayed _ => False
    | .outcome, _ => True
    | .length n, c => c = .recordRelayed n
    | .nothing, .writeToUDP frame _ => frame.head? ≠ some frameData
    | .nothing, _ => False
  next
    | .outcome, .recordDropped, _ => .nothing
    | .outcome, c, a => if serves c a then .nothing else (forwards c a).elim .outcome .length
    | _, _, _ => .nothing

/-- From here on the program counts what is due. -/
abbrev Counts (p : RelayM Addr Unit) (due : Due) : Prop :=
  p.Obeys counting (fun _ due => due = .nothing) due

/-! ## One datagram -/

theorem counts_dropped : Counts (recordDropped : RelayM Addr Unit) .outcome :=
  ⟨trivial, fun _ _ => rfl⟩

theorem counts_reply {out : Bytes} (hout : out.head? ≠ some frameData) (addr : Addr) :
    Counts (reply addr out) .nothing :=
  ⟨hout, fun _ _ => rfl⟩

theorem counts_refusal (addr : Addr) (reason : String) :
    Counts (do recordDropped; reply addr (encodeError reason)) .outcome :=
  ⟨trivial, fun _ _ => counts_reply (by simp [encodeError, frameError, frameData]) addr⟩

theorem counts_handleBind (verify : Verify) (frame : Bytes) (addr : Addr) :
    Counts (handleBind verify frame addr) .outcome := by
  unfold handleBind
  split
  · exact counts_dropped
  · split
    · exact counts_refusal addr _
    · split
      · exact counts_refusal addr _
      · refine ⟨trivial, ?_⟩
        intro answer _
        cases answer with
        | error err => exact counts_refusal addr _
        | ok _ => exact counts_reply (by simp [encodeBindAck, frameBindAck, frameData]) addr

theorem counts_handleData {frame : Bytes} (hdata : frame.head? = some frameData) (addr : Addr) :
    Counts (handleData frame addr) .outcome := by
  refine ⟨trivial, ?_⟩
  intro found _
  cases found with
  | none => exact counts_refusal addr _
  | some ab =>
    dsimp only
    split
    · exact counts_dropped
    · refine ⟨trivial, ?_⟩
      intro routed _
      cases routed with
      | none => exact counts_dropped
      | some dest =>
        refine ⟨trivial, ?_⟩
        intro sent _
        cases sent with
        | false => exact counts_dropped
        | true =>
          -- The stamp leaves the type of the frame as it is.
          have hstamped : (rewriteDataPeer frame ab.deviceID).head? = some frameData := by
            cases frame with
            | nil => cases hdata
            | cons x frame => exact hdata
          simp [Prog.Obeys, hstamped]

theorem counts_handlePacket (verify : Verify) (frame : Bytes) (addr : Addr) :
    Counts (handlePacket verify frame addr) .outcome := by
  unfold handlePacket
  split
  · exact counts_handleBind verify frame addr
  · split
    · next hdata => exact counts_handleData hdata addr
    · split
      · refine ⟨trivial, ?_⟩
        intro found _
        cases found with
        | none => exact counts_dropped
        | some ab => exact ⟨trivial, fun _ _ => rfl⟩
      · exact counts_dropped

/-! ## Whole runs -/

/-- The lengths of the frames that have been passed on. -/
@[simp] def passed (log : List (Event Addr)) : List Nat :=
  log.filterMap fun e => forwards e.call e.answer

/-- The lengths that have been given to `RecordRelayed`. -/
@[simp] def recorded (log : List (Event Addr)) : List Nat :=
  log.filterMap fun e => match e.call with | .recordRelayed n => some n | _ => none

/-- The datagrams that have been dropped, passed on or served. -/
@[simp] def outcomes (log : List (Event Addr)) : Nat :=
  length <| log.filter fun e => (match e.call with | .recordDropped => true | _ => false) ||
    serves e.call e.answer || (forwards e.call e.answer).isSome

/-- All of `m` datagrams has been counted but for what is due. -/
@[simp] def Balanced (m : Nat) (log : List (Event Addr)) : Due → Prop
  | .outcome => passed log = recorded log ∧ outcomes log + 1 = m
  | .length n => passed log = n :: recorded log ∧ outcomes log = m
  | .nothing => passed log = recorded log ∧ outcomes log = m

theorem Balanced.call {due : Due} (h : Balanced m log due) {e : Event Addr}
    (hlegal : counting.legal due e.call) :
    Balanced m (e :: log) (counting.next due e.call e.answer) := by
  obtain ⟨tag, c, i, a⟩ := e
  cases due with
  | outcome =>
    obtain ⟨hsame, hcount⟩ := h
    cases c with
    | recordRelayed n => exact hlegal.elim
    | bind n d x t => cases a <;> exact ⟨hsame, hcount⟩
    | writeToUDP frame dest =>
      cases a with
      | false => exact ⟨hsame, hcount⟩
      | true =>
        have hbal := And.intro hsame hcount
        by_cases hdata : frame.head? = some frameData <;> simpa [hdata] using hbal
    | _ => exact ⟨hsame, hcount⟩
  | length n =>
    -- A frame was forwarded, and its length is recorded next.
    obtain rfl : c = .recordRelayed n := hlegal
    exact h
  | nothing =>
    cases c with
    | writeToUDP frame dest =>
      have hout : frame.head? ≠ some frameData := hlegal
      cases a with
      | false => exact h
      | true => simpa [hout] using h
    | _ => exact hlegal.elim

/-- The balance of the node after `m` datagrams. -/
def ServerState.Balanced (m : Nat) (s : ServerState Addr) : Prop :=
  match s.job with
  | none => Relay.Balanced m s.log .nothing
  | some job => ∃ due, Counts job.rest due ∧ Relay.Balanced m s.log due

/-- An empty datagram is skipped. -/
def incoming : ServerAction Addr → Bool
  | .recv _ datagram => !datagram.isEmpty
  | _ => false

variable [DecidableEq Addr] {verify : Verify} {s s' : ServerState Addr}

/-- Every datagram that comes in is accounted for once. -/
theorem ServerState.Balanced.step {act : ServerAction Addr} (h : s.Balanced m)
    (hstep : s.step verify act = some s') : s'.Balanced (m + ([act].filter incoming).length) := by
  obtain ⟨t, job, log⟩ := s
  cases act with
  | recv src datagram =>
    cases job with
    | some job => cases hstep
    | none =>
      obtain ⟨hsame, hcount⟩ := h
      simp only [ServerState.step] at hstep
      cases datagram with
      | nil =>
        cases hstep
        exact ⟨hsame, hcount⟩
      | cons b datagram =>
        rw [if_neg (by simp [maxPacketSize])] at hstep
        cases hstep
        refine ⟨.outcome, counts_handlePacket verify _ src, hsame, ?_⟩
        exact congrArg (· + 1) hcount
  | reader i =>
    cases job with
    | none => cases hstep
    | some job =>
      obtain ⟨src, frame, rest⟩ := job
      obtain ⟨due, hcounts, hbal⟩ := h
      cases rest with
      | ret a =>
        cases hstep
        obtain rfl : due = .nothing := hcounts
        exact hbal
      | call c k =>
        cases hstep
        exact ⟨_, hcounts.2 _ trivial, hbal.call (e := ⟨(src, frame), c, i, _⟩) hcounts.1⟩
  | janitor now nets devs =>
    -- A sweep counts nothing.
    cases hstep
    exact h

/-- Whenever the reader is not at work, the lengths recorded as relayed are those of the frames
    that were passed on, and every datagram that has come in was dropped, passed on or served
    just once. -/
theorem relay_counts_every_datagram {idleTimeout maxSessions : Int}
    (as : List (ServerAction Addr))
    (hrun : Machine.run (ServerState.step verify) (.init idleTimeout maxSessions) as = some s)
    (hidle : s.job = none) :
    recorded s.log = passed s.log ∧ outcomes s.log = (as.filter incoming).length := by
  have hend : s.Balanced (as.filter incoming).length := by
    refine Machine.Along.induction (P := fun as s => s.Balanced (as.filter incoming).length)
      (C := fun _ _ => True) ⟨rfl, rfl⟩ ?_ (Machine.along_of_forall_mem (by simp) _) hrun
    intro as act s₁ s₂ _ h _ hstep
    simpa using h.step hstep
  unfold ServerState.Balanced at hend
  rw [hidle] at hend
  exact ⟨hend.1.symm, hend.2⟩

/-- The frame of the pair is passed on, and then a datagram of no known type is dropped. -/
def pairAndNoise : List (ServerAction Nat) :=
  pairRun ++ [.reader ⟨6, true⟩, .reader ⟨6, true⟩, .recv 30 [9], .reader ⟨7, true⟩,
    .reader ⟨7, true⟩]

theorem relay_counts_pair :
    ∃ s, Machine.run (ServerState.step sampleVerify) (.init 0 0) pairAndNoise = some s ∧
      s.job = none ∧ passed s.log = [18] ∧ recorded s.log = passed s.log ∧ outcomes s.log = 4 := by
  obtain ⟨s, hrun, hidle, hpassed⟩ : ∃ s, Machine.run (ServerState.step sampleVerify) (.init 0 0)
      pairAndNoise = some s ∧ s.job = none ∧ passed s.log = [18] := ⟨_, rfl, rfl, rfl⟩
  exact ⟨s, hrun, hidle, hpassed, relay_counts_every_datagram pairAndNoise hrun hidle⟩

end NexusVPN.Relay
