import NexusVPN.Net

/-! # Forwarding for the network

    How `client/internal/egress/egress_linux.go` switches the kernel's forwarding on and back.
    Of the rules that `nft` is given, only whether it takes them matters here. -/

namespace NexusVPN.Client.Egress

open List

/-! ## The kernel -/

/-- A kind of switch under `/proc/sys`: its text when read, and what a write of a text stores. -/
structure Sysctl where
  Value : Type
  render : Value → String
  parse : String → Option Value
  /-- What is read can be written back, less the space around it. -/
  parse_trimmed : ∀ v, trimSpace (render v) ≠ "" ∧ parse (trimSpace (render v) ++ "\n") = some v

/-- `os.ReadFile`, without the error. -/
def Sysctl.read (K : Sysctl) (succeeds : Bool) (v : K.Value) : String :=
  if succeeds then K.render v else ""

/-- `os.WriteFile`: the value afterwards, if it succeeds. -/
def Sysctl.write (K : Sysctl) (succeeds : Bool) (text : String) : Option K.Value :=
  if succeeds then K.parse text else none

/-- A value that was read before is written back. -/
def Sysctl.restored (K : Sysctl) (succeeds : Bool) (prior : String) (v : K.Value) : K.Value :=
  if prior ≠ "" then (K.write succeeds (prior ++ "\n")).getD v else v

/-! ## The forwarder -/

structure NftForwarder where
  priorForwardingV4 : String
  priorForwardingV6 : String
  restoreForwarding : Bool

def NftForwarder.new : NftForwarder := ⟨"", "", false⟩

/-- The forwarder, and the two switches of its host. -/
structure Host (K : Sysctl) where
  forwardV4 : K.Value
  forwardV6 : K.Value
  forwarder : NftForwarder

/-- `Config`; the zero prefix is not valid. -/
structure Config where
  interface : String
  tunnelPrefix : Option IPRange

/-- Which of the steps of a call succeed. -/
structure Outcomes where
  lookPath : Bool
  readV4 : Bool
  readV6 : Bool
  writeV4 : Bool
  writeV6 : Bool
  /-- `nft` takes the ruleset after the deletion of the table, or without it. -/
  load : Bool
  reload : Bool
  /-- The table is deleted, or there is none. -/
  deleteTable : Bool
  restoreV4 : Bool
  restoreV6 : Bool

/-- The errors, by their texts after `egress: `. -/
inductive EgressError where
  /-- `no tunnel interface to forward from` -/
  | noInterface
  /-- `a tunnel prefix is required so forwarding is scoped to the network` -/
  | noPrefix
  /-- ``nftables is required but `nft` was not found`` -/
  | noNft
  /-- `enable IPv4 forwarding` -/
  | enableForwarding
  /-- `load ruleset` -/
  | loadRuleset
  /-- `delete table` -/
  | deleteTable

section

variable {K : Sysctl} (o : Outcomes) (s : Host K)

/-- The switches are only read when nothing is recorded. -/
def recordForwarding : Host K :=
  if s.forwarder.restoreForwarding then s
  else { s with forwarder := ⟨trimSpace (K.read o.readV4 s.forwardV4),
                              trimSpace (K.read o.readV6 s.forwardV6), true⟩ }

def restoreForwardingLocked : Host K :=
  let f := s.forwarder
  if !f.restoreForwarding then s
  else ⟨K.restored o.restoreV4 f.priorForwardingV4 s.forwardV4,
        K.restored o.restoreV6 f.priorForwardingV6 s.forwardV6,
        { f with restoreForwarding := false }⟩

def enable (c : Config) : Except EgressError Unit × Host K :=
  if c.interface = "" then (.error .noInterface, s)
  else if c.tunnelPrefix = none then (.error .noPrefix, s)
  else if !o.lookPath then (.error .noNft, s)
  else
    let s := recordForwarding o s
    match K.write o.writeV4 "1\n" with
    | none => (.error .enableForwarding, s)
    | some v4 =>
      let s := { s with forwardV4 := v4
                        forwardV6 := (K.write o.writeV6 "1\n").getD s.forwardV6 }
      if o.load || o.reload then (.ok (), s)
      else (.error .loadRuleset, restoreForwardingLocked o s)

def disable : Except EgressError Unit × Host K :=
  (if o.lookPath && !o.deleteTable then .error .deleteTable else .ok (),
    restoreForwardingLocked o s)

end

/-! ## Sequences of calls -/

/-- A call, with what it meets. -/
inductive Call where
  | enable (c : Config) (o : Outcomes)
  | disable (o : Outcomes)

variable {K : Sysctl}

def Call.outcomes : Call → Outcomes
  | .enable _ o => o
  | .disable o => o

def step (s : Host K) : Call → Host K
  | .enable c o => (Egress.enable o s c).2
  | .disable o => (Egress.disable o s).2

/-- Calls that put the switches back: `Disable`, and `Enable` if it cannot load its ruleset. -/
def PutsBack (s : Host K) : Call → Prop
  | .enable c o => (Egress.enable o s c).1 = .error .loadRuleset
  | .disable _ => True

/-- The switches can be read, and written back. -/
structure Outcomes.Readable (o : Outcomes) : Prop where
  readV4 : o.readV4 = true
  readV6 : o.readV6 = true
  restoreV4 : o.restoreV4 = true
  restoreV6 : o.restoreV6 = true

variable {v4 v6 : K.Value} {s : Host K} {o : Outcomes}

def AsBefore (v4 v6 : K.Value) (s : Host K) : Prop := s.forwardV4 = v4 ∧ s.forwardV6 = v6

/-- What is recorded is how the switches were at first; while nothing is, they still are so. -/
def Recorded (v4 v6 : K.Value) (s : Host K) : Prop :=
  if s.forwarder.restoreForwarding then
    s.forwarder.priorForwardingV4 = trimSpace (K.render v4) ∧
      s.forwarder.priorForwardingV6 = trimSpace (K.render v6)
  else AsBefore v4 v6 s

/-- Before a switch is turned, its value is on record. -/
theorem recorded_recordForwarding (ho : o.Readable) (h : Recorded v4 v6 s) (w4 w6 : K.Value) :
    Recorded v4 v6 { recordForwarding o s with forwardV4 := w4, forwardV6 := w6 } := by
  unfold recordForwarding
  cases hrest : s.forwarder.restoreForwarding with
  | true => simpa [Recorded, hrest] using h
  | false =>
    obtain ⟨rfl, rfl⟩ : AsBefore v4 v6 s := by simpa [Recorded, hrest] using h
    simp [Recorded, Sysctl.read, ho.readV4, ho.readV6]

theorem restored_rendered (v w : K.Value) : K.restored true (trimSpace (K.render v)) w = v := by
  rw [Sysctl.restored, if_pos (K.parse_trimmed v).1, Sysctl.write, if_pos rfl,
    (K.parse_trimmed v).2]
  rfl

/-- Restoring puts the switches back, and leaves nothing on record. -/
theorem recorded_restoreForwardingLocked (ho : o.Readable) (h : Recorded v4 v6 s) :
    Recorded v4 v6 (restoreForwardingLocked o s) ∧
      AsBefore v4 v6 (restoreForwardingLocked o s) := by
  unfold restoreForwardingLocked
  cases hrest : s.forwarder.restoreForwarding with
  | false => simpa [Recorded, hrest] using h
  | true =>
    obtain ⟨h4, h6⟩ : _ ∧ _ := by simpa only [Recorded, hrest, if_true] using h
    simp [Recorded, AsBefore, h4, h6, hrest, ho.restoreV4, ho.restoreV6, restored_rendered]

theorem recorded_enable (ho : o.Readable) (h : Recorded v4 v6 s) (c : Config) :
    Recorded v4 v6 (enable o s c).2 ∧
      ((enable o s c).1 = .error .loadRuleset → AsBefore v4 v6 (enable o s c).2) := by
  have hrec := recorded_recordForwarding ho h
  unfold enable
  split
  · exact ⟨h, by simp⟩
  split
  · exact ⟨h, by simp⟩
  split
  · exact ⟨h, by simp⟩
  cases K.write o.writeV4 "1\n" with
  | none => exact ⟨hrec _ _, by simp⟩
  | some w =>
    dsimp only
    split
    · exact ⟨hrec _ _, by simp⟩
    · obtain ⟨hnone, hback⟩ := recorded_restoreForwardingLocked ho (hrec w _)
      exact ⟨hnone, fun _ => hback⟩

theorem recorded_step {c : Call} (ho : c.outcomes.Readable) (h : Recorded v4 v6 s) :
    Recorded v4 v6 (step s c) ∧ (PutsBack s c → AsBefore v4 v6 (step s c)) := by
  cases c with
  | disable o =>
    obtain ⟨hnone, hback⟩ := recorded_restoreForwardingLocked ho h
    exact ⟨hnone, fun _ => hback⟩
  | enable c o => exact recorded_enable ho h c

/-- After every `Disable`, and after every `Enable` that fails to load its ruleset, the switches
    are as they were at first, whatever came before. -/
theorem forwarding_put_back (K : Sysctl) (v4 v6 : K.Value) (calls : List Call) (last : Call)
    (hreadable : ∀ c ∈ last :: calls, c.outcomes.Readable)
    (hlast : PutsBack (calls.foldl step ⟨v4, v6, .new⟩) last) :
    AsBefore v4 v6 (step (calls.foldl step ⟨v4, v6, .new⟩) last) := by
  have hnow : Recorded v4 v6 (calls.foldl step ⟨v4, v6, .new⟩) :=
    foldlRecOn calls step ⟨rfl, rfl⟩ fun _ h c hc =>
      (recorded_step (hreadable c (.tail _ hc)) h).1
  exact (recorded_step (hreadable last (.head _)) hnow).2 hlast

/-- A switch that is on or off. -/
def switch : Sysctl where
  Value := Bool
  render b := if b then "1\n" else "0\n"
  parse t := if t = "1\n" then some true else if t = "0\n" then some false else none
  parse_trimmed := by decide

/-- Everything works, but for the ruleset if `loads` is false. -/
def Outcomes.loading (loads : Bool) : Outcomes :=
  ⟨true, true, true, true, true, loads, loads, true, true, true⟩

/-- A host that forwards IPv6 only is enabled twice, the second time without success. -/
theorem forwarding_put_back_twice :
    let config : Config := ⟨"wg0", some ⟨[10, 0, 0, 0], 24⟩⟩
    AsBefore (K := switch) false true (step (step ⟨false, true, .new⟩
      (.enable config (.loading true))) (.enable config (.loading false))) :=
  forwarding_put_back switch false true [.enable _ (.loading true)] (.enable _ (.loading false))
    (by rintro _ (_ | ⟨_, _ | ⟨_, ⟨⟩⟩⟩) <;> exact ⟨rfl, rfl, rfl, rfl⟩) rfl

end NexusVPN.Client.Egress
