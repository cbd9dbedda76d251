import NexusVPN.Client.Host
import NexusVPN.Client.Registration
import NexusVPN.Client.Tasks

/-! # The connection state

    `client/internal/tunnel/state.go`.  The tunnel stores the phase it is in, and
    `observeHealth` moves it along: what it becomes depends on what it was.  The question
    is whether it still means what a reader takes it to mean, after any history. -/

namespace NexusVPN.Client

open List Prog Option Machine

/-! ## The state and how it moves -/

/-- `State`: the connection phase. -/
inductive State where
  | idle
  | handshaking
  | active
  | dropped
deriving DecidableEq

/-- A tunnel, and the phase it is in. -/
structure Monitored where
  tunnel : TunnelState
  state : State

inductive HealthCall where
  | tunnel (c : TunnelCall)
  /-- `ExitNode`. -/
  | exitNode
  | state
  | setState (next : State)

@[reducible] def healthIface : Iface where
  Call := HealthCall
  Ans
    | .tunnel c => tunnelIface.Ans c
    | .exitNode => UUID × Bool
    | .state => State
    | .setState _ => Unit

def Monitored.handler (lib : ClientLib) : Handler healthIface Monitored TunnelInput
  | .tunnel c, i, s =>
    let r := TunnelState.handler lib c i s.tunnel
    (r.1, { s with tunnel := r.2 })
  | .exitNode, _, s => ((s.tunnel.exit.deviceID, s.tunnel.exit.deviceID ≠ .nil), s)
  | .state, _, s => (s.state, s)
  | .setState next, _, s => ((), { s with state := next })

/-- A program of the tunnel that also sees its state. -/
abbrev HealthM := Prog healthIface

abbrev askHealth (c : HealthCall) : HealthM (healthIface.Ans c) := Prog.ask (I := healthIface) c

/-- A peer in this mode can be reached. -/
def ConnectionMode.reachable : ConnectionMode → Bool
  | .direct | .relay => true
  | .connecting | .offline => false

/-- The loop that looks for the exit node. -/
def exitReachable (exitID : UUID) : List PeerRef → HealthM Bool
  | [] => return false
  | pr :: prs => do
    let vars ← askHealth (.tunnel (.readPeer pr))
    if pr.deviceID ≠ exitID then exitReachable exitID prs
    else return vars.mode.reachable

/-- `if t.State() == from { t.setState(to) }`. -/
def moveState (source target : State) : HealthM Unit := do
  if (← askHealth .state) = source then askHealth (.setState target)
  else return ()

def observeHealth : HealthM Unit := do
  let (exitID, hasExit) ← askHealth .exitNode
  let peers ← askHealth (.tunnel .listPeers)
  -- Without an exit node nobody else's being there makes a difference.
  if !hasExit then moveState .handshaking .active
  else if peers.isEmpty then moveState .active .dropped
  else if ← exitReachable exitID peers then askHealth (.setState .active)
  else moveState .active .dropped

/-! ## Histories -/

/-- What happens to a started tunnel: a call runs, or its health is observed. -/
inductive HealthStep where
  | call (t : Task) (w : Nat → TunnelInput)
  | observeHealth (w : Nat → TunnelInput)

namespace Monitored

variable (lib : ClientLib) (cfg : TunnelConfig)

def step (s : Monitored) : HealthStep → Option Monitored
  | .call t w =>
    some { s with tunnel := ((t.body lib cfg).exec (TunnelState.handler lib) w s.tunnel).2 }
  | .observeHealth w => some (Client.observeHealth.exec (handler lib) w s).2

/-- A tunnel whose `Start` has just begun. -/
def begun (networkID region : String) (wg : WGDevice) : Monitored :=
  ⟨.new networkID region wg, .handshaking⟩

end Monitored

/-- The device is a known peer, in direct or relay mode. -/
def TunnelState.Reaches (s : TunnelState) (d : UUID) : Prop :=
  ∃ pr, s.peers.lookup d = some pr ∧ (s.heap pr).mode.reachable = true

/-- Active without an exit node, and with one exactly if it can be reached. -/
def Monitored.Meaningful (s : Monitored) : Prop :=
  (s.tunnel.exit.deviceID = .nil → s.state = .active) ∧
  (s.tunnel.exit.deviceID ≠ .nil → (s.state = .active ↔ s.tunnel.Reaches s.tunnel.exit.deviceID))

/-- The state is dropped afterwards only if it was before, or was active with an exit
    node chosen. -/
def DropsFromActive (s s' : Monitored) : Prop :=
  s'.state = .dropped → s.state = .dropped ∨ s.state = .active ∧ s.tunnel.exit.deviceID ≠ .nil

variable (lib : ClientLib) (cfg : TunnelConfig)

/-- What is claimed of a step: right after `observeHealth` the state says what it should,
    and no step drops the tunnel that may not. -/
def StateTells (s : Monitored) (a : HealthStep) : Prop :=
  ∀ s', s.step lib cfg a = some s' →
    DropsFromActive s s' ∧ ((∃ w, a = .observeHealth w) → s'.Meaningful)

/-- Health is not observed while the tunnel counts as dropped and no exit node is chosen. -/
def NotDroppedWithoutExit (s : Monitored) : HealthStep → Prop
  | .observeHealth _ => ¬ (s.state = .dropped ∧ s.tunnel.exit.deviceID = .nil)
  | .call .. => True

/-! ## What observing does -/

/-- Every peer is listed under its own device. -/
def TunnelState.Keyed (s : TunnelState) : Prop :=
  ∀ d pr, s.peers.lookup d = some pr → pr.deviceID = d

theorem handler_keyed (c : TunnelCall) (i : TunnelInput) (s : TunnelState) (h : s.Keyed) :
    (TunnelState.handler lib c i s).2.Keyed := by
  intro d pr hpr
  rcases listed_of_handler hpr with hold | ⟨publicKey, virtualIP, vars, -, -, rfl⟩
  · exact h d pr hold
  · rfl

open Monitored

theorem wp_exitReachable (d : UUID) (prs : List PeerRef) (s : Monitored)
    (hlist : ∀ pr ∈ prs, s.tunnel.peers.lookup pr.deviceID = some pr) :
    wp (handler lib) (exitReachable d prs) (fun b s' => s' = s ∧
      (b = true ↔ ∃ pr ∈ prs, pr.deviceID = d ∧ (s.tunnel.heap pr).mode.reachable = true)) s := by
  induction prs with
  | nil => simp [exitReachable]
  | cons pr prs ih =>
    intro i
    show wp _ (if pr.deviceID ≠ d then exitReachable d prs
      else pure (s.tunnel.heap pr).mode.reachable) _ s
    have hrest := ih fun q hq => hlist q (mem_cons_of_mem _ hq)
    by_cases hd : pr.deviceID = d
    · rw [if_neg (not_not.mpr hd)]
      refine ⟨rfl, ?_⟩
      constructor
      · exact fun hreach => ⟨pr, mem_cons_self, hd, hreach⟩
      · rintro ⟨q, hq, hqd, hreach⟩
        -- No two peers are listed for one device.
        have hsame : some q = some pr := by
          rw [← hlist q hq, ← hlist pr mem_cons_self, hqd, hd]
        rwa [some.inj hsame] at hreach
    · rw [if_pos hd]
      refine wp_mono ?_ hrest
      rintro b _ ⟨rfl, hb⟩
      refine ⟨rfl, hb.trans ?_⟩
      simp [hd]

/-- Where the state moves to. -/
inductive Monitored.MovesTo (s : Monitored) : State → Prop where
  | up : s.tunnel.exit.deviceID = .nil → s.state = .handshaking → MovesTo s .active
  | stay : s.tunnel.exit.deviceID = .nil → s.state ≠ .handshaking → MovesTo s s.state
  | reach : s.tunnel.exit.deviceID ≠ .nil → s.tunnel.Reaches s.tunnel.exit.deviceID →
      MovesTo s .active
  | drop : s.tunnel.exit.deviceID ≠ .nil → ¬ s.tunnel.Reaches s.tunnel.exit.deviceID →
      s.state = .active → MovesTo s .dropped
  | wait : s.tunnel.exit.deviceID ≠ .nil → ¬ s.tunnel.Reaches s.tunnel.exit.deviceID →
      s.state ≠ .active → MovesTo s s.state

theorem wp_moveState {source target : State} {Q : Unit → Monitored → Prop} {s : Monitored}
    (hmove : s.state = source → Q () { s with state := target })
    (hstay : s.state ≠ source → Q () s) :
    wp (handler lib) (moveState source target) Q s := by
  intro i
  show wp _ (if s.state = source then askHealth (.setState target) else pure ()) Q s
  by_cases hs : s.state = source
  · rw [if_pos hs]
    exact fun _ => hmove hs
  · rw [if_neg hs]
    exact hstay hs

theorem wp_observeHealth {s : Monitored} (hkeyed : s.tunnel.Keyed) :
    wp (handler lib) observeHealth (fun _ s' => s'.tunnel = s.tunnel ∧ s.MovesTo s'.state) s := by
  intro i i'
  have hunr : ¬ s.tunnel.Reaches s.tunnel.exit.deviceID →
      s.tunnel.exit.deviceID ≠ .nil → wp (handler lib) (moveState .active .dropped)
        (fun _ s' => s'.tunnel = s.tunnel ∧ s.MovesTo s'.state) s := by
    intro hnot hexit
    exact wp_moveState lib (fun h => ⟨rfl, .drop hexit hnot h⟩) fun h => ⟨rfl, .wait hexit hnot h⟩
  -- Whatever the order of the loop, it visits the listed peers.
  let prs := (GoMap.range i'.order s.tunnel.peers).map Prod.snd
  have hmem : ∀ pr, pr ∈ prs ↔ s.tunnel.peers.lookup pr.deviceID = some pr := by
    intro pr
    constructor
    · intro hpr
      obtain ⟨⟨d, pr'⟩, hrange, rfl⟩ := mem_map.mp hpr
      have hlook := GoMap.mem_range.mp hrange
      rw [hkeyed d pr' hlook]
      exact hlook
    · exact fun hlook => mem_map.mpr ⟨(pr.deviceID, pr), GoMap.mem_range.mpr hlook, rfl⟩
  have hreach : (∃ pr ∈ prs, pr.deviceID = s.tunnel.exit.deviceID ∧
      (s.tunnel.heap pr).mode.reachable = true) ↔ s.tunnel.Reaches s.tunnel.exit.deviceID := by
    constructor
    · rintro ⟨pr, hpr, hd, hmode⟩
      exact ⟨pr, hd ▸ (hmem pr).mp hpr, hmode⟩
    · rintro ⟨pr, hlook, hmode⟩
      have hd := hkeyed _ pr hlook
      exact ⟨pr, (hmem pr).mpr (hd.symm ▸ hlook), hd, hmode⟩
  show wp _ (if !decide (s.tunnel.exit.deviceID ≠ .nil) then moveState .handshaking .active
    else if prs.isEmpty then moveState .active .dropped
    else exitReachable s.tunnel.exit.deviceID prs >>= fun b =>
      if b then askHealth (.setState .active) else moveState .active .dropped) _ s
  by_cases hexit : s.tunnel.exit.deviceID = .nil
  · rw [if_pos (by simp [hexit])]
    exact wp_moveState lib (fun h => ⟨rfl, .up hexit h⟩) fun h => ⟨rfl, .stay hexit h⟩
  · rw [if_neg (by simp [hexit])]
    by_cases hempty : prs.isEmpty
    · rw [if_pos hempty]
      refine hunr ?_ hexit
      rw [← hreach, isEmpty_iff.mp hempty]
      simp
    · rw [if_neg hempty, wp_bind]
      refine wp_mono ?_ (wp_exitReachable lib s.tunnel.exit.deviceID prs s fun pr hpr =>
        (hmem pr).mp hpr)
      rintro b _ ⟨rfl, hb⟩
      cases b with
      | true => exact fun _ => ⟨rfl, .reach hexit (hreach.mp (hb.mp rfl))⟩
      | false => exact hunr (fun h => by simpa using hb.mpr (hreach.mpr h)) hexit

/-! ## Whole histories -/

/-- What every history keeps: peers are listed under their own device, and the tunnel has
    been started. -/
def Monitored.Sound (s : Monitored) : Prop := s.tunnel.Keyed ∧ s.state ≠ .idle

theorem sound_step (s : Monitored) (a : HealthStep) (s' : Monitored) (h : s.Sound)
    (hstep : s.step lib cfg a = some s') : s'.Sound := by
  obtain ⟨hkeyed, hidle⟩ := h
  cases a with
  | call t w =>
    cases hstep
    exact ⟨exec_invariant (handler_keyed lib) _ w hkeyed, hidle⟩
  | observeHealth w =>
    cases hstep
    obtain ⟨htun, hmove⟩ := wp_exec (wp_observeHealth lib hkeyed) w
    refine ⟨htun ▸ hkeyed, ?_⟩
    generalize (observeHealth.exec (handler lib) w s).2.state = next at hmove
    intro hbad
    cases hmove with
    | up | reach | drop => cases hbad
    | stay | wait => exact hidle hbad

theorem meaningful_iff_of_movesTo {s s' : Monitored} (hs : s.state ≠ .idle)
    (htun : s'.tunnel = s.tunnel) (hmove : s.MovesTo s'.state) :
    s'.Meaningful ↔ ¬ (s.state = .dropped ∧ s.tunnel.exit.deviceID = .nil) := by
  unfold Meaningful
  rw [htun]
  generalize s'.state = next at hmove
  cases hmove with
  | up hexit hstate => simp [hexit, hstate]
  | stay hexit hstate =>
    -- Neither idle nor handshaking: active, or stuck.
    have hleft : s.state = .active ↔ s.state ≠ .dropped := by
      cases h : s.state <;> simp_all
    simp [hexit, hleft]
  | reach hexit hreach | drop hexit hreach hstate => simp [hexit, hreach]
  | wait hexit hreach hstate => simp [hexit, hreach, hstate]

theorem dropsFromActive_of_movesTo {s s' : Monitored} (hmove : s.MovesTo s'.state) :
    DropsFromActive s s' := by
  intro hdrop
  generalize s'.state = next at hmove hdrop
  cases hmove with
  | up | reach => cases hdrop
  | stay | wait => exact .inl hdrop
  | drop hexit _ hstate => exact .inr ⟨hstate, hexit⟩

/-- In every history of a started tunnel: no step drops it that may not, and after each
    `observeHealth` the state says what it should, exactly if health is never observed
    while the tunnel counts as dropped and no exit node is chosen. -/
theorem state_meaningful_iff (networkID region : String) (wg : WGDevice) (as : List HealthStep) :
    Along (step lib cfg) (StateTells lib cfg) (.begun networkID region wg) as ↔
      Along (step lib cfg) NotDroppedWithoutExit (.begun networkID region wg)
        as := by
  have hbegun : (begun networkID region wg).Sound := by
    refine ⟨?_, show State.handshaking ≠ .idle by decide⟩
    intro d pr hpr
    cases hpr
  refine along_iff (sound_step lib cfg) ?_ hbegun as
  intro s a s' hs hstep
  have honly : ∀ s'', s.step lib cfg a = some s'' → s'' = s' :=
    fun s'' h => some.inj (h.symm.trans hstep)
  cases a with
  | call t w =>
    -- A call does not touch the state.
    refine ⟨fun _ => trivial, ?_⟩
    intro _ s'' hs''
    cases hs''
    exact ⟨fun h => .inl h, fun ⟨w', hw'⟩ => by cases hw'⟩
  | observeHealth w =>
    obtain rfl := some.inj hstep
    obtain ⟨htun, hmove⟩ := wp_exec (wp_observeHealth lib hs.1) w
    have hiff := meaningful_iff_of_movesTo hs.2 htun hmove
    constructor
    · intro h
      exact hiff.mp ((h _ hstep).2 ⟨w, rfl⟩)
    · intro h s'' hs''
      rw [honly s'' hs'']
      exact ⟨dropsFromActive_of_movesTo hmove, fun _ => hiff.mpr h⟩

/-- The laptop becomes the exit node before it can be reached, and is given up again. -/
def droppedHistory : List HealthStep :=
  [.observeHealth (fun _ => .hostOnly),
   .call (.addPeer laptop) (fun _ => .hostOnly),
   .call (.setExitNode laptopID ⟨false, false⟩) (fun _ => .hostOnly),
   .observeHealth (fun _ => .hostOnly),
   .call .clearExitNode (fun _ => .hostOnly),
   .observeHealth (fun _ => .hostOnly)]

/-- No exit node is chosen any more, and the tunnel still counts as dropped. -/
theorem state_stays_dropped :
    ∃ s, run (step laptopLib routerConfig) (.begun "home" "" ∅) droppedHistory =
        some s ∧ s.tunnel.exit.deviceID = .nil ∧ s.state = .dropped ∧ ¬ s.Meaningful := by
  refine ⟨_, rfl, rfl, rfl, ?_⟩
  intro hmeaning
  have hact := hmeaning.1 rfl
  cases hact

end NexusVPN.Client
