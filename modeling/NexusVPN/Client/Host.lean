import NexusVPN.Client.Exit

/-! # Tunnels on a host

    The tunnel's programs ask the world questions; here the part of the world that exit-node
    mode changes answers them.  The first such host is as `netroute.Router` and `killswitch`
    describe it: whether the default route points into the tunnel, which addresses are routed
    around it, and which policy the kill switch enforces. -/

namespace NexusVPN.Client

open TunnelState

/-! ## A tunnel and its host -/

/-- A tunnel, and the host it runs on. -/
structure Sited (ρ : Type) where
  tunnel : TunnelState
  host : ρ

variable (lib : ClientLib)

/-- The steps of a tunnel on a host: `env` is what the host answers and turns into, and
    `input` what a step of the tunnel itself reads from outside. -/
def sited {ρ ι : Type} (env : (c : EnvCall) → ι → ρ → c.Result × ρ)
    (input : TunnelCall → ι → TunnelInput) : Handler tunnelIface (Sited ρ) ι
  | .env c, i, s => ((env c i s.host).1, { s with host := (env c i s.host).2 })
  | c, i, s =>
    ((handler lib c (input c i) s.tunnel).1,
      { s with tunnel := (handler lib c (input c i) s.tunnel).2 })

/-- What the record never claims without reason. -/
def ExitState.Sound (cfg : TunnelConfig) (e : ExitState) : Prop :=
  (e.pinned ≠ [] → e.captured = true) ∧ (e.captured = true → cfg.router = true) ∧
    (e.locked = true → cfg.killSwitch = true)

/-- There is no exit node, and nothing is recorded of one. -/
def ExitState.Off (e : ExitState) : Prop :=
  e.deviceID = .nil ∧ e.pinned = [] ∧ e.captured = false ∧ e.locked = false

theorem ExitState.Off.sound {cfg : TunnelConfig} {e : ExitState} (h : e.Off) : e.Sound cfg := by
  obtain ⟨-, hpin, hcap, hlock⟩ := h
  refine ⟨?_, ?_, ?_⟩
  · exact fun hne => absurd hpin hne
  · exact fun hyes => absurd (hcap.symm.trans hyes) Bool.false_ne_true
  · exact fun hyes => absurd (hlock.symm.trans hyes) Bool.false_ne_true

/-- What a step makes of the exit record. -/
def ExitState.after : TunnelCall → ExitState → ExitState
  | .takeExit, e => { e with deviceID := .nil, pinned := [], captured := false, locked := false }
  | .recordExit d prior pinned, e =>
    { e with deviceID := d, priorDefault := prior, pinned := pinned, captured := true }
  | .recordLocked, e => { e with locked := true }
  | _, e => e

theorem handler_exit (c : TunnelCall) (i : TunnelInput) (s : TunnelState) :
    (handler lib c i s).2.exit = s.exit.after c := by
  cases c with
  | insertPeer d publicKey virtualIP vars =>
    simp only [handler, insertPeer]
    split <;> rfl
  | deletePeer d =>
    simp only [handler, deletePeer]
    split <;> rfl
  | beginStart | beginAttempt | moveEndpoint | newProxy =>
    simp only [handler]
    split <;> rfl
  | _ => rfl

theorem sited_exit {ρ ι : Type} (env : (c : EnvCall) → ι → ρ → c.Result × ρ)
    (input : TunnelCall → ι → TunnelInput) (c : TunnelCall) (i : ι) (s : Sited ρ) :
    (sited lib env input c i s).2.tunnel.exit = s.tunnel.exit.after c := by
  cases c with
  | env c => rfl
  | _ => exact handler_exit lib _ _ _

theorem exec_sited {ρ ι κ α : Type}
    (env : (c : EnvCall) → ι → ρ → c.Result × ρ) (input : TunnelCall → ι → TunnelInput)
    (f : κ → ι) (p : TunnelM α) (w : Nat → κ) (s : Sited ρ) :
    p.exec (sited lib (fun c i => env c (f i)) fun c i => input c (f i)) w s =
      p.exec (sited lib env input) (fun n => f (w n)) s := by
  have hsame : (sited lib (fun c i => env c (f i)) fun c i => input c (f i)) =
      fun c i s => sited lib env input c (f i) s := by
    funext c i s
    cases c <;> rfl
  rw [hsame]
  exact Prog.exec_comap _ f p w s

/-! ## The effects of exit-node mode -/

/-- `killswitch.Policy`, for the tunnel's interface. -/
structure Policy where
  endpoints : List UDPAddr
  localNetworks : List IPRange
  allowLAN : Bool

/-- What is installed on the host on behalf of the tunnel.  Addresses are spelled
    unmapped: a route is a route to the same host however the address is written. -/
structure Host where
  captured : Bool
  pinned : List Bytes
  engaged : Option Policy

namespace Host

/-- A host that the tunnel has not touched. -/
def clean : Host := ⟨false, [], none⟩

theorem eq_clean {h : Host} (hcap : h.captured = false) (hpin : h.pinned = [])
    (heng : h.engaged = none) : h = .clean := by
  cases h
  simp_all [Host.clean]

/-- The host after a command that was answered so. -/
def after : (c : EnvCall) → c.Result → Host → Host
  | .pinEndpoint ip _, true, h => { h with pinned := unmap ip :: h.pinned }
  | .unpinEndpoint ip, true, h => { h with pinned := h.pinned.filter (· ≠ unmap ip) }
  | .captureDefault, true, h => { h with captured := true }
  | .releaseDefault, true, h => { h with captured := false }
  | .engageKillSwitch endpoints lan allowLAN, true, h =>
    { h with engaged := some ⟨endpoints, lan, allowLAN⟩ }
  | .releaseKillSwitch, true, h => { h with engaged := none }
  | _, _, h => h

/-- The host answers as the input says. -/
def env (c : EnvCall) (i : TunnelInput) (h : Host) : c.Result × Host :=
  (i.env c, h.after c (i.env c))

theorem env_of {c : EnvCall} {i : TunnelInput} {h : Host} {r : c.Result} (hans : i.env c = r) :
    env c i h = (r, h.after c r) := by rw [env, hans]

end Host

abbrev Hosted := Sited Host

/-- The steps of the tunnel, with what they do to the host. -/
abbrev Hosted.handler : Handler tunnelIface Hosted TunnelInput :=
  sited lib Host.env fun _ i => i

/-! ## Willing hosts -/

namespace TunnelInput

/-- The same input, except that WireGuard and the host do as they are told. -/
def willing (i : TunnelInput) : TunnelInput :=
  { i with
    fault := none
    env
      | .pinEndpoint .. | .unpinEndpoint _ | .captureDefault | .releaseDefault
      | .engageKillSwitch .. | .releaseKillSwitch => true
      | c => i.env c }

/-- Nobody answers but the host, which has a default route. -/
def hostOnly : TunnelInput where
  now := 0
  order := .asStored
  env
    | .snapshotRoutes => some ⟨some [192, 0, 2, 1], "eth0"⟩
    | .localNetworks => some []
    | .pinEndpoint .. | .unpinEndpoint _ | .captureDefault | .releaseDefault
    | .engageKillSwitch .. | .releaseKillSwitch => true
    | c => c.unanswered
  fault := none
  loopback := none

end TunnelInput

/-- A tunnel that can change the host's routes. -/
def routerConfig : TunnelConfig := ⟨true, true, false, false, 0, 0⟩

/-- The tunnel on a host where no device or host command fails. -/
abbrev Hosted.willing : Handler tunnelIface Hosted TunnelInput :=
  sited lib (fun c i => Host.env c i.willing) fun _ i => i.willing

end NexusVPN.Client
