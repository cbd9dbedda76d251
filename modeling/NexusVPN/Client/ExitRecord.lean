import NexusVPN.Client.ExitLogic
import NexusVPN.Client.Registration
import NexusVPN.Lib.Machine

/-! # The exit record and the host

    `exitState` is there so that whatever exit-node mode has installed can be taken back
    later.  `ClearExitNode` empties it first and then tries to take things back, and what
    cannot be taken back is forgotten.  This module follows record and host through runs of
    calls in which commands fail. -/

namespace NexusVPN.Client

open List Prog Machine Hosted Host

/-! ## Runs -/

/-- A call, and what it meets on its way. -/
inductive ExitCall where
  | set (d : UUID) (opts : ExitNodeOptions) (w : Nat → TunnelInput)
  | clear (w : Nat → TunnelInput)

/-- A call runs from beginning to end. -/
def Hosted.step (lib : ClientLib) (cfg : TunnelConfig) (s : Hosted) : ExitCall → Option Hosted
  | .set d opts w => some ((setExitNode lib cfg d opts).exec (handler lib) w s).2
  | .clear w => some ((clearExitNode lib cfg).exec (handler lib) w s).2

/-- The record says which effects are installed on the host. -/
def Recorded (s : Hosted) : Prop :=
  s.tunnel.exit.captured = s.host.captured ∧ s.tunnel.exit.locked = s.host.engaged.isSome ∧
    ∀ ip, ip ∈ s.tunnel.exit.pinned.map unmap ↔ ip ∈ s.host.pinned

/-- A command that takes something back is obeyed. -/
def Yields : TunnelCall → TunnelInput → Prop
  | .env .releaseKillSwitch, i => i.env .releaseKillSwitch = true
  | .env .releaseDefault, i => i.env .releaseDefault = true
  | .env (.unpinEndpoint ip), i => i.env (.unpinEndpoint ip) = true
  | _, _ => True

/-- Whatever the call takes back is gone. -/
def UndoSucceeds (lib : ClientLib) (cfg : TunnelConfig) (s : Hosted) : ExitCall → Prop
  | .set d opts w => (setExitNode lib cfg d opts).EachCall (handler lib) Yields w s
  | .clear w => (clearExitNode lib cfg).EachCall (handler lib) Yields w s

/-! ## One call -/

/-- What holds between two calls. -/
def Settled (cfg : TunnelConfig) (s : Hosted) : Prop := Recorded s ∧ s.tunnel.exit.Sound cfg

section

variable {lib : ClientLib} {cfg : TunnelConfig} {s : Hosted}

theorem settled_off (hoff : s.tunnel.exit.Off) (hclean : s.host = .clean) : Settled cfg s := by
  obtain ⟨-, hpin, hcap, hlock⟩ := id hoff
  refine ⟨⟨?_, ?_, ?_⟩, hoff.sound⟩
  · rw [hcap, hclean]
    rfl
  · rw [hlock, hclean]
    rfl
  · rw [hpin, hclean]
    exact fun _ => Iff.rfl

/-- The same input, except that undoing succeeds. -/
def TunnelInput.yielding (i : TunnelInput) : TunnelInput :=
  { i with
    env
      | .releaseKillSwitch | .releaseDefault | .unpinEndpoint _ => true
      | c => i.env c }

/-- The tunnel on a host on which undoing succeeds. -/
abbrev Hosted.yielding (lib : ClientLib) : Handler tunnelIface Hosted TunnelInput :=
  sited lib (fun c i => env c i.yielding) fun _ i => i

theorem handler_of_yields (c : TunnelCall) (i : TunnelInput) (s : Hosted) (h : Yields c i) :
    handler lib c i s = yielding lib c i s := by
  cases c with
  | env c =>
    cases c with
    | releaseKillSwitch | releaseDefault | unpinEndpoint ip =>
      simp only [handler, yielding, sited, env_of h]
      rfl
    | _ => rfl
  | _ => rfl

theorem wp_unpinAll_yielding {ips : List Bytes} {Q : Unit → Hosted → Prop}
    (hips : ∀ ip ∈ s.host.pinned, ip ∈ ips.map unmap)
    (hQ : Q () { s with host := { s.host with pinned := [] } }) :
    wp (yielding lib) (unpinAll ips) Q s := by
  refine wp_unpinAll (J := fun todo h => (∀ ip ∈ h.pinned, ip ∈ todo.map unmap) ∧
    { h with pinned := [] } = { s.host with pinned := [] }) ?_ ?_ ⟨hips, rfl⟩
  · rintro ip todo h i ⟨hpin, hrest⟩
    rw [env_of (i := i.yielding) rfl]
    refine ⟨?_, hrest⟩
    intro ip' hip'
    obtain ⟨hold, hne⟩ := mem_filter.mp hip'
    rcases mem_cons.mp (hpin ip' hold) with heq | htodo
    · simp [heq] at hne
    · exact htodo
  · rintro h ⟨hpin, hrest⟩
    have hnil : h.pinned = [] := eq_nil_iff_forall_not_mem.mpr fun ip hip => by
      cases hpin ip hip
    have hh : h = { s.host with pinned := [] } := by
      rw [← hrest, ← hnil]
    rw [hh]
    exact hQ

theorem Recorded.not_captured (h : Recorded s) (hnot : s.tunnel.exit.captured ≠ true) :
    s.host.captured = false := by
  rw [← h.1]
  exact Bool.eq_false_iff.mpr hnot

theorem Recorded.not_locked (h : Recorded s) (hnot : s.tunnel.exit.locked ≠ true) :
    s.host.engaged = none := by
  exact Option.not_isSome_iff_eq_none.mp fun hsome => hnot (h.2.1.trans hsome)

theorem Recorded.not_pinned (h : Recorded s) (hnot : s.tunnel.exit.pinned = []) :
    s.host.pinned = [] := by
  refine eq_nil_iff_forall_not_mem.mpr ?_
  intro ip hip
  have hmem := (h.2.2 ip).mpr hip
  rw [hnot] at hmem
  cases hmem

theorem Settled.not_pinned (h : Settled cfg s) (hnot : s.tunnel.exit.captured ≠ true) :
    s.host.pinned = [] := by
  refine h.1.not_pinned ?_
  by_contra hpins
  exact hnot (h.2.1 hpins)

/-- Clearing takes everything back. -/
theorem wp_clearExitNode_yielding (hs : Settled cfg s) {Q : Option ExitError → Hosted → Prop}
    (hQ : ∀ err wg, s.tunnel.Retold lib wg → Q err ⟨{ s.tunnel.cleared with wg := wg }, .clean⟩) :
    wp (yielding lib) (clearExitNode lib cfg) Q s := by
  obtain ⟨hrec, -, hrtr, hsw⟩ := id hs
  refine wp_clearExitNode (L := fun h => h = { s.host with engaged := none })
    (R := fun h => h = { s.host with engaged := none, captured := false })
    (U := fun h => h = .clean) ?_ ?_ ?_ ?_ ?_
  · intro _ hcap hlock
    have hcap' : s.tunnel.exit.captured ≠ true := by simp [hcap]
    have hlock' : s.tunnel.exit.locked ≠ true := by simp [hlock]
    have hclean : s.host = .clean := eq_clean (hrec.not_captured hcap')
      (hs.not_pinned hcap') (hrec.not_locked hlock')
    rw [hclean]
    exact hQ none s.tunnel.wg (.inl rfl)
  · refine ⟨fun _ _ _ => rfl, fun hskip => ?_⟩
    rw [← hrec.not_locked fun h => hskip ⟨h, hsw h⟩]
  · rintro h rfl
    refine ⟨fun _ _ _ => rfl, fun hskip => ?_⟩
    rw [← hrec.not_captured fun h => hskip ⟨h, hrtr h⟩]
  · rintro h rfl
    refine ⟨?_, ?_⟩
    · intro _
      exact wp_unpinAll_yielding (fun ip hip => (hrec.2.2 ip).mpr hip) ⟨rfl, rfl⟩
    · intro hno
      have hcap : s.tunnel.exit.captured ≠ true := fun h =>
        absurd (hno.symm.trans (hrtr h)) Bool.false_ne_true
      exact eq_clean rfl (hs.not_pinned hcap) rfl
  · rintro err wg h hwg rfl
    exact hQ err wg hwg

theorem settled_cleared (wg : WGDevice) :
    Settled cfg ⟨{ s.tunnel.cleared with wg := wg }, .clean⟩ :=
  settled_off ⟨rfl, rfl, rfl, rfl⟩ rfl

theorem wp_unwind_yielding {pr : PeerRef} {pinned : List Bytes} {Q : Unit → Hosted → Prop}
    (hoff : s.tunnel.exit.Off) (hcap : s.host.captured = false)
    (heng : s.host.engaged = none) (hpin : ∀ ip ∈ s.host.pinned, ip ∈ pinned.map unmap)
    (hQ : ∀ s', s'.tunnel.exit.Off → s'.host = .clean → Q () s') :
    wp (yielding lib) (unwind lib pr pinned) Q s := by
  refine wp_then (wp_unpinAll_yielding hpin ?_)
  have hclean : { s.host with pinned := [] } = clean := eq_clean hcap rfl heng
  refine wp_then (wp_narrowPeer ?_ ?_)
  · exact fun _ _ => hQ _ hoff hclean
  · exact fun _ _ _ _ => hQ _ hoff hclean

/-- From a clean host, whatever `SetExitNode` installs and keeps is recorded. -/
theorem wp_captureThrough_yielding {pr : PeerRef} {prior : DefaultRoute} {d : UUID}
    {opts : ExitNodeOptions} (hrtr : cfg.router = true) (hoff : s.tunnel.exit.Off)
    (hclean : s.host = .clean) :
    wp (yielding lib) (captureThrough lib cfg pr prior d opts) (fun _ s' => Settled cfg s') s := by
  refine wp_then (wp_transportEndpoints fun i => wp_then ?_)
  refine wp_pinAll (J := fun _ pinned h => h.captured = false ∧ h.engaged = none ∧
    ∀ ip, ip ∈ pinned.map unmap ↔ ip ∈ h.pinned) ?_ ?_ ?_ ?_
  · rintro ip ips pinned h j ⟨hcap, heng, hpin⟩ hok
    rw [env_of (c := .pinEndpoint ip prior) (i := j.yielding) hok]
    refine ⟨hcap, heng, ?_⟩
    intro ip'
    show _ ↔ ip' ∈ unmap ip :: h.pinned
    rw [map_append, mem_append, hpin, mem_cons]
    simp [or_comm]
  · rintro ip ips pinned h j ⟨hcap, heng, hpin⟩ hbad
    rw [env_of (c := .pinEndpoint ip prior) (i := j.yielding) hbad]
    exact wp_then (wp_unwind_yielding hoff hcap heng (fun ip hip => (hpin ip).mpr hip)
      fun s' => settled_off)
  · rintro pinned h ⟨hcap, heng, hpin⟩
    refine wp_askEnv fun j => ?_
    cases hok : j.yielding.env .captureDefault with
    | false =>
      rw [env_of hok]
      exact wp_then (wp_unwind_yielding hoff hcap heng (fun ip hip => (hpin ip).mpr hip)
        fun s' => settled_off)
    | true =>
      rw [env_of hok]
      have hunl : Settled cfg
          ⟨{ s.tunnel with exit := ⟨d, prior, pinned, true, s.tunnel.exit.locked⟩ },
            { h with captured := true }⟩ := by
        refine ⟨⟨rfl, ?_, hpin⟩, fun _ => rfl, fun _ => hrtr, ?_⟩
        · rw [hoff.2.2.2, heng]
          rfl
        · exact fun hlock => absurd (hoff.2.2.2.symm.trans hlock) Bool.false_ne_true
      have hlock : cfg.killSwitch = true → ∀ policy, Settled cfg
          ⟨{ s.tunnel with exit := ⟨d, prior, pinned, true, true⟩ },
            { h with captured := true, engaged := some policy }⟩ :=
        fun hks _ => ⟨⟨rfl, rfl, hpin⟩, fun _ => rfl, fun _ => hrtr, fun _ => hks⟩
      refine fun _ => ?_
      cases opts.killSwitch with
      | false => exact hunl
      | true =>
        refine wp_engageKillSwitch (fun _ _ => rfl) (fun _ _ => hunl) ?_ ?_
        · intro _ _ _ _ hks hres
          obtain ⟨hans, rfl⟩ := Prod.mk.inj hres
          rw [hans]
          exact hlock hks _
        · intro _ _ _ _ hres
          obtain ⟨hans, rfl⟩ := Prod.mk.inj hres
          rw [hans]
          exact hunl
  · rw [hclean]
    exact ⟨rfl, rfl, fun _ => Iff.rfl⟩

theorem wp_setExitNode_yielding {d : UUID} {opts : ExitNodeOptions} (hs : Settled cfg s) :
    wp (yielding lib) (setExitNode lib cfg d opts) (fun _ s' => Settled cfg s') s := by
  unfold setExitNode
  cases hrtr : cfg.router with
  | false => exact hs
  | true =>
    refine wp_lookupPeer ?_
    cases s.tunnel.peers.lookup d with
    | none => exact hs
    | some pr =>
      refine wp_then (wp_clearExitNode_yielding hs ?_)
      intro err wg _
      cases err with
      | some e => exact settled_cleared wg
      | none =>
        refine wp_askEnv fun i => ?_
        cases (env .snapshotRoutes i.yielding .clean).1 with
        | none => exact settled_cleared wg
        | some prior =>
          refine wp_then (wp_updatePeerAllowedIPs ?_ ?_)
          · exact fun _ _ => settled_cleared wg
          · exact fun _ _ _ _ =>
              wp_captureThrough_yielding hrtr ⟨rfl, rfl, rfl, rfl⟩ rfl

end

/-! ## Whole runs -/

theorem settled_step (lib : ClientLib) (cfg : TunnelConfig) (s : Hosted) (a : ExitCall)
    (s' : Hosted) (hs : Settled cfg s) (hundo : UndoSucceeds lib cfg s a)
    (hstep : s.step lib cfg a = some s') : Settled cfg s' := by
  -- All that is taken back is gone, as on a host on which undoing succeeds.
  cases a with
  | set d opts w =>
    cases hstep
    rw [EachCall.exec_eq handler_of_yields hundo]
    exact wp_exec (wp_setExitNode_yielding hs) w
  | clear w =>
    cases hstep
    rw [EachCall.exec_eq handler_of_yields hundo]
    exact wp_exec (wp_clearExitNode_yielding hs fun _ wg _ => settled_cleared wg) w

/-- In every run of `SetExitNode` and `ClearExitNode` calls in which whatever is taken back
    is gone, the record says after each call which effects are installed on the host. -/
theorem record_matches_host (lib : ClientLib) (cfg : TunnelConfig) (s : Hosted)
    (hoff : s.tunnel.exit.Off) (hclean : s.host = .clean) (as : List ExitCall)
    (hundo : Along (step lib cfg) (UndoSucceeds lib cfg) s as) :
    Throughout (step lib cfg) Recorded s as := by
  have hset := hundo.throughout (settled_step lib cfg) (settled_off hoff hclean)
  exact hset.mono fun _ h => h.1

/-- The default route cannot be captured. -/
def uncapturable : TunnelInput :=
  { TunnelInput.hostOnly with
    env := fun c => match c with
      | .captureDefault => false
      | c => TunnelInput.hostOnly.env c }

/-- The laptop's address is pinned, unpinned, pinned again and unpinned again when capturing
    fails. -/
def setClearedAndFailed : List ExitCall :=
  [.set laptopID ⟨true, false⟩ fun _ => .hostOnly, .clear fun _ => .hostOnly,
    .set laptopID ⟨true, false⟩ fun _ => uncapturable]

theorem record_matches_host_laptop :
    (reachableTunnel.exit.Off ∧
      Along (step internetLib routerConfig) (UndoSucceeds internetLib routerConfig)
        ⟨reachableTunnel, .clean⟩ setClearedAndFailed) ∧
    Throughout (step internetLib routerConfig) Recorded ⟨reachableTunnel, .clean⟩
      setClearedAndFailed := by
  have hundo : Along (step internetLib routerConfig) (UndoSucceeds internetLib routerConfig)
      ⟨reachableTunnel, .clean⟩ setClearedAndFailed := by
    have hyields : ∀ c, Yields c .hostOnly ∧ Yields c uncapturable := by
      intro c
      cases c with
      | env c => cases c <;> exact ⟨by trivial, by trivial⟩
      | _ => exact ⟨trivial, trivial⟩
    have hhost : ∀ {α : Type} (p : TunnelM α) s,
        p.EachCall (handler internetLib) Yields (fun _ => .hostOnly) s :=
      eachCall_of_forall fun c _ => (hyields c).1
    refine fun _ _ => ⟨hhost _ _, fun _ _ => ⟨hhost _ _, fun _ _ => ⟨?_, trivial⟩⟩⟩
    exact eachCall_of_forall (fun c _ => (hyields c).2) _ _
  exact ⟨⟨⟨rfl, rfl, rfl, rfl⟩, hundo⟩, record_matches_host internetLib routerConfig
    ⟨reachableTunnel, .clean⟩ ⟨rfl, rfl, rfl, rfl⟩ rfl _ hundo⟩

/-- The kill switch cannot be released. -/
def stuckSwitch : TunnelInput :=
  { TunnelInput.hostOnly with
    env := fun c => match c with
      | .releaseKillSwitch => false
      | c => TunnelInput.hostOnly.env c }

/-- A tunnel with one peer, on a clean host. -/
def laptopHosted : Hosted := ⟨laptopTunnel, .clean⟩

/-- The kill switch resists once, and the machine stays locked: the record has forgotten
    it, and clearing again does nothing. -/
theorem lock_forgotten :
    ∃ s, run (step laptopLib routerConfig) laptopHosted
        [.set laptopID ⟨true, false⟩ fun _ => .hostOnly, .clear fun _ => stuckSwitch,
          .clear fun _ => .hostOnly] = some s ∧
      s.tunnel.exit.locked = false ∧ s.host.engaged = some ⟨[], [], false⟩ ∧ ¬ Recorded s := by
  refine ⟨_, rfl, rfl, rfl, ?_⟩
  intro hrec
  cases hrec.2.1

end NexusVPN.Client
