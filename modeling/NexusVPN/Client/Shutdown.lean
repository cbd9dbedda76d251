import NexusVPN.Client.Host
import NexusVPN.Client.Programs
import NexusVPN.Client.Registration

/-! # Shutting the tunnel down

    When `Start` ends it clears the exit node and then lets go of the peers, while calls of
    the agent may still be anywhere in `SetExitNode` or `ClearExitNode`: they share no lock
    with it.  Whatever is installed on the host is either in the exit record or in the hands
    of a call that will take it back or record it; what goes wrong is that a call records
    something after the record has been taken for the last time. -/

namespace NexusVPN.Client

open List Prog Machine Hosted Honest Pool Discipline

/-! ## Calls of the agent -/

inductive AgentCall where
  | tunnel (c : TunnelCall)
  /-- The section of `shutdownPeers` under `t.mu`: every peer is taken off the list. -/
  | takePeers

@[reducible] def agentIface : Iface where
  Call := AgentCall
  Ans
    | .tunnel c => tunnelIface.Ans c
    | .takePeers => List PeerRef

/-- The sections, on a host where no command fails. -/
def Agent.handler (lib : ClientLib) : Handler agentIface Hosted TunnelInput
  | .tunnel c, i, s => willing lib c i s
  | .takePeers, i, s =>
    ((GoMap.range i.order s.tunnel.peers).map Prod.snd,
      { s with tunnel := { s.tunnel with peers := ∅ } })

abbrev AgentM := Prog agentIface

/-- A program of the tunnel, run by the agent. -/
def TunnelM.run {α : Type} (p : TunnelM α) : AgentM α :=
  p.expand fun c => Prog.ask (I := agentIface) (.tunnel c)

open TunnelM

/-- `pr.close()` for each of them. -/
def closePeers : List PeerRef → AgentM Unit
  | [] => return ()
  | pr :: prs => do
    run (closePeer pr)
    closePeers prs

def shutdownPeers : AgentM Unit := do
  closePeers (← Prog.ask (I := agentIface) .takePeers)

/-- The end of `Start`. -/
def shutdown (lib : ClientLib) (cfg : TunnelConfig) : AgentM Unit := do
  let _ ← run (clearExitNode lib cfg)
  shutdownPeers

/-- What is running: calls of the agent, and the end of `Start`. -/
inductive AgentTask where
  | setExitNode (d : UUID) (opts : ExitNodeOptions)
  | clearExitNode
  | shutdown

def AgentTask.body (lib : ClientLib) (cfg : TunnelConfig) : AgentTask → AgentM Unit
  | .setExitNode d opts => do let _ ← run (Client.setExitNode lib cfg d opts)
  | .clearExitNode => do let _ ← run (Client.clearExitNode lib cfg)
  | .shutdown => Client.shutdown lib cfg

abbrev AgentPool := Pool agentIface Hosted AgentTask Unit

def agentStep (lib : ClientLib) (cfg : TunnelConfig) :
    AgentPool → Action AgentTask TunnelInput → Option AgentPool :=
  step (Agent.handler lib) (AgentTask.body lib cfg) fun _ => none

/-- `Start` has returned, and so has every call: then the host is as it was found. -/
def LeavesHostClean (p : AgentPool) : Prop :=
  (.shutdown, .ret ()) ∈ p.threads → (∀ th ∈ p.threads, th.2 = .ret ()) → p.shared.host = .clean

/-- The end of `Start` has taken the exit record. -/
def RecordTaken (p : AgentPool) : Prop :=
  ∃ q, (.shutdown, q) ∈ p.threads ∧ ∀ k, q ≠ .call (.tunnel .takeExit) k

/-- What a call records is recorded in time: no exit node is recorded on top of another,
    and nothing at all once the end of `Start` has taken the record. -/
def RecordsInTime (p : AgentPool) : Action AgentTask TunnelInput → Prop
  | .spawn _ => True
  | .advance n _ =>
    match p.threads[n]? with
    | some (_, .call (.tunnel (.recordExit ..)) _) =>
      p.shared.tunnel.exit.captured = false ∧ ¬ RecordTaken p
    | some (_, .call (.tunnel .recordLocked) _) => ¬ RecordTaken p
    | _ => True

/-! ## Effects as debts -/

/-- Something that exit-node mode installs on the host. -/
inductive Effect where
  | pin (ip : Bytes)
  | capture
  | lock
deriving DecidableEq

namespace Effect

/-- The effect is there. -/
def On (h : Host) : Effect → Prop
  | .pin ip => ip ∈ h.pinned
  | .capture => h.captured = true
  | .lock => h.engaged.isSome = true

/-- What the answer to a call leaves in the hands of the caller. -/
def incurred : (c : TunnelCall) → tunnelIface.Ans c → List Effect
  | .env (.pinEndpoint ip _), true => [.pin (unmap ip)]
  | .env .captureDefault, true => [.capture]
  | .env (.engageKillSwitch ..), true => [.lock]
  | .takeExit, e =>
    e.pinned.map (fun ip => .pin (unmap ip)) ++ (if e.captured then [.capture] else []) ++
      if e.locked then [.lock] else []
  | _, _ => []

/-- What the call takes back from the host, or puts into the record. -/
def settled : TunnelCall → List Effect
  | .env (.unpinEndpoint ip) => [.pin (unmap ip)]
  | .env .releaseDefault => [.capture]
  | .env .releaseKillSwitch => [.lock]
  | .recordExit _ _ pinned => .capture :: pinned.map fun ip => .pin (unmap ip)
  | .recordLocked => [.lock]
  | _ => []

end Effect

/-- The record holds the effect. -/
def ExitState.Holds (e : ExitState) : Effect → Prop
  | .pin ip => ip ∈ e.pinned.map unmap
  | .capture => e.captured = true
  | .lock => e.locked = true

variable {α : Type} {e : ExitState}

open Effect

theorem mem_incurred_takeExit {x : Effect} : x ∈ incurred .takeExit e ↔ e.Holds x := by
  cases x with
  | pin | capture | lock => simp [incurred, ExitState.Holds]

/-- A caller owes what it has installed or taken from the record, until it takes it back
    or records it. -/
def effectLedger (cfg : TunnelConfig) : Ledger tunnelIface Effect where
  may
    | .takeExit, e => e.Sound cfg
    | _, _ => True
  fine
    | .recordExit .. => cfg.router = true
    | .recordLocked => cfg.killSwitch = true
    | _ => True
  incurs := incurred
  settles := settled

/-! ## Every call is honest -/

namespace Effect

section

variable {lib : ClientLib} {cfg : TunnelConfig}

/-- The call neither installs nor records anything. -/
def harmless : TunnelCall → Bool
  | .takeExit | .recordExit .. | .recordLocked | .env (.pinEndpoint ..) | .env .captureDefault
  | .env (.engageKillSwitch ..) => false
  | _ => true

theorem legal_of_harmless {c : TunnelCall} (h : harmless c = true) :
    (honest (effectLedger cfg)).legal c := by
  cases c with
  | takeExit | recordExit | recordLocked => cases h
  | env e =>
    cases e with
    | pinEndpoint | captureDefault | engageKillSwitch => cases h
    | _ => exact ⟨trivial, fun _ => rfl⟩
  | _ => exact ⟨trivial, fun _ => rfl⟩

theorem legal_of_looks (c : TunnelCall) (hc : c.looks = true) :
    (honest (effectLedger cfg)).legal c := by
  refine legal_of_harmless ?_
  cases c with
  | env e => cases e <;> first | rfl | cases hc
  | _ => first | rfl | cases hc

theorem legal_of_undoes (c : TunnelCall) (hc : c.undoes = true) :
    (honest (effectLedger cfg)).legal c := by
  refine legal_of_harmless ?_
  cases c with
  | env e => cases e <;> first | rfl | cases hc
  | _ => first | rfl | cases hc

theorem harmless_then {c : TunnelCall} {f : tunnelIface.Ans c → TunnelM α} (h : harmless c = true)
    (hf : ∀ a, (f a).Honest (effectLedger cfg)) : (ask c >>= f).Honest (effectLedger cfg) :=
  (honest (effectLedger cfg)).next (legal_of_harmless h) hf

theorem honest_closePeer (pr : PeerRef) : (closePeer pr).Honest (effectLedger cfg) := by
  apply harmless_then rfl
  intro x
  cases x with
  | none => trivial
  | some x => exact harmless_then rfl fun _ => trivial

theorem owes_unpinAll {ips : List Bytes} {ip : Bytes} (h : ip ∈ ips) :
    (unpinAll ips).Owes (effectLedger cfg) (.pin (unmap ip)) := by
  induction ips with
  | nil => cases h
  | cons ip' ips ih =>
    rcases mem_cons.mp h with rfl | hrest
    · exact .inl (mem_singleton_self _)
    · exact .inr fun _ => ih hrest

/-! ### Clearing -/

theorem owes_releaseLock (hlock : e.locked = true) (hsw : cfg.killSwitch = true) :
    (releaseLock cfg e).Owes (effectLedger cfg) .lock := by
  unfold releaseLock
  rw [if_pos (by simp [hlock, hsw])]
  exact .inl (mem_singleton_self _)

theorem owes_releaseRoute (hcap : e.captured = true) (hrtr : cfg.router = true) :
    (releaseRoute cfg e).Owes (effectLedger cfg) .capture := by
  unfold releaseRoute
  rw [if_pos (by simp [hcap, hrtr])]
  exact .inl (mem_singleton_self _)

theorem not_holds_of_off (hsound : e.Sound cfg)
    (hoff : e.deviceID = .nil ∧ ¬ e.captured ∧ ¬ e.locked) (x : Effect) : ¬ e.Holds x := by
  obtain ⟨-, hcap, hlock⟩ := hoff
  intro hx
  cases x with
  | pin ip =>
    obtain ⟨ip', hip', -⟩ := mem_map.mp hx
    exact hcap (hsound.1 (ne_nil_of_mem hip'))
  | capture => exact hcap hx
  | lock => exact hlock hx

theorem honest_clearExitNode : (clearExitNode lib cfg).Honest (effectLedger cfg) := by
  refine ⟨trivial, ?_⟩
  intro e hsound
  show (if e.deviceID = .nil ∧ ¬ e.captured ∧ ¬ e.locked then _ else _ : TunnelM _).Honest
      (effectLedger cfg) ∧ ∀ x ∈ incurred .takeExit e,
    (if e.deviceID = .nil ∧ ¬ e.captured ∧ ¬ e.locked then _ else _ : TunnelM _).Owes
      (effectLedger cfg) x
  by_cases hoff : e.deviceID = .nil ∧ ¬ e.captured ∧ ¬ e.locked
  · rw [if_pos hoff]
    exact ⟨trivial, fun x hx =>
      absurd (mem_incurred_takeExit.mp hx) (not_holds_of_off hsound hoff x)⟩
  · rw [if_neg hoff]
    have hend : ∀ e₁ e₂, (narrowExit lib e >>= fun e₃ =>
        (pure (e₁ <|> e₂ <|> e₃) : TunnelM (Option ExitError))).Honest (effectLedger cfg) :=
      fun _ _ => bind (holds_narrowExit legal_of_undoes e) fun _ => trivial
    refine ⟨?_, ?_⟩
    · apply bind (holds_releaseLock legal_of_undoes e)
      intro e₁
      apply bind (holds_releaseRoute legal_of_undoes e)
      intro e₂
      by_cases hrtr : cfg.router = true
      · rw [if_pos hrtr]
        exact bind (holds_unpinAll legal_of_undoes _) fun _ => hend e₁ e₂
      · rw [if_neg hrtr]
        exact hend e₁ e₂
    · intro x hx
      -- What was in the record has been taken, and each part has its own call that undoes it.
      have hholds := mem_incurred_takeExit.mp hx
      cases x with
      | pin ip =>
        obtain ⟨ip', hip', rfl⟩ := mem_map.mp hholds
        have hrtr := hsound.2.1 (hsound.1 (ne_nil_of_mem hip'))
        apply Owes.bind_right
        intro e₁
        apply Owes.bind_right
        intro e₂
        rw [if_pos hrtr]
        exact (owes_unpinAll hip').bind _
      | capture =>
        apply Owes.bind_right
        intro e₁
        exact (owes_releaseRoute hholds (hsound.2.1 hholds)).bind _
      | lock => exact (owes_releaseLock hholds (hsound.2.2 hholds)).bind _

/-! ### Setting -/

theorem honest_pinAll {prior : DefaultRoute} {f : Option Bytes × List Bytes → TunnelM α}
    (hf : ∀ r pinned, (f (r, pinned)).Honest (effectLedger cfg) ∧
      ∀ ip ∈ pinned, (f (r, pinned)).Owes (effectLedger cfg) (.pin (unmap ip)))
    (ips pinned : List Bytes) :
    (pinAll prior ips pinned >>= f).Honest (effectLedger cfg) ∧
      ∀ ip ∈ pinned, (pinAll prior ips pinned >>= f).Owes (effectLedger cfg) (.pin (unmap ip)) := by
  induction ips generalizing pinned with
  | nil => exact hf none pinned
  | cons ip ips ih =>
    -- Each pin joins those that are owed, until the end or the first refusal.
    have hmore := ih (pinned ++ [ip])
    have hstop := hf (some ip) pinned
    refine ⟨⟨trivial, ?_⟩, ?_⟩
    · intro ok _
      cases ok with
      | true =>
        refine ⟨hmore.1, ?_⟩
        intro x hx
        rw [mem_singleton.mp hx]
        exact hmore.2 ip (mem_append_right _ (mem_singleton_self ip))
      | false => exact ⟨hstop.1, fun x hx => by cases hx⟩
    · intro ip' hip'
      refine .inr fun ok => ?_
      cases ok with
      | true => exact hmore.2 ip' (mem_append_left _ hip')
      | false => exact hstop.2 ip' hip'

theorem honest_engageKillSwitch (allowLAN : Bool) :
    (engageKillSwitch cfg allowLAN).Honest (effectLedger cfg) := by
  unfold engageKillSwitch
  cases hsw : cfg.killSwitch with
  | false => trivial
  | true =>
    apply bind (holds_transportAddrPorts legal_of_looks)
    intro endpoints
    apply bind (holds_lanFor legal_of_looks allowLAN)
    intro lan
    cases lan with
    | none => trivial
    | some lan =>
      refine ⟨trivial, ?_⟩
      intro ok _
      cases ok with
      | false => exact ⟨trivial, fun x hx => by cases hx⟩
      | true =>
        -- The next step records it.
        refine ⟨⟨hsw, fun _ _ => ⟨trivial, fun x hx => by cases hx⟩⟩, ?_⟩
        intro x hx
        rw [mem_singleton.mp hx]
        exact .inl (mem_singleton_self _)

theorem honest_captureThrough {pr : PeerRef} {prior : DefaultRoute} {d : UUID}
    {opts : ExitNodeOptions} (hrtr : cfg.router = true) :
    (captureThrough lib cfg pr prior d opts).Honest (effectLedger cfg) := by
  apply bind (holds_transportEndpoints legal_of_looks)
  intro ips
  refine (honest_pinAll ?_ ips []).1
  intro r pinned
  -- If it fails it takes the pins back, and otherwise it records them.
  have hundo : ∀ err : ExitError, (unwind lib pr pinned >>= fun _ =>
      (pure (.error err) : TunnelM (Except ExitError Unit))).Honest (effectLedger cfg) ∧
      ∀ ip ∈ pinned, (unwind lib pr pinned >>= fun _ =>
        (pure (.error err) : TunnelM (Except ExitError Unit))).Owes (effectLedger cfg)
          (.pin (unmap ip)) :=
    fun err => ⟨bind (holds_unwind legal_of_undoes pr pinned) fun _ => trivial,
      fun ip hip => ((owes_unpinAll hip).bind _).bind _⟩
  cases r with
  | some ip => exact hundo (.pin ip)
  | none =>
    have hrec : (ask (.recordExit d prior pinned) >>= fun _ =>
        if opts.killSwitch then engageKillSwitch cfg opts.allowLAN
        else (pure (.ok ()) : TunnelM (Except ExitError Unit))).Honest (effectLedger cfg) := by
      refine ⟨hrtr, ?_⟩
      intro _ _
      refine ⟨?_, fun x hx => by cases hx⟩
      split
      · exact honest_engageKillSwitch _
      · trivial
    refine ⟨⟨trivial, ?_⟩, ?_⟩
    · intro ok _
      cases ok with
      | true =>
        refine ⟨hrec, ?_⟩
        intro x hx
        rw [mem_singleton.mp hx]
        exact .inl mem_cons_self
      | false => exact ⟨(hundo .capture).1, fun x hx => by cases hx⟩
    · intro ip hip
      refine .inr fun ok => ?_
      cases ok with
      | true => exact .inl (mem_cons_of_mem _ (mem_map_of_mem hip))
      | false => exact (hundo .capture).2 ip hip

theorem honest_setExitNode {d : UUID} {opts : ExitNodeOptions} :
    (setExitNode lib cfg d opts).Honest (effectLedger cfg) := by
  unfold setExitNode
  cases hrtr : cfg.router with
  | false => trivial
  | true =>
    apply harmless_then rfl
    intro pr
    cases pr with
    | none => trivial
    | some pr =>
      apply honest_clearExitNode.bind
      intro err
      cases err with
      | some e => trivial
      | none =>
        apply harmless_then rfl
        intro prior
        cases prior with
        | none => trivial
        | some prior =>
          apply bind (holds_updatePeerAllowedIPs legal_of_undoes pr _)
          intro r
          cases r with
          | error e => trivial
          | ok _ => exact honest_captureThrough hrtr

end

end Effect

/-- The ledger for everything the agent runs. -/
def agentLedger (cfg : TunnelConfig) : Ledger agentIface Effect where
  may
    | .tunnel c, a => (effectLedger cfg).may c a
    | .takePeers, _ => True
  fine
    | .tunnel c => (effectLedger cfg).fine c
    | .takePeers => True
  incurs
    | .tunnel c, a => incurred c a
    | .takePeers, _ => []
  settles
    | .tunnel c => settled c
    | .takePeers => []

section

variable {lib : ClientLib} {cfg : TunnelConfig}

theorem owes_run {x : Effect} {p : TunnelM α} (h : p.Owes (effectLedger cfg) x) :
    (run p).Owes (agentLedger cfg) x := by
  induction p with
  | ret a => exact h
  | call c k ih =>
    rcases h with hpays | hlater
    · exact .inl hpays
    · exact .inr fun a => ih a (hlater a)

theorem honest_run {p : TunnelM α} (h : p.Honest (effectLedger cfg)) :
    (run p).Honest (agentLedger cfg) := by
  induction p with
  | ret a => trivial
  | call c k ih =>
    refine ⟨h.1, ?_⟩
    intro a ha
    obtain ⟨hrest, howes⟩ := h.2 a ha
    exact ⟨ih a hrest, fun x hx => owes_run (howes x hx)⟩

theorem honest_closePeers (prs : List PeerRef) : (closePeers prs).Honest (agentLedger cfg) := by
  induction prs with
  | nil => trivial
  | cons pr prs ih => exact (honest_run (honest_closePeer pr)).bind fun _ => ih

theorem honest_agentTask (t : AgentTask) : (t.body lib cfg).Honest (agentLedger cfg) := by
  cases t with
  | setExitNode d opts =>
    exact (honest_run honest_setExitNode).bind fun _ => trivial
  | clearExitNode =>
    exact (honest_run honest_clearExitNode).bind fun _ => trivial
  | shutdown =>
    apply (honest_run honest_clearExitNode).bind
    intro _
    refine ⟨trivial, ?_⟩
    intro prs _
    exact ⟨honest_closePeers prs, fun x hx => by cases hx⟩

/-! ## One step -/

section

variable (c : TunnelCall) (i : TunnelInput) (s : Hosted) {x : Effect}

/-- What is on after a call was on before, or the call has put it there. -/
theorem on_after (h : x.On (willing lib c i s).2.host) :
    x ∈ incurred c (willing lib c i s).1 ∨ x.On s.host := by
  cases c with
  | env e =>
    cases e with
    | pinEndpoint ip prior =>
      cases x with
      | pin ip' =>
        have hmem : ip' ∈ unmap ip :: s.host.pinned := h
        rcases mem_cons.mp hmem with rfl | hold
        · exact .inl (mem_singleton_self _)
        · exact .inr hold
      | capture | lock => exact .inr h
    | unpinEndpoint ip =>
      cases x with
      | pin ip' =>
        have hmem : ip' ∈ s.host.pinned.filter (· ≠ unmap ip) := h
        exact .inr (mem_filter.mp hmem).1
      | capture | lock => exact .inr h
    | captureDefault =>
      cases x with
      | pin | lock => exact .inr h
      | capture => exact .inl (mem_singleton_self _)
    | releaseDefault =>
      cases x with
      | pin | lock => exact .inr h
      | capture => cases h
    | engageKillSwitch endpoints lan allowLAN =>
      cases x with
      | pin | capture => exact .inr h
      | lock => exact .inl (mem_singleton_self _)
    | releaseKillSwitch =>
      cases x with
      | pin | capture => exact .inr h
      | lock => cases h
    | _ => exact .inr h
  | _ => exact .inr h

theorem settled_after (h : x ∈ settled c) :
    (s.tunnel.exit.after c).Holds x ∨ ¬ x.On (willing lib c i s).2.host := by
  cases c with
  | env e =>
    cases e with
    | unpinEndpoint ip =>
      rw [mem_singleton.mp h]
      refine .inr fun hon => ?_
      have hmem : unmap ip ∈ s.host.pinned.filter (· ≠ unmap ip) := hon
      simpa using (mem_filter.mp hmem).2
    | releaseDefault | releaseKillSwitch =>
      rw [mem_singleton.mp h]
      exact .inr Bool.false_ne_true
    | _ => cases h
  | recordExit d prior pinned =>
    rcases mem_cons.mp h with rfl | hpin
    · exact .inl rfl
    · obtain ⟨ip, hip, rfl⟩ := mem_map.mp hpin
      exact .inl (mem_map_of_mem hip)
  | recordLocked =>
    rw [mem_singleton.mp h]
    exact .inl rfl
  | _ => cases h

theorem holds_after (hsound : e.Sound cfg) (h : e.Holds x)
    (hrec : ∀ d prior pinned, c = .recordExit d prior pinned → e.captured = false) :
    (e.after c).Holds x ∨ c = .takeExit := by
  cases c with
  | takeExit => exact .inr rfl
  | recordExit d prior pinned =>
    have hno := hrec d prior pinned rfl
    cases x with
    | pin ip =>
      obtain ⟨ip', hip', -⟩ := mem_map.mp h
      exact absurd (hno.symm.trans (hsound.1 (ne_nil_of_mem hip'))) Bool.false_ne_true
    | capture => exact .inl rfl
    | lock => exact .inl h
  | recordLocked =>
    cases x with
    | pin | capture => exact .inl h
    | lock => exact .inl rfl
  | _ => exact .inl h

theorem sound_after (hsound : e.Sound cfg) (hfine : (effectLedger cfg).fine c) :
    (e.after c).Sound cfg := by
  obtain ⟨hpin, hrtr, hsw⟩ := hsound
  cases c with
  | takeExit =>
    exact ⟨fun h => absurd rfl h, fun h => absurd h Bool.false_ne_true,
      fun h => absurd h Bool.false_ne_true⟩
  | recordExit d prior pinned => exact ⟨fun _ => rfl, fun _ => hfine, hsw⟩
  | recordLocked => exact ⟨hpin, hrtr, fun _ => hfine⟩
  | _ => exact ⟨hpin, hrtr, hsw⟩

theorem holds_of_after (h : (e.after c).Holds x)
    (hexit : ∀ d prior pinned, c ≠ .recordExit d prior pinned) (hlock : c ≠ .recordLocked) :
    e.Holds x ∧ c ≠ .takeExit := by
  cases c with
  | takeExit => cases x <;> cases h
  | recordExit d prior pinned => exact absurd rfl (hexit d prior pinned)
  | recordLocked => exact absurd rfl hlock
  | _ => exact ⟨h, by simp⟩

end

/-! ## Whole runs -/

variable (cfg) in
/-- Everything on the host is in the record or in somebody's hands; and once the end of
    `Start` has taken the record, the record stays empty. -/
structure Tallied (p : AgentPool) : Prop where
  honest : ∀ th ∈ p.threads, th.2.Honest (agentLedger cfg)
  sound : p.shared.tunnel.exit.Sound cfg
  covered : ∀ x, x.On p.shared.host → p.shared.tunnel.exit.Holds x ∨ p.Owed (agentLedger cfg) x
  emptied : RecordTaken p → ∀ x, ¬ p.shared.tunnel.exit.Holds x

theorem agent_may {s : Hosted} (hsound : s.tunnel.exit.Sound cfg) (c : AgentCall)
    (i : TunnelInput) : (agentLedger cfg).may c (Agent.handler lib c i s).1 := by
  cases c with
  | takePeers => trivial
  | tunnel c =>
    cases c with
    | takeExit => exact hsound
    | _ => trivial

variable {p : AgentPool} {t : AgentTask} {n : Nat} {i : TunnelInput} {c : TunnelCall}
  {k : tunnelIface.Ans c → AgentM Unit}

theorem tallied_spawn (h : Tallied cfg p) (t : AgentTask) :
    Tallied cfg { p with threads := p.threads ++ [(t, t.body lib cfg)] } where
  honest := forall_mem_append.mpr ⟨h.honest, forall_mem_singleton.mpr (honest_agentTask t)⟩
  sound := h.sound
  covered := fun x hx => (h.covered x hx).imp_right fun howed => howed.append _ _
  emptied := by
    rintro ⟨q, hq, hpast⟩
    refine h.emptied ⟨q, ?_, hpast⟩
    rcases mem_append.mp hq with hold | hnew
    · exact hold
    · -- A new thread has not taken anything yet.
      obtain ⟨rfl, rfl⟩ := Prod.mk.inj (mem_singleton.mp hnew)
      exact absurd rfl (hpast _)

theorem covered_advance (h : Tallied cfg p)
    (hn : p.threads[n]? = some (t, .call (.tunnel c) k))
    (hrecord : ∀ d prior pinned, c = .recordExit d prior pinned →
      p.shared.tunnel.exit.captured = false) (x : Effect)
    (hx : x.On (willing lib c i p.shared).2.host) :
    (p.shared.tunnel.exit.after c).Holds x ∨
      (⟨(willing lib c i p.shared).2,
        p.threads.set n (t, k (willing lib c i p.shared).1) ++ []⟩ : AgentPool).Owed
          (agentLedger cfg) x := by
  have hhon := h.honest _ (mem_of_getElem? hn)
  have hincurred (hin : x ∈ incurred c (willing lib c i p.shared).1) :=
    owed_of_incurs hn hhon (agent_may h.sound (.tunnel c) i) hin (willing lib c i p.shared).2 []
  rcases on_after c i p.shared hx with hin | hon
  · exact .inr (hincurred hin)
  · rcases h.covered x hon with hheld | howed
    · rcases holds_after c h.sound hheld hrecord with hstill | htaken
      · exact .inl hstill
      · subst htaken
        exact .inr (hincurred (mem_incurred_takeExit.mpr hheld))
    · by_cases hset : x ∈ settled c
      · rcases settled_after c i p.shared hset with hrec | hgone
        · exact .inl hrec
        · exact absurd hx hgone
      · exact .inr (howed.advance hn hset _ _ _)

theorem recordTaken_advance {c : AgentCall} {k : agentIface.Ans c → AgentM Unit}
    (hn : p.threads[n]? = some (t, .call c k)) {a : agentIface.Ans c} {s : Hosted}
    (h : RecordTaken ⟨s, p.threads.set n (t, k a) ++ []⟩) :
    RecordTaken p ∨ c = .tunnel .takeExit := by
  obtain ⟨q, hq, hpast⟩ := h
  rw [append_nil] at hq
  rcases mem_or_eq_of_mem_set hq with hold | hnew
  · exact .inl ⟨q, hold, hpast⟩
  · obtain ⟨rfl, -⟩ := Prod.mk.inj hnew
    by_cases htake : c = .tunnel .takeExit
    · exact .inr htake
    · refine .inl ⟨.call c k, mem_of_getElem? hn, ?_⟩
      intro k' heq
      exact htake (Prog.call.inj heq).1

theorem tallied_step (p : AgentPool) (a : Action AgentTask TunnelInput) (p' : AgentPool)
    (h : Tallied cfg p) (htime : RecordsInTime p a) (hstep : agentStep lib cfg p a = some p') :
    Tallied cfg p' := by
  have hhonest' := honest_step honest_agentTask (agent_may h.sound) hstep h.honest
  rcases step_cases hstep with ⟨t, -, rfl⟩ | ⟨n, i, t, c, k, rfl, hn, rfl⟩
  · exact tallied_spawn h t
  · cases c with
    | takePeers =>
      refine ⟨hhonest', h.sound, ?_, ?_⟩
      · intro x hx
        exact (h.covered x hx).imp_right fun howed => howed.advance hn not_mem_nil _ _ _
      · intro htaken
        rcases recordTaken_advance hn htaken with hpre | hnow
        · exact h.emptied hpre
        · cases hnow
    | tunnel c =>
      have hfine : (effectLedger cfg).fine c := (h.honest _ (mem_of_getElem? hn)).1
      have hexit : (willing lib c i p.shared).2.tunnel.exit =
          p.shared.tunnel.exit.after c := sited_exit lib _ _ c i p.shared
      have hrec : ∀ d prior pinned, c = .recordExit d prior pinned →
          p.shared.tunnel.exit.captured = false ∧ ¬ RecordTaken p := by
        rintro d prior pinned rfl
        simpa only [RecordsInTime, hn] using htime
      have hlock : c = .recordLocked → ¬ RecordTaken p := by
        rintro rfl
        simpa only [RecordsInTime, hn] using htime
      refine ⟨hhonest', ?_, ?_, ?_⟩
      · show (willing lib c i p.shared).2.tunnel.exit.Sound cfg
        rw [hexit]
        exact sound_after c h.sound hfine
      · intro x hx
        show (willing lib c i p.shared).2.tunnel.exit.Holds x ∨ _
        rw [hexit]
        exact covered_advance h hn (fun d prior pinned hc => (hrec d prior pinned hc).1) x hx
      · intro htaken x
        show ¬ (willing lib c i p.shared).2.tunnel.exit.Holds x
        rw [hexit]
        intro hholds
        rcases recordTaken_advance hn htaken with hpre | hnow
        · -- The record was empty, and nobody records any more.
          have hold := holds_of_after c hholds
            (fun d prior pinned hc => (hrec d prior pinned hc).2 hpre)
            fun hc => hlock hc hpre
          exact h.emptied hpre x hold.1
        · obtain rfl := AgentCall.tunnel.inj hnow
          cases x <;> cases hholds

theorem Tallied.leavesHostClean (h : Tallied cfg p) : LeavesHostClean p := by
  intro hstart hret
  have hempty := h.emptied ⟨.ret (), hstart, fun k hk => by cases hk⟩
  have hoff : ∀ x, ¬ On p.shared.host x := by
    intro x hx
    rcases h.covered x hx with hheld | ⟨th, hth, howes⟩
    · exact hempty x hheld
    · -- Whoever has returned owes nothing.
      rw [hret th hth] at howes
      exact howes
  refine Host.eq_clean ?_ ?_ ?_
  · exact Bool.eq_false_iff.mpr (hoff .capture)
  · exact eq_nil_iff_forall_not_mem.mpr fun ip => hoff (.pin ip)
  · exact Option.not_isSome_iff_eq_none.mp (hoff .lock)

end

/-- In every interleaving of the end of `Start` with calls of `SetExitNode` and
    `ClearExitNode` in which what is recorded is recorded in time: once `Start` and all
    calls have returned, the default route is not captured, nothing is pinned and the kill
    switch is not engaged. -/
theorem stopped_tunnel_leaves_nothing (lib : ClientLib) (cfg : TunnelConfig) (s : Hosted)
    (hoff : s.tunnel.exit.Off) (hclean : s.host = .clean)
    (as : List (Action AgentTask TunnelInput))
    (htime : Along (agentStep lib cfg) RecordsInTime ⟨s, []⟩ as) :
    Throughout (agentStep lib cfg) LeavesHostClean ⟨s, []⟩ as := by
  have hinit : Tallied cfg ⟨s, []⟩ := by
    refine ⟨(fun th hth => nomatch hth), hoff.sound, ?_, ?_⟩
    · intro x hx
      replace hx : x.On Host.clean := hclean ▸ hx
      cases x <;> cases hx
    · rintro ⟨q, hq, -⟩
      cases hq
  exact (htime.throughout tallied_step hinit).mono fun _ h => h.leavesHostClean

/-- Thread `n` takes that many steps. -/
def agentSteps (n times : Nat) : List (Action AgentTask TunnelInput) :=
  List.replicate times (.advance n .hostOnly)

/-- An exit node is chosen, with the kill switch, while `Start` is about to end, and cleared
    by a call that finds the record taken. -/
def calmShutdown : List (Action AgentTask TunnelInput) :=
  .spawn (.setExitNode laptopID ⟨true, false⟩) :: agentSteps 0 5 ++
    .spawn .shutdown :: agentSteps 0 8 ++ .spawn .clearExitNode :: agentSteps 1 3 ++
    agentSteps 2 1 ++ agentSteps 1 5

theorem recordsInTime_calmShutdown :
    Along (agentStep laptopLib routerConfig) RecordsInTime ⟨⟨laptopTunnel, .clean⟩, []⟩
      calmShutdown := by
  have hpre : ∀ s q k, ¬ RecordTaken ⟨s, [(.setExitNode laptopID ⟨true, false⟩, q),
      (.shutdown, .call (.tunnel .takeExit) k)]⟩ := by
    rintro s q k ⟨q', hq', hnot⟩
    rcases mem_pair.mp hq' with heq | heq
    · cases (Prod.mk.inj heq).1
    · exact hnot k (Prod.mk.inj heq).2
  iterate 10 refine along_cons rfl trivial ?_
  -- The default route is captured and recorded, and then the lock.
  refine along_cons rfl ⟨rfl, hpre _ _ _⟩ ?_
  iterate 3 refine along_cons rfl trivial ?_
  refine along_cons rfl (hpre _ _ _) ?_
  -- The others record nothing.
  iterate 10 refine along_cons rfl trivial ?_
  trivial

theorem stopped_tunnel_leaves_nothing_laptop :
    (laptopTunnel.exit.Off ∧ Along (agentStep laptopLib routerConfig) RecordsInTime
      ⟨⟨laptopTunnel, .clean⟩, []⟩ calmShutdown) ∧
    Throughout (agentStep laptopLib routerConfig) LeavesHostClean
      ⟨⟨laptopTunnel, .clean⟩, []⟩ calmShutdown :=
  ⟨⟨⟨rfl, rfl, rfl, rfl⟩, recordsInTime_calmShutdown⟩,
    stopped_tunnel_leaves_nothing laptopLib routerConfig ⟨laptopTunnel, .clean⟩
      ⟨rfl, rfl, rfl, rfl⟩ rfl calmShutdown recordsInTime_calmShutdown⟩

/-- The route is captured when the tunnel is stopped, and recorded afterwards. -/
def lateRecord : List (Action AgentTask TunnelInput) :=
  .spawn (.setExitNode laptopID ⟨false, false⟩) :: agentSteps 0 8 ++
    .spawn .shutdown :: agentSteps 1 3 ++ agentSteps 0 1

/-- Everybody has returned, and all of the machine's traffic goes into a tunnel that is no
    longer there. -/
theorem captured_after_shutdown :
    ∃ p, run (agentStep laptopLib routerConfig) ⟨⟨laptopTunnel, .clean⟩, []⟩ lateRecord = some p ∧
      p.threads = [(.setExitNode laptopID ⟨false, false⟩, .ret ()), (.shutdown, .ret ())] ∧
      p.shared.host.captured = true ∧ ¬ LeavesHostClean p := by
  refine ⟨_, rfl, rfl, rfl, ?_⟩
  intro hleaves
  have hclean := hleaves (mem_cons_of_mem _ mem_cons_self)
    (forall_mem_cons.mpr ⟨rfl, forall_mem_singleton.mpr rfl⟩)
  cases congrArg Host.captured hclean

end NexusVPN.Client
