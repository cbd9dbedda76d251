import NexusVPN.Client.Registration
import NexusVPN.Client.Tasks

/-! # A removed peer stays removed

    `removePeer` takes a peer off the list, closes its proxy and removes its WireGuard entry,
    in three separate steps.  A negotiation for the same peer goes on: it can point WireGuard
    at a new proxy after the entry is gone, which creates the entry again, and hand the proxy
    to a peer that nobody lists any more. -/

namespace NexusVPN.Client

open List Prog Machine Pool

/-! ## Steps that concern a device -/

section

variable (lib : ClientLib) (cfg : TunnelConfig) (d : UUID) (key : Bytes)

/-- The call is about the device, or about the entry under the key. -/
def Concerns : TunnelCall → Prop
  | .lookupPeer d' | .insertPeer d' .. | .deletePeer d' | .newProxy d' _ => d' = d
  | .readPeer pr | .refreshPeer pr _ | .beginAttempt pr _ | .clearAttempt pr
  | .setLocalCandidate pr _ | .establishDirect pr | .takeProxy pr | .setMode pr _
  | .moveEndpoint pr _ | .observe pr _ _ | .goNegotiate pr => pr.deviceID = d
  | .adoptProxy pr x => pr.deviceID = d ∨ x.peerDeviceID = d
  | .closeProxy x => x.peerDeviceID = d
  | .upsertPeer cfg => lib.decodeKey cfg.publicKey = some key
  | .updateEndpoint publicKey _ | .removeWGPeer publicKey => lib.decodeKey publicKey = some key
  | _ => False

/-- Once the device is off the list and no goroutine has a step left that concerns it,
    WireGuard has no entry under the key and no proxy for the device is open. -/
def LeavesNothing (p : TunnelPool) : Prop :=
  p.shared.peers.lookup d = none → (∀ th ∈ p.threads, th.2.Avoids (Concerns lib d key)) →
    p.shared.wg.lookup key = none ∧ ∀ x ∈ p.shared.openProxies, x.peerDeviceID ≠ d

/-- The call that the step makes, if it makes one, is timely. -/
def Orderly (p : TunnelPool) : TaskStep → Prop
  | .spawn _ => True
  | .advance n i =>
    match p.threads[n]? with
    | some (_, .call c _) => Timely lib d key p.shared.books (p.Owed ledger) i c
    | _ => True

/-! ## The invariant -/

/-- All goroutines are honest, and everything is accounted for. -/
def Accounted (p : TunnelPool) : Prop :=
  (∀ th ∈ p.threads, th.2.Honest ledger) ∧ Balanced lib d key p.shared.books (p.Owed ledger)

theorem accounted_newTunnel (networkID region : String) :
    Accounted lib d key (newTunnel networkID region) := by
  refine ⟨(fun th hth => nomatch hth), ?_, ?_, ?_, ?_, ?_⟩
  · intro pr x hx
    cases hx
  · intro d' pr hpr
    cases hpr
  · intro pr x _ hx
    cases hx
  · intro x hx
    cases hx
  · intro hkey
    cases hkey

theorem accounted_step {p p' : TunnelPool} {a : TaskStep}
    (hp : Accounted lib d key p) (hord : Orderly lib d key p a)
    (hstep : tunnelStep lib cfg p a = some p') : Accounted lib d key p' := by
  obtain ⟨hhon, hbal⟩ := hp
  refine ⟨honest_step (honest_body lib cfg) (fun c i => handler_may lib c i _) hstep hhon, ?_⟩
  rcases step_cases hstep with ⟨t, -, rfl⟩ | ⟨n, i, t, c, k, rfl, hn, rfl⟩
  · -- A goroutine that is started owes nothing yet.
    exact hbal.mono fun x hx => hx.append _ _
  · have hcall := hhon _ (mem_of_getElem? hn)
    have htime : Timely lib d key p.shared.books (p.Owed ledger) i c := by
      simp only [Orderly, hn] at hord
      exact hord
    rw [handler_books]
    apply hbal.step hcall.1 htime
    · intro x hx hpays
      exact hx.advance hn hpays _ _ _
    · intro x hx
      rw [← handler_incurred lib] at hx
      exact owed_of_incurs hn hcall (handler_may lib c i p.shared) hx _ _

/-- Where everything is accounted for, nothing is left of what nobody lists or owes. -/
theorem leavesNothing_of_accounted {p : TunnelPool} (hp : Accounted lib d key p) :
    LeavesNothing lib d key p := by
  intro hgone hdone
  obtain ⟨-, hbal⟩ := hp
  have hans : ∀ c, Nonempty (tunnelIface.Ans c) := fun c =>
    ⟨(TunnelState.handler lib c ⟨0, .asStored, EnvCall.unanswered, none, none⟩ p.shared).1⟩
  -- A debt that only steps about the device can pay for is owed by nobody.
  have hnone : ∀ x, (∀ c, x ∈ ledger.settles c → Concerns lib d key c) → ¬ p.Owed ledger x := by
    rintro x hx ⟨th, hth, howes⟩
    exact not_owes_of_avoids hx (hdone th hth) howes
  constructor
  · cases hlook : p.shared.wg.lookup key with
    | none => rfl
    | some e =>
      have hsome : (p.shared.books.wg.lookup key).isSome := by
        show (p.shared.wg.lookup key).isSome
        rw [hlook]
        rfl
      -- An entry is there for a listed peer or for somebody who has to drop it.
      rcases hbal.keys hsome with ⟨pr, hpr, -⟩ | ⟨publicKey, hkey, hdrop⟩
      · cases hgone.symm.trans hpr
      · refine absurd hdrop (hnone _ ?_)
        intro c hc
        rw [eq_of_drop_mem_settled hc]
        exact hkey
  · intro x hx hxd
    rcases hbal.proxies x hx hxd with hclose | ⟨pr, hpr, hlist | hempty⟩
    · refine absurd hclose (hnone _ ?_)
      intro c hc
      rcases eq_of_close_mem_settled hc with rfl | ⟨pr, rfl⟩
      · exact hxd
      · exact .inr hxd
    · cases hgone.symm.trans hlist
    · refine absurd hempty (hnone _ ?_)
      intro c hc
      rw [eq_of_empty_mem_settled hc]
      exact (hbal.fits pr x hpr).symm.trans hxd

/-- In every run from a new tunnel, whatever is started and however the goroutines are
    scheduled: if each `UpsertPeer` or `UpdateEndpoint` for the key comes while the
    device is listed with it or a `removePeer` has still to remove the entry, each proxy
    is handed to a peer of the device that is listed or that a `removePeer` has still to
    close, and removing the entry does not fail, then nothing is ever left behind. -/
theorem nothing_left_behind (networkID region : String) {as : List TaskStep}
    (hord : Along (tunnelStep lib cfg) (Orderly lib d key) (newTunnel networkID region) as) :
    Throughout (tunnelStep lib cfg) (LeavesNothing lib d key) (newTunnel networkID region) as := by
  have hinv := Along.throughout
    (fun p a p' => accounted_step lib cfg d key) (accounted_newTunnel lib d key networkID region)
    hord
  exact hinv.mono fun p hp => leavesNothing_of_accounted lib d key hp

end

/-! ## A race -/

/-- Libraries that know the laptop and this device. -/
def raceLib : ClientLib where
  parseUUID s :=
    if s = "laptop-id" then some laptopID else if s = "own-id" then some (.ofBytes [2]) else none
  parseIP s := if s = "10.77.0.3" then some [10, 77, 0, 3] else none
  addrString _ := ""
  ipString _ := ""
  decodeKey s := if s = "laptop-key" then some [3] else none

/-- No candidate leads to the laptop, and a relay is there for the asking. -/
def relayWorld (cancelled : Bool) : TunnelInput where
  now := 1
  order := .asStored
  env
    | .registerDevice => some laptopListed
    | .requestRelay _ => some ⟨"relay", "relay-host", 3478, "", "token"⟩
    | .resolve _ _ => some ⟨[192, 0, 2, 1], 3478⟩
    | .startProxy _ => true
    | .ctxErr => cancelled
    | c => c.unanswered
  fault := none
  loopback := some ⟨[127, 0, 0, 1], 40000⟩

/-- Goroutine `n` takes `count` steps. -/
def steps (n count : Nat) (cancelled : Bool) : List TaskStep :=
  List.replicate count (.advance n (relayWorld cancelled))

/-- `Start` adds the laptop, and its negotiation is cancelled while it is being removed. -/
def calmRemoval : List TaskStep :=
  .spawn .start :: steps 0 6 true ++ steps 1 2 true ++
    .spawn (.removePeer laptopID) :: steps 2 1 true ++ steps 1 3 true ++ steps 2 2 true

theorem orderly_calmRemoval : Along (tunnelStep raceLib plainConfig)
    (Orderly raceLib laptopID [3]) (newTunnel "home" "") calmRemoval := by
  -- Registering, and listing the laptop.
  iterate 5 refine along_cons rfl trivial ?_
  -- It is listed when its entry is made.
  refine along_cons rfl (fun _ => .inl ⟨_, rfl, rfl⟩) ?_
  iterate 9 refine along_cons rfl trivial ?_
  -- Removing the entry does not fail.
  exact along_cons rfl (fun _ => rfl) trivial

theorem nothing_left_behind_laptop :
    Along (tunnelStep raceLib plainConfig) (Orderly raceLib laptopID [3])
      (newTunnel "home" "") calmRemoval ∧
    Throughout (tunnelStep raceLib plainConfig) (LeavesNothing raceLib laptopID [3])
      (newTunnel "home" "") calmRemoval :=
  ⟨orderly_calmRemoval, nothing_left_behind raceLib plainConfig laptopID [3] "home" ""
    orderly_calmRemoval⟩

/-- `Start` adds the laptop, whose negotiation gets as far as having started a proxy.
    Then the laptop is removed, and the negotiation goes on. -/
def race : List TaskStep :=
  .spawn .start :: steps 0 6 false ++ steps 1 10 false ++
    .spawn (.removePeer laptopID) :: steps 2 3 false ++ steps 1 2 false

/-- Everybody is done and the laptop is not listed, but WireGuard has its key, and its
    proxy is open. -/
theorem entry_after_removal :
    ∃ p, run (tunnelStep raceLib plainConfig) (newTunnel "home" "") race = some p ∧
      p.Returned (.removePeer laptopID) () ∧ (∀ th ∈ p.threads, th.2 = .ret ()) ∧
      p.shared.peers.lookup laptopID = none ∧ (p.shared.wg.lookup [3]).isSome ∧
      (∃ x ∈ p.shared.openProxies, x.peerDeviceID = laptopID) ∧
      ¬ LeavesNothing raceLib laptopID [3] p := by
  have hdone (x y z : Task) : ∀ th ∈ [(x, .ret ()), (y, .ret ()), (z, .ret ())],
      th.2 = (.ret () : TunnelM Unit) := by simp
  refine ⟨_, rfl, mem_cons_of_mem _ (mem_cons_of_mem _ mem_cons_self), hdone _ _ _, rfl, rfl,
    ⟨_, mem_cons_self, rfl⟩, ?_⟩
  intro hnothing
  have hkey := (hnothing rfl fun th hth => by rw [hdone _ _ _ th hth]; trivial).1
  cases hkey

end NexusVPN.Client
