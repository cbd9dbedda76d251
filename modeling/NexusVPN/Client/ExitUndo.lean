import NexusVPN.Client.LinuxRouter
import NexusVPN.Client.Registration

/-! # Undoing exit-node mode on a Linux host

    Turning exit-node mode on is a sequence of steps, each of which may fail, over a router
    whose steps are sequences of commands, each of which may fail.  This module asks what
    is left behind: after a `SetExitNode` that failed, and after one that succeeded and was
    cleared again. -/

namespace NexusVPN.Client

open List Prog Linux

/-! ## What a failed `SetExitNode` leaves -/

/-- The routes, the exit record and the allowed IPs of every peer are as they were. -/
def Restored (s s' : Sited Routes) : Prop :=
  (∀ dest, s'.host.lookup dest = s.host.lookup dest) ∧
  s'.tunnel.exit = s.tunnel.exit ∧
  ∀ key, (s'.tunnel.wg.lookup key).map (·.allowedIPs) = (s.tunnel.wg.lookup key).map (·.allowedIPs)

/-- The endpoints that are pinned before the first one that cannot be. -/
def pinsMade (F : SetupFaults) (t : TunnelState) (ord : MapOrder UUID) : List Bytes :=
  (t.endpoints ord).takeWhile fun ip => !F.replace (hostPrefix ip)

/-- Everything is pinned, and of the two IPv4 halves only the first can be installed. -/
def HalfCaptured (F : SetupFaults) (t : TunnelState) (ord : MapOrder UUID) : Prop :=
  pinsMade F t ord = t.endpoints ord ∧ F.replace lowHalf = false ∧ F.replace highHalf = true

variable (lib : ClientLib) (cfg : TunnelConfig) (iface : String)

/-- What narrowing leaves to a peer that was widened: its own address, if it has one. -/
def narrowedTo (pr : PeerRef) : List IPRange :=
  match allowedIPsFor lib pr.virtualIP with
  | .ok allowed => allowed
  | .error _ => exitAllowedIPs

/-- The peer has exactly its own address, and no other peer has that or everything. -/
def OwnRangesOnly (t : TunnelState) (pr : PeerRef) (key : Bytes) : Prop :=
  (t.wg.lookup key).map (·.allowedIPs) = some (narrowedTo lib pr) ∧
  ∀ key' e, key' ≠ key → t.wg.lookup key' = some e →
    ∀ r ∈ e.allowedIPs, r ∉ exitAllowedIPs ∧ r ∉ narrowedTo lib pr

/-- If `SetExitNode` gets as far as to widen the peer: the peer's allowed IPs are its own,
    no endpoint that is pinned had a route of its own, and the capture does not stop
    between the two IPv4 halves. -/
def NothingInTheWay (F : SetupFaults) (ord : MapOrder UUID) (d : UUID) (s : Sited Routes) : Prop :=
  ∀ pr key, cfg.router = true → s.tunnel.peers.lookup d = some pr →
    F.snapshot = false → s.host.snapshot.isSome = true →
    F.widen = none → lib.decodeKey pr.publicKey = some key →
    OwnRangesOnly lib s.tunnel pr key ∧
    (∀ ip ∈ pinsMade F s.tunnel ord, s.host.lookup (hostPrefix ip) = none) ∧
    (HalfCaptured F s.tunnel ord → s.host.lookup lowHalf = some ⟨none, iface⟩)

variable {lib cfg iface}

theorem Restored.refl (s : Sited Routes) : Restored s s := ⟨fun _ => rfl, rfl, fun _ => rfl⟩

theorem allowedIPsFor_ne_nil {virtualIP : String} {allowed : List IPRange}
    (h : allowedIPsFor lib virtualIP = .ok allowed) : allowed ≠ [] := by
  unfold allowedIPsFor at h
  split at h
  · cases h
  · split at h
    · cases h
    · split at h
      · cases h
        exact cons_ne_nil _ _
      · cases h
        exact cons_ne_nil _ _

variable (lib iface) in
/-- What unwinding leaves: the peer narrowed, the pins gone, and perhaps one half of the
    IPv4 addresses still pointing into the tunnel. -/
structure Unwound (s s' : Sited Routes) (pr : PeerRef) (key : Bytes) (pinned : List Bytes)
    (half : Prop) : Prop where
  exit : s'.tunnel.exit = s.tunnel.exit
  allowed : ∀ key', (s'.tunnel.wg.lookup key').map (·.allowedIPs) =
    if key' = key then some (narrowedTo lib pr)
    else ((s.tunnel.wg.lookup key').map (·.allowedIPs)).map fun ranges =>
      (ranges.filter (· ∉ exitAllowedIPs)).filter (· ∉ narrowedTo lib pr)
  pins : ∀ dest ∈ pinned.map hostPrefix, s'.host.lookup dest = none
  low : half → s'.host.lookup lowHalf = some ⟨none, iface⟩
  others : ∀ dest ∉ pinned.map hostPrefix, ¬ (half ∧ dest = lowHalf) →
    s'.host.lookup dest = s.host.lookup dest

theorem lowHalf_not_mem_pins (pinned : List Bytes) : lowHalf ∉ pinned.map hostPrefix := by
  intro h
  obtain ⟨ip, -, hip⟩ := mem_map.mp h
  exact hostPrefix_bits_ne_one ip (congrArg IPRange.bits hip)

variable {half : Prop} {pinned : List Bytes} {s' : Sited Routes} {key : Bytes} {pr : PeerRef}
  {s : Sited Routes}

section

variable (h : Unwound lib iface s s' pr key pinned half)
include h

theorem Unwound.allowed_iff :
    (∀ key', (s'.tunnel.wg.lookup key').map (·.allowedIPs) =
      (s.tunnel.wg.lookup key').map (·.allowedIPs)) ↔ OwnRangesOnly lib s.tunnel pr key := by
  constructor
  · intro hsame
    refine ⟨?_, ?_⟩
    · rw [← hsame key, h.allowed, if_pos rfl]
    · intro key' e hne he r hr
      have hkept := hsame key'
      rw [h.allowed, if_neg hne, he] at hkept
      -- The filter has removed nothing, so no other peer had any of these ranges.
      have hfil := Option.some.inj hkept
      dsimp only at hfil
      rw [filter_filter, filter_eq_self] at hfil
      simpa [and_comm] using hfil r hr
  · rintro ⟨hown, hoth⟩ key'
    rw [h.allowed]
    by_cases heq : key' = key
    · rw [if_pos heq, heq, hown]
    · rw [if_neg heq]
      cases he : s.tunnel.wg.lookup key' with
      | none => rfl
      | some e =>
        have hkept : e.allowedIPs.filter (fun r => decide (r ∉ narrowedTo lib pr) &&
            decide (r ∉ exitAllowedIPs)) = e.allowedIPs := by
          rw [filter_eq_self]
          intro r hr
          simpa [and_comm] using hoth key' e heq he r hr
        simp only [Option.map_some, filter_filter]
        rw [hkept]

theorem Unwound.routes_iff :
    (∀ dest, s'.host.lookup dest = s.host.lookup dest) ↔
      (∀ ip ∈ pinned, s.host.lookup (hostPrefix ip) = none) ∧
      (half → s.host.lookup lowHalf = some ⟨none, iface⟩) := by
  constructor
  · intro hsame
    refine ⟨?_, ?_⟩
    · intro ip hip
      rw [← hsame]
      exact h.pins _ (mem_map_of_mem hip)
    · intro hhalf
      rw [← hsame]
      exact h.low hhalf
  · rintro ⟨hpins, hlow⟩ dest
    by_cases hpin : dest ∈ pinned.map hostPrefix
    · obtain ⟨ip, hip, rfl⟩ := mem_map.mp hpin
      rw [h.pins _ hpin, hpins ip hip]
    · by_cases hdest : half ∧ dest = lowHalf
      · obtain ⟨hhalf, rfl⟩ := hdest
        rw [h.low hhalf, hlow hhalf]
      · exact h.others dest hpin hdest

theorem Unwound.restored_iff :
    Restored s s' ↔ OwnRangesOnly lib s.tunnel pr key ∧
      (∀ ip ∈ pinned, s.host.lookup (hostPrefix ip) = none) ∧
      (half → s.host.lookup lowHalf = some ⟨none, iface⟩) := by
  unfold Restored
  rw [h.allowed_iff, h.routes_iff]
  constructor
  · rintro ⟨hrts, -, hown⟩
    exact ⟨hown, hrts⟩
  · rintro ⟨hown, hrts⟩
    exact ⟨hrts, h.exit, hown⟩

end

section

variable {F : SetupFaults} {i : TunnelInput}

theorem faultOf_eq_none (hwiden : F.widen = none) (c : TunnelCall) : F.faultOf c = none := by
  unfold SetupFaults.faultOf
  split
  · rw [hwiden, ite_self]
  · rfl

theorem wp_unwind {t : Routes} {err : ExitError} (hkey : lib.decodeKey pr.publicKey = some key)
    (hwiden : F.widen = none) (hlow : half → t.lookup lowHalf = some ⟨none, iface⟩)
    (hoth : ∀ dest ∉ pinned.map hostPrefix, ¬ (half ∧ dest = lowHalf) →
      t.lookup dest = s.host.lookup dest) :
    wp (fixed lib iface F i) (unwind lib pr pinned >>= fun _ => pure (.error err))
      (fun (r : Except ExitError Unit) s' => ∀ e, r = .error e → e.ofKillSwitch = false →
        Unwound lib iface s s' pr key pinned half)
      ⟨(s.upserted lib (s.tunnel.peerConfig pr exitAllowedIPs)).tunnel, t⟩ := by
  refine wp_then (wp_then (wp_unpinAll_linux pinned ?_))
  intro t' ht'
  have hpins : ∀ dest ∈ pinned.map hostPrefix, t'.lookup dest = none := by
    intro dest hdest
    rw [ht', if_pos hdest]
  have hlow' : half → t'.lookup lowHalf = some ⟨none, iface⟩ := by
    intro hhalf
    rw [ht', if_neg (lowHalf_not_mem_pins pinned)]
    exact hlow hhalf
  have hothers' : ∀ dest ∉ pinned.map hostPrefix, ¬ (half ∧ dest = lowHalf) →
      t'.lookup dest = s.host.lookup dest := by
    intro dest hdest hnot
    rw [ht', if_neg hdest]
    exact hoth dest hdest hnot
  refine wp_then (wp_narrowPeer ?_ ?_)
  · rintro e (⟨e', he'⟩ | hnone | ⟨p, u, text, htext⟩)
    · -- A peer without an address stays as wide as it was made.
      intro _ _ _
      refine ⟨rfl, ?_, hpins, hlow', hothers'⟩
      intro key'
      have hwide : narrowedTo lib pr = exitAllowedIPs := by rw [narrowedTo, he']
      rw [hwide]
      refine (WGDevice.allowedIPs_upsertPeer hkey (cons_ne_nil _ _) key').trans ?_
      simp only [filter_filter, Bool.and_self]
      rfl
    · cases hkey.symm.trans hnone
    · cases (faultOf_eq_none hwiden (.upsertPeer p)).symm.trans htext
  · intro key' allowed hkey' hallow _ _ _
    refine ⟨rfl, ?_, hpins, hlow', hothers'⟩
    have hown : narrowedTo lib pr = allowed := by rw [narrowedTo, hallow]
    intro key'
    rw [hown]
    refine (WGDevice.allowedIPs_upsertPeer hkey (allowedIPsFor_ne_nil hallow) key').trans ?_
    by_cases heq : key' = key
    · rw [if_pos heq, if_pos heq]
      rfl
    · rw [if_neg heq, if_neg heq]
      refine (congrArg (Option.map _)
        (WGDevice.allowedIPs_upsertPeer hkey (cons_ne_nil _ _) key')).trans ?_
      rw [if_neg heq, Option.map_map]
      rfl

/-- Once the peer is widened, every failure before the kill switch is unwound. -/
theorem wp_captureThrough {d : UUID} {opts : ExitNodeOptions} {prior : DefaultRoute}
    (hprior : s.host.snapshot = some prior) (hkey : lib.decodeKey pr.publicKey = some key)
    (hwiden : F.widen = none) :
    wp (fixed lib iface F i) (captureThrough lib cfg pr prior d opts)
      (fun r s' => ∀ e, r = .error e → e.ofKillSwitch = false →
        Unwound lib iface s s' pr key (pinsMade F s.tunnel i.order)
          (HalfCaptured F s.tunnel i.order))
      (s.upserted lib (s.tunnel.peerConfig pr exitAllowedIPs)) := by
  obtain ⟨gateway, hgw, hdev⟩ := snapshot_usable hprior
  refine wp_then (wp_transportEndpoints fun _ => wp_then (wp_pinAll_linux hgw hdev _ ?_))
  intro failed t hfail ht
  -- The endpoints are those of before: widening does not change where peers are.
  replace ht : ∀ dest ∉ (pinsMade F s.tunnel i.order).map hostPrefix,
    t.lookup dest = s.host.lookup dest := ht
  cases failed with
  | some ip =>
    have hshort : ¬ HalfCaptured F s.tunnel i.order := by
      intro hhalf
      cases hfail.mpr hhalf.1
    exact wp_unwind hkey hwiden (fun h => absurd h hshort) fun dest hdest _ => ht dest hdest
  | none =>
    have hall := hfail.mp rfl
    refine wp_askEnv fun _ => ?_
    rw [captureDefault_env]
    cases hlow : F.replace lowHalf with
    | true =>
      have hshort : ¬ HalfCaptured F s.tunnel i.order := by
        intro hhalf
        cases hlow.symm.trans hhalf.2.1
      exact wp_unwind hkey hwiden (fun h => absurd h hshort) fun dest hdest _ =>
        ht dest hdest
    | false =>
      cases hhigh : F.replace highHalf with
      | true =>
        -- The one case in which something stays: the first half is not taken back.
        refine wp_unwind hkey hwiden (fun _ => AList.lookup_insert _) ?_
        intro dest hdest hnot
        have hne : dest ≠ lowHalf := fun heq => hnot ⟨⟨hall, hlow, hhigh⟩, heq⟩
        rw [← ht dest hdest]
        exact AList.lookup_insert_ne hne
      | false =>
        -- Captured: from here on only the kill switch can fail.
        refine fun _ => ?_
        cases hks : opts.killSwitch with
        | false =>
          intro e he
          cases he
        | true =>
          refine wp_engageKillSwitch (fun _ _ => rfl) ?_ nofun ?_
          · rintro e hks _ ⟨⟩ hpre
            cases hks.symm.trans hpre
          · rintro _ _ _ _ _ _ ⟨⟩ hpre
            cases hpre

theorem wp_setExitNode_failed {d : UUID} {opts : ExitNodeOptions} (hoff : s.tunnel.exit.Off) :
    wp (fixed lib iface F i) (setExitNode lib cfg d opts)
      (fun r s' => ∀ e, r = .error e → e.ofKillSwitch = false →
        (Restored s s' ↔ NothingInTheWay lib cfg iface F i.order d s)) s := by
  -- A call that gives up before it widens the peer has changed nothing.
  have hearly : NothingInTheWay lib cfg iface F i.order d s → ∀ err : ExitError,
      ∀ e, (Except.error err : Except ExitError Unit) = .error e → e.ofKillSwitch = false →
        (Restored s s ↔ NothingInTheWay lib cfg iface F i.order d s) :=
    fun h _ _ _ _ => iff_of_true (.refl s) h
  unfold setExitNode
  cases hrtr : cfg.router with
  | false => exact hearly (fun _ _ h => by cases hrtr.symm.trans h) _
  | true =>
    refine wp_lookupPeer ?_
    cases hlook : s.tunnel.peers.lookup d with
    | none => exact hearly (fun _ _ _ h => by cases hlook.symm.trans h) _
    | some pr =>
      refine wp_then (wp_clearExitNode_off hoff (wp_askEnv fun _ => ?_))
      dsimp only [env]
      cases hsnap : F.snapshot with
      | true => exact hearly (fun _ _ _ _ h => by cases hsnap.symm.trans h) _
      | false =>
        cases hprior : s.host.snapshot with
        | none => exact hearly (fun _ _ _ _ _ h => by rw [hprior] at h; cases h) _
        | some prior =>
          refine wp_then (wp_updatePeerAllowedIPs ?_ ?_)
          · rintro e (hnone | ⟨u, text, htext⟩)
            · refine hearly ?_ _
              intro pr' key _ hpr' _ _ _ hkey
              cases hlook.symm.trans hpr'
              cases hkey.symm.trans hnone
            · refine hearly ?_ _
              intro pr' key _ _ _ _ hwiden _
              cases (faultOf_eq_none hwiden (.upsertPeer
                (s.tunnel.peerConfig pr exitAllowedIPs))).symm.trans htext
          · intro _ key hkey hfault
            have hwiden : F.widen = none := hfault
            refine wp_mono ?_ (wp_captureThrough hprior hkey hwiden)
            intro r s' hunwound e he hpre
            rw [(hunwound e he hpre).restored_iff]
            constructor
            · intro h pr' key' _ hpr' _ _ _ hkey'
              cases hlook.symm.trans hpr'
              cases hkey.symm.trans hkey'
              exact h
            · intro h
              exact h pr key hrtr hlook hsnap (by rw [hprior]; rfl) hwiden hkey

end

/-- If `SetExitNode` fails before the kill-switch step, the routes, the exit record and
    everybody's allowed IPs are as before exactly if nothing was in its way. -/
theorem failed_setExitNode_restores_iff (lib : ClientLib) (cfg : TunnelConfig) (iface : String)
    (F : SetupFaults) (i : TunnelInput) (s : Sited Routes) (d : UUID) (opts : ExitNodeOptions)
    (hoff : s.tunnel.exit.Off) (e : ExitError)
    (herror : ((setExitNode lib cfg d opts).exec (handler lib iface F) (fun _ => i) s).1 = .error e)
    (hpre : e.ofKillSwitch = false) :
    Restored s ((setExitNode lib cfg d opts).exec (handler lib iface F) (fun _ => i) s).2 ↔
      NothingInTheWay lib cfg iface F i.order d s := by
  rw [← exec_sited lib (env iface F) (fun c i => { i with fault := F.faultOf c })
    (fun _ : Unit => i) _ fun _ => ()] at herror ⊢
  exact wp_exec (wp_setExitNode_failed hoff) _ e herror hpre

/-- A host with nothing but a default route. -/
def defaultOnly : Routes := AList.singleton ⟨[0, 0, 0, 0], 0⟩ ⟨some [192, 0, 2, 1], "eth0"⟩

/-- The route of one destination cannot be installed. -/
def SetupFaults.at (dest : IPRange) : SetupFaults := ⟨false, .none, fun dest' => dest' == dest⟩

/-- `SetExitNode` for the laptop on that host, where one route cannot be installed. -/
def failedAt (dest : IPRange) (lib : ClientLib) (t : TunnelState) (killSwitch : Bool) :
    Except ExitError Unit × Sited Routes :=
  (setExitNode lib routerConfig laptopID ⟨killSwitch, false⟩).exec (handler lib "wg0" (.at dest))
    (fun _ => .hostOnly) ⟨t, defaultOnly⟩

/-- The laptop's address is pinned, and then capturing fails at once. -/
theorem failed_setExitNode_restores_iff_laptop :
    (reachableTunnel.exit.Off ∧
      (failedAt lowHalf internetLib reachableTunnel true).1 = .error .capture ∧
      ExitError.ofKillSwitch .capture = false) ∧
    (Restored ⟨reachableTunnel, defaultOnly⟩
      (failedAt lowHalf internetLib reachableTunnel true).2 ↔
      NothingInTheWay internetLib routerConfig "wg0" (.at lowHalf) .asStored laptopID
        ⟨reachableTunnel, defaultOnly⟩) :=
  ⟨⟨⟨rfl, rfl, rfl, rfl⟩, rfl, rfl⟩,
    failed_setExitNode_restores_iff internetLib routerConfig "wg0" (.at lowHalf) .hostOnly
      ⟨reachableTunnel, defaultOnly⟩ laptopID ⟨true, false⟩ ⟨rfl, rfl, rfl, rfl⟩ .capture rfl rfl⟩

/-- Only the second half cannot be installed: `SetExitNode` reports the failure, and half of
    the machine's traffic is still sent into the tunnel. -/
theorem half_capture_stays :
    (failedAt highHalf laptopLib laptopTunnel false).1 = .error .capture ∧
    laptopTunnel.exit.Off ∧ defaultOnly.lookup lowHalf = none ∧
    (failedAt highHalf laptopLib laptopTunnel false).2.host.lookup lowHalf = some ⟨none, "wg0"⟩ ∧
    ¬ Restored ⟨laptopTunnel, defaultOnly⟩ (failedAt highHalf laptopLib laptopTunnel false).2 := by
  refine ⟨rfl, ⟨rfl, rfl, rfl, rfl⟩, rfl, rfl, ?_⟩
  intro hrest
  have hlow := hrest.1 lowHalf
  cases hlow

/-! ## Setting and clearing -/

section

variable {d : UUID} {opts : ExitNodeOptions}

variable (lib cfg) in
/-- There is a router, and the device is a peer that WireGuard can be told about. -/
def CanExit (d : UUID) (t : TunnelState) : Prop :=
  cfg.router = true ∧ ∃ pr key, t.peers.lookup d = some pr ∧ lib.decodeKey pr.publicKey = some key

variable (iface) in
/-- Exit-node mode is on: the endpoints are pinned, and both halves of the addresses of
    either family point into the tunnel. -/
def InExitMode (s s' : Sited Routes) : Prop :=
  s'.tunnel.exit.captured = true ∧ ∃ ord, s'.tunnel.exit.pinned = s.tunnel.endpoints ord ∧
    (∀ dest ∈ splitDefault ++ splitDefaultV6, s'.host.lookup dest = some ⟨none, iface⟩) ∧
    ∀ dest ∉ splitDefault ++ splitDefaultV6, dest ∉ (s.tunnel.endpoints ord).map hostPrefix →
      s'.host.lookup dest = s.host.lookup dest

theorem wp_captureThrough_willing {p : PeerConfig} {prior : DefaultRoute}
    (hprior : s.host.snapshot = some prior) :
    wp (handler lib iface .none) (captureThrough lib cfg pr prior d opts)
      (fun _ s' => InExitMode iface s s') (s.upserted lib p) := by
  obtain ⟨gateway, hgw, hdev⟩ := snapshot_usable hprior
  have hall : ∀ ips : List Bytes,
      ips.takeWhile (fun ip => !SetupFaults.none.replace (hostPrefix ip)) = ips := by
    intro ips
    rw [takeWhile_eq_self_iff]
    exact fun _ _ => rfl
  refine wp_then (wp_transportEndpoints fun i => wp_then (wp_pinAll_linux hgw hdev _ ?_))
  intro failed t hfail ht
  -- No route is refused, so every endpoint is pinned.
  rw [hall] at hfail ht ⊢
  obtain rfl := hfail.mpr rfl
  refine wp_askEnv fun j => ?_
  rw [captureDefault_env]
  have hmode : ∀ locked, InExitMode iface s
      ⟨{ (s.upserted lib p).tunnel with
          exit := ⟨d, prior, s.tunnel.endpoints i.order, true, locked⟩ },
        t.captured .none iface⟩ := by
    intro locked
    refine ⟨rfl, i.order, rfl, ?_, ?_⟩
    · intro dest hdest
      rw [lookup_captured, if_pos ⟨hdest, rfl⟩]
    · intro dest hdest hpin
      rw [lookup_captured, if_neg (fun h => hdest h.1)]
      exact ht dest hpin
  refine fun _ => ?_
  cases hks : opts.killSwitch with
  | false => exact hmode s.tunnel.exit.locked
  | true =>
    refine wp_engageKillSwitch (fun _ _ => rfl) (fun _ _ => hmode s.tunnel.exit.locked) ?_ ?_
    · intro _ _ _ _ _ hres
      obtain ⟨-, rfl⟩ := Prod.mk.inj hres
      exact hmode true
    · intro _ _ _ _ hres
      obtain ⟨-, rfl⟩ := Prod.mk.inj hres
      exact hmode s.tunnel.exit.locked

theorem wp_setExitNode_willing (hoff : s.tunnel.exit.Off) (hdefault : s.host.snapshot.isSome) :
    wp (handler lib iface .none) (setExitNode lib cfg d opts)
      (fun _ s' => (CanExit lib cfg d s.tunnel ∧ InExitMode iface s s') ∨
        (¬ CanExit lib cfg d s.tunnel ∧ s' = s)) s := by
  unfold setExitNode
  cases hrtr : cfg.router with
  | false => exact .inr ⟨fun h => Bool.false_ne_true (hrtr.symm.trans h.1), rfl⟩
  | true =>
    refine wp_lookupPeer ?_
    cases hlook : s.tunnel.peers.lookup d with
    | none =>
      refine .inr ⟨?_, rfl⟩
      rintro ⟨-, pr, key, hpr, -⟩
      cases hlook.symm.trans hpr
    | some pr =>
      obtain ⟨prior, hprior⟩ := Option.isSome_iff_exists.mp hdefault
      refine wp_then (wp_clearExitNode_off hoff (wp_askEnv fun _ => ?_))
      have hsnap : ∀ i, env iface .none .snapshotRoutes i s.host = (some prior, s.host) := by
        intro i
        rw [← hprior]
        rfl
      rw [hsnap]
      refine wp_then (wp_updatePeerAllowedIPs ?_ ?_)
      · rintro e (hnone | ⟨u, text, htext⟩)
        · refine .inr ⟨?_, rfl⟩
          rintro ⟨-, pr', key, hpr', hkey⟩
          cases hlook.symm.trans hpr'
          cases hkey.symm.trans hnone
        · cases htext
      · intro _ key hkey _
        refine wp_mono ?_ (wp_captureThrough_willing hprior)
        exact fun _ _ hmode => .inl ⟨⟨hrtr, pr, key, hlook, hkey⟩, hmode⟩

/-- Clearing removes every route that exit-node mode has a use for. -/
theorem wp_clearExitNode_linux (hrtr : cfg.router = true) (hmode : InExitMode iface s s') :
    wp (handler lib iface .none) (clearExitNode lib cfg)
      (fun _ s'' => ∃ ord, ∀ dest, s''.host.lookup dest =
        if dest ∈ splitDefault ++ splitDefaultV6 ∨ dest ∈ (s.tunnel.endpoints ord).map hostPrefix
        then none else s.host.lookup dest) s' := by
  obtain ⟨hcap, ord, hpinned, hsplit, hrest⟩ := hmode
  refine wp_clearExitNode (L := fun r => r = s'.host)
    (R := fun r => (∀ dest ∈ splitDefault ++ splitDefaultV6, r.lookup dest = none) ∧
      ∀ dest ∉ splitDefault ++ splitDefaultV6, r.lookup dest = s'.host.lookup dest)
    (U := fun r => ∀ dest, r.lookup dest =
      if dest ∈ splitDefault ++ splitDefaultV6 ∨ dest ∈ (s.tunnel.endpoints ord).map hostPrefix
      then none else s.host.lookup dest) ?_ ?_ ?_ ?_ ?_
  · intro _ hnot _
    cases hcap.symm.trans hnot
  · exact ⟨fun _ _ _ => rfl, fun _ => rfl⟩
  · rintro r rfl
    refine ⟨?_, fun hskip => absurd ⟨hcap, hrtr⟩ hskip⟩
    intro _ _ i
    refine ⟨?_, ?_⟩
    · intro dest hdest
      have hholds : s'.host.holds dest (some iface) = true := by
        simp [Routes.holds, hsplit dest hdest]
      rw [lookup_releaseDefault, if_pos ⟨hdest, hholds⟩]
    · intro dest hdest
      rw [lookup_releaseDefault, if_neg (fun h => hdest h.1)]
  · rintro r ⟨hreleased, hkept⟩
    refine ⟨?_, fun hno => absurd (hno.symm.trans hrtr) Bool.false_ne_true⟩
    intro _
    refine wp_unpinAll_linux s'.tunnel.exit.pinned ?_
    intro t ht
    refine ⟨rfl, ?_⟩
    intro dest
    rw [ht, hpinned]
    by_cases hpin : dest ∈ (s.tunnel.endpoints ord).map hostPrefix
    · rw [if_pos hpin, if_pos (.inr hpin)]
    · rw [if_neg hpin]
      by_cases hhalf : dest ∈ splitDefault ++ splitDefaultV6
      · rw [if_pos (.inl hhalf)]
        exact hreleased dest hhalf
      · rw [if_neg (not_or.mpr ⟨hhalf, hpin⟩), ← hrest dest hhalf hpin]
        exact hkept dest hhalf
  · exact fun _ _ r _ hr => ⟨ord, hr⟩

end

/-- Setting and clearing an exit node, with every command succeeding, leaves the routing
    table as it was exactly if the table had no route of its own for any destination that
    exit-node mode uses. -/
theorem exit_mode_undone_iff (lib : ClientLib) (cfg : TunnelConfig) (iface : String)
    (s : Sited Routes) (d : UUID) (opts : ExitNodeOptions) (w w' : Nat → TunnelInput)
    (hoff : s.tunnel.exit.Off) (hdefault : s.host.snapshot.isSome = true) :
    let s' := ((setExitNode lib cfg d opts).exec (handler lib iface .none) w s).2
    let s'' := ((clearExitNode lib cfg).exec (handler lib iface .none) w' s').2
    (∀ dest, s''.host.lookup dest = s.host.lookup dest) ↔
      (CanExit lib cfg d s.tunnel →
        (∀ dest ∈ splitDefault ++ splitDefaultV6, s.host.lookup dest = none) ∧
        ∀ a, s.tunnel.Transports a → s.host.lookup (hostPrefix a.ip) = none) := by
  intro s' s''
  rcases wp_exec (wp_setExitNode_willing hoff hdefault) w with ⟨hcan, hmode⟩ | ⟨hcannot, hsame⟩
  · obtain ⟨ord, hlook⟩ := wp_exec (wp_clearExitNode_linux hcan.1 hmode) w'
    constructor
    · intro hrest _
      refine ⟨?_, ?_⟩
      · intro dest hdest
        rw [← hrest, hlook, if_pos (.inl hdest)]
      · intro a ha
        obtain ⟨ip, hip, hsameip⟩ := TunnelState.exists_mem_endpoints ha ord
        rw [hostPrefix_eq_of_unmap_eq hsameip, ← hrest, hlook, if_pos (.inr (mem_map_of_mem hip))]
    · intro hfree dest
      obtain ⟨hsplit, hpins⟩ := hfree hcan
      rw [hlook]
      by_cases hdest : dest ∈ splitDefault ++ splitDefaultV6 ∨
          dest ∈ (s.tunnel.endpoints ord).map hostPrefix
      · rw [if_pos hdest]
        rcases hdest with hhalf | hpin
        · exact (hsplit dest hhalf).symm
        · obtain ⟨ip, hip, rfl⟩ := mem_map.mp hpin
          obtain ⟨a, ha, rfl⟩ := TunnelState.transports_of_mem_endpoints hip
          exact (hpins a ha).symm
      · rw [if_neg hdest]
  · have hstay : s''.host = s.host := by
      have hs' : s' = s := hsame
      show ((clearExitNode lib cfg).exec (handler lib iface .none) w' s').2.host = s.host
      rw [hs']
      exact wp_exec (wp_clearExitNode_off (Q := fun _ s' => s'.host = s.host) hoff rfl) w'
    exact iff_of_true (fun _ => by rw [hstay]) fun h => absurd h hcannot

/-- The laptop is set as the exit node and cleared again, with every command succeeding. -/
def setAndCleared (killSwitch : Bool) (r : Routes) : Routes :=
  ((clearExitNode internetLib routerConfig).exec (handler internetLib "wg0" .none)
    (fun _ => .hostOnly) ((setExitNode internetLib routerConfig laptopID ⟨killSwitch, false⟩).exec
      (handler internetLib "wg0" .none) (fun _ => .hostOnly) ⟨reachableTunnel, r⟩).2).2.host

theorem exit_mode_undone_iff_laptop :
    (reachableTunnel.exit.Off ∧ defaultOnly.snapshot.isSome = true) ∧
    ((∀ dest, (setAndCleared true defaultOnly).lookup dest = defaultOnly.lookup dest) ↔
      (CanExit internetLib routerConfig laptopID reachableTunnel →
        (∀ dest ∈ splitDefault ++ splitDefaultV6, defaultOnly.lookup dest = none) ∧
        ∀ a, reachableTunnel.Transports a → defaultOnly.lookup (hostPrefix a.ip) = none)) :=
  ⟨⟨⟨rfl, rfl, rfl, rfl⟩, rfl⟩,
    exit_mode_undone_iff internetLib routerConfig "wg0" ⟨reachableTunnel, defaultOnly⟩ laptopID
      ⟨true, false⟩ (fun _ => .hostOnly) (fun _ => .hostOnly) ⟨rfl, rfl, rfl, rfl⟩ rfl⟩

/-- A host that reaches the peer's address through another interface. -/
def ownRoute : Routes :=
  defaultOnly.insert (hostPrefix [203, 0, 113, 5]) ⟨some [198, 51, 100, 1], "eth1"⟩

/-- The host's own route to the peer is overwritten by the pin and deleted with it. -/
theorem own_route_lost :
    reachableTunnel.exit.Off ∧ ownRoute.snapshot.isSome = true ∧
    ownRoute.lookup (hostPrefix [203, 0, 113, 5]) = some ⟨some [198, 51, 100, 1], "eth1"⟩ ∧
    (setAndCleared false ownRoute).lookup (hostPrefix [203, 0, 113, 5]) = none :=
  ⟨⟨rfl, rfl, rfl, rfl⟩, rfl, rfl, rfl⟩

end NexusVPN.Client
