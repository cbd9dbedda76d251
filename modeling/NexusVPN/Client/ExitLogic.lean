import Mathlib.Data.List.Induction
import NexusVPN.Client.Host

/-! # Rules for the programs of exit-node mode

    One rule for each program of `Exit`, for a tunnel on any host.  The loops come with the
    invariant rule that their users need: what the loop over the endpoints keeps is up to
    the host. -/

namespace NexusVPN.Client

open List Prog WGDevice

/-! ## Endpoints -/

section

variable {α : Type} {same : α → α → Bool}

theorem firstOfEach_concat (xs : List α) (z : α) :
    firstOfEach same (xs ++ [z]) = if (firstOfEach same xs).any (same z) then firstOfEach same xs
      else firstOfEach same xs ++ [z] := foldl_append

variable {xs : List α} {x y : α}

theorem mem_of_mem_firstOfEach (hy : y ∈ firstOfEach same xs) : y ∈ xs := by
  induction xs using reverseRecOn with
  | nil => exact hy
  | append_singleton xs z ih =>
    rw [firstOfEach_concat] at hy
    split at hy
    · exact mem_append_left _ (ih hy)
    · exact mem_append.mpr ((mem_append.mp hy).imp_left ih)

theorem exists_same_firstOfEach (hrefl : ∀ x, same x x = true) (hx : x ∈ xs) :
    ∃ y ∈ firstOfEach same xs, same x y = true := by
  induction xs using reverseRecOn with
  | nil => cases hx
  | append_singleton xs z ih =>
    rw [firstOfEach_concat]
    rcases mem_append.mp hx with hold | hz
    · obtain ⟨y, hy, hsame⟩ := ih hold
      split
      · exact ⟨y, hy, hsame⟩
      · exact ⟨y, mem_append_left _ hy, hsame⟩
    · obtain rfl := mem_singleton.mp hz
      split
      · next hany => exact any_eq_true.mp hany
      · exact ⟨x, mem_append_right _ mem_cons_self, hrefl x⟩

end

/-- The peer's transport, if it leaves this host. -/
def PeerVars.leaving (vars : PeerVars) : List UDPAddr :=
  vars.transport.toList.filter fun a => !a.ip.isEmpty && !isLoopback a.ip

namespace TunnelState

/-- The transports of all listed peers that leave this host, in the order of the loop. -/
def transports (s : TunnelState) (ord : MapOrder UUID) : List UDPAddr :=
  ((GoMap.range ord s.peers).map Prod.snd).flatMap fun pr => (s.heap pr).leaving

def endpoints (s : TunnelState) (ord : MapOrder UUID) : List Bytes :=
  firstOfEach (fun a b => unmap a == unmap b) ((s.transports ord).map (·.ip))

def addrPorts (s : TunnelState) (ord : MapOrder UUID) : List UDPAddr :=
  firstOfEach (· == ·) ((s.transports ord).filterMap addrPort)

/-- The address is where packets for a listed peer really go. -/
def Transports (s : TunnelState) (a : UDPAddr) : Prop :=
  ∃ d pr, s.peers.lookup d = some pr ∧ a ∈ (s.heap pr).leaving

variable {s : TunnelState} {ord : MapOrder UUID} {a : UDPAddr} {ip : Bytes}

theorem mem_transports : a ∈ s.transports ord ↔ s.Transports a := by
  unfold transports Transports
  rw [mem_flatMap]
  constructor
  · rintro ⟨pr, hpr, ha⟩
    obtain ⟨⟨d, pr'⟩, hrange, rfl⟩ := mem_map.mp hpr
    exact ⟨d, pr', GoMap.mem_range.mp hrange, ha⟩
  · rintro ⟨d, pr, hlook, ha⟩
    exact ⟨pr, mem_map.mpr ⟨(d, pr), GoMap.mem_range.mpr hlook, rfl⟩, ha⟩

theorem transports_of_mem_endpoints (h : ip ∈ s.endpoints ord) :
    ∃ a, s.Transports a ∧ a.ip = ip := by
  obtain ⟨a, ha, rfl⟩ := mem_map.mp (mem_of_mem_firstOfEach h)
  exact ⟨a, mem_transports.mp ha, rfl⟩

theorem exists_mem_endpoints (h : s.Transports a) (ord : MapOrder UUID) :
    ∃ ip ∈ s.endpoints ord, unmap a.ip = unmap ip := by
  have hmem : a.ip ∈ (s.transports ord).map (·.ip) := mem_map_of_mem (mem_transports.mpr h)
  obtain ⟨ip, hip, hsame⟩ := @exists_same_firstOfEach _ (fun a b => unmap a == unmap b)
    _ _ (fun _ => beq_self_eq_true _) hmem
  exact ⟨ip, hip, eq_of_beq hsame⟩

theorem mem_addrPorts (h : s.Transports a) (ord : MapOrder UUID) {b : UDPAddr}
    (hb : addrPort a = some b) : b ∈ s.addrPorts ord := by
  have hmem : b ∈ (s.transports ord).filterMap addrPort :=
    mem_filterMap.mpr ⟨a, mem_transports.mpr h, hb⟩
  obtain ⟨c, hc, hsame⟩ := exists_same_firstOfEach (fun _ => beq_self_eq_true _) hmem
  exact eq_of_beq hsame ▸ hc

end TunnelState

/-! ## Programs on a host -/

section

variable {ρ ι : Type} {lib : ClientLib} {cfg : TunnelConfig}
  {env : (c : EnvCall) → ι → ρ → c.Result × ρ} {input : TunnelCall → ι → TunnelInput} {s : Sited ρ}
  {α : Type} {e : ExitState} {Q : Option ExitError → Sited ρ → Prop}

theorem wp_lookupPeer {d : UUID} {f : Option PeerRef → TunnelM α} {Q : α → Sited ρ → Prop}
    (h : wp (sited lib env input) (f (s.tunnel.peers.lookup d)) Q s) :
    wp (sited lib env input) (ask (.lookupPeer d) >>= f) Q s := fun _ => h

theorem wp_askEnv {c : EnvCall} {f : c.Result → TunnelM α} {Q : α → Sited ρ → Prop}
    (h : ∀ i, wp (sited lib env input) (f (env c i s.host).1) Q
      { s with host := (env c i s.host).2 }) :
    wp (sited lib env input) (askEnv c >>= f) Q s := h

theorem wp_readTransports (prs : List PeerRef) {Q : List UDPAddr → Sited ρ → Prop}
    (hQ : Q (prs.flatMap fun pr => (s.tunnel.heap pr).leaving) s) :
    wp (sited lib env input) (readTransports prs) Q s := by
  induction prs generalizing Q with
  | nil => exact hQ
  | cons pr prs ih =>
    intro i
    show wp _ (readTransports prs >>= fun rest => pure ((s.tunnel.heap pr).leaving ++ rest)) Q s
    rw [wp_bind]
    exact ih hQ

theorem wp_transportEndpoints {Q : List Bytes → Sited ρ → Prop}
    (hQ : ∀ i, Q (s.tunnel.endpoints (input .listPeers i).order) s) :
    wp (sited lib env input) transportEndpoints Q s := by
  intro i
  show wp _ (readTransports _ >>= fun transports => pure _) Q s
  rw [wp_bind]
  exact wp_readTransports _ (hQ i)

theorem wp_transportAddrPorts {Q : List UDPAddr → Sited ρ → Prop}
    (hQ : ∀ i, Q (s.tunnel.addrPorts (input .listPeers i).order) s) :
    wp (sited lib env input) transportAddrPorts Q s := by
  intro i
  show wp _ (readTransports _ >>= fun transports => pure _) Q s
  rw [wp_bind]
  exact wp_readTransports _ (hQ i)

theorem wp_unpinAll {J : List Bytes → ρ → Prop} {Q : Unit → Sited ρ → Prop}
    (hunpin : ∀ ip ips r i, J (ip :: ips) r → J ips (env (.unpinEndpoint ip) i r).2)
    (hdone : ∀ r, J [] r → Q () { s with host := r }) {ips : List Bytes} (h : J ips s.host) :
    wp (sited lib env input) (unpinAll ips) Q s := by
  induction ips generalizing s with
  | nil => exact hdone s.host h
  | cons ip ips ih => exact fun i => ih hdone (hunpin ip ips s.host i h)

/-- `J` is what is known of the host while those addresses are still to be pinned, and
    those are pinned. -/
theorem wp_pinAll {prior : DefaultRoute} {J : List Bytes → List Bytes → ρ → Prop}
    {Q : Option Bytes × List Bytes → Sited ρ → Prop}
    (hpin : ∀ ip ips pinned r i, J (ip :: ips) pinned r →
      (env (.pinEndpoint ip prior) i r).1 = true →
      J ips (pinned ++ [ip]) (env (.pinEndpoint ip prior) i r).2)
    (hfail : ∀ ip ips pinned r i, J (ip :: ips) pinned r →
      (env (.pinEndpoint ip prior) i r).1 = false →
      Q (some ip, pinned) { s with host := (env (.pinEndpoint ip prior) i r).2 })
    (hdone : ∀ pinned r, J [] pinned r → Q (none, pinned) { s with host := r })
    {ips pinned : List Bytes} (h : J ips pinned s.host) :
    wp (sited lib env input) (pinAll prior ips pinned) Q s := by
  induction ips generalizing s pinned with
  | nil => exact hdone pinned s.host h
  | cons ip ips ih =>
    intro i
    show wp _ (if (env (.pinEndpoint ip prior) i s.host).1 then pinAll prior ips (pinned ++ [ip])
      else pure (some ip, pinned)) Q { s with host := (env (.pinEndpoint ip prior) i s.host).2 }
    by_cases hok : (env (.pinEndpoint ip prior) i s.host).1
    · rw [if_pos hok]
      refine ih ?_ ?_ ?_
      · exact hfail
      · exact hdone
      · exact hpin ip ips pinned s.host i h hok
    · rw [if_neg hok]
      exact hfail ip ips pinned s.host i h (Bool.eq_false_iff.mpr hok)

/-- What `updatePeerAllowedIPs` asks of WireGuard. -/
def TunnelState.peerConfig (s : TunnelState) (pr : PeerRef) (allowed : List IPRange) : PeerConfig :=
  ⟨pr.publicKey, (s.heap pr).wgEndpoint, allowed, keepaliveSeconds⟩

/-- The tunnel once WireGuard has accepted a configuration of a peer. -/
def Sited.upserted (s : Sited ρ) (lib : ClientLib) (p : PeerConfig) : Sited ρ :=
  { s with tunnel := { s.tunnel with
    wg := (upsertPeer lib.decodeKey none p s.tunnel.wg).2 } }

theorem wp_upsertPeer {p : PeerConfig} {Q : Except WGError Unit → Sited ρ → Prop}
    (herror : ∀ e, (lib.decodeKey p.publicKey = none ∨
      ∃ i text, (input (.upsertPeer p) i).fault = some text) → Q (.error e) s)
    (hok : ∀ i key, lib.decodeKey p.publicKey = some key →
      (input (.upsertPeer p) i).fault = none → Q (.ok ()) (s.upserted lib p)) :
    wp (sited lib env input) (ask (.upsertPeer p)) Q s := by
  intro i
  show Q (upsertPeer lib.decodeKey (input (.upsertPeer p) i).fault p s.tunnel.wg).1
    { s with tunnel := { s.tunnel with
      wg := (upsertPeer lib.decodeKey (input (.upsertPeer p) i).fault p s.tunnel.wg).2 } }
  cases hkey : lib.decodeKey p.publicKey with
  | none =>
    simp only [upsertPeer, hkey]
    exact herror .invalidKey (.inl hkey)
  | some key =>
    cases hfault : (input (.upsertPeer p) i).fault with
    | none =>
      have haccept : (upsertPeer lib.decodeKey none p s.tunnel.wg).1 = .ok () := by
        simp only [upsertPeer, hkey]
      rw [haccept]
      exact hok i key hkey hfault
    | some text =>
      simp only [upsertPeer, hkey]
      exact herror (.ipc text) (.inr ⟨i, text, hfault⟩)

theorem wp_updatePeerAllowedIPs {pr : PeerRef} {allowed : List IPRange}
    {Q : Except ExitError Unit → Sited ρ → Prop}
    (herror : ∀ e, (lib.decodeKey pr.publicKey = none ∨ ∃ i text,
        (input (.upsertPeer (s.tunnel.peerConfig pr allowed)) i).fault = some text) →
      Q (.error (.allowedIPs e)) s)
    (hok : ∀ i key, lib.decodeKey pr.publicKey = some key →
      (input (.upsertPeer (s.tunnel.peerConfig pr allowed)) i).fault = none →
      Q (.ok ()) (s.upserted lib (s.tunnel.peerConfig pr allowed))) :
    wp (sited lib env input) (updatePeerAllowedIPs pr allowed) Q s := by
  intro i
  refine (wp_bind (ask (.upsertPeer (s.tunnel.peerConfig pr allowed))) _ Q s).mpr ?_
  exact wp_upsertPeer herror hok

theorem wp_narrowPeer {pr : PeerRef} {Q : Except ExitError Unit → Sited ρ → Prop}
    (herror : ∀ e, ((∃ e', allowedIPsFor lib pr.virtualIP = .error e') ∨
        lib.decodeKey pr.publicKey = none ∨ ∃ cfg i text,
          (input (.upsertPeer cfg) i).fault = some text) → Q (.error e) s)
    (hok : ∀ key allowed, lib.decodeKey pr.publicKey = some key →
      allowedIPsFor lib pr.virtualIP = .ok allowed →
      Q (.ok ()) (s.upserted lib (s.tunnel.peerConfig pr allowed))) :
    wp (sited lib env input) (narrowPeer lib pr) Q s := by
  unfold narrowPeer
  cases hallow : allowedIPsFor lib pr.virtualIP with
  | error e => exact herror _ (.inl ⟨e, hallow⟩)
  | ok allowed =>
    refine wp_updatePeerAllowedIPs ?_ fun _ key hkey _ => hok key allowed hkey hallow
    rintro e (hkey | ⟨i, text, hfault⟩)
    · exact herror _ (.inr (.inl hkey))
    · exact herror _ (.inr (.inr ⟨_, i, text, hfault⟩))

/-! ## Clearing and engaging -/

/-- The tunnel once its exit record has been taken. -/
def TunnelState.cleared (s : TunnelState) : TunnelState :=
  { s with
    exit := { s.exit with deviceID := .nil, pinned := [], captured := false, locked := false } }

theorem TunnelState.cleared_of_off {s : TunnelState} (hoff : s.exit.Off) : s.cleared = s := by
  obtain ⟨hid, hpin, hcap, hlock⟩ := hoff
  have hexit : s.cleared.exit = s.exit := by
    unfold cleared
    cases hs : s.exit
    simp_all
  show { s with exit := s.cleared.exit } = s
  rw [hexit]

theorem wp_takeExit {f : ExitState → TunnelM α} {Q : α → Sited ρ → Prop}
    (h : wp (sited lib env input) (f s.tunnel.exit) Q { s with tunnel := s.tunnel.cleared }) :
    wp (sited lib env input) (ask .takeExit >>= f) Q s := fun _ => h

theorem wp_clearExitNode_off (hoff : s.tunnel.exit.Off) (hQ : Q none s) :
    wp (sited lib env input) (clearExitNode lib cfg) Q s := by
  refine wp_takeExit ?_
  rw [if_pos ⟨hoff.1, by simp [hoff.2.2.1], by simp [hoff.2.2.2]⟩, TunnelState.cleared_of_off hoff]
  exact hQ

theorem wp_releaseLock (hrel : e.locked = true → cfg.killSwitch = true → ∀ i err,
      Q err { s with host := (env .releaseKillSwitch i s.host).2 })
    (hskip : ¬ (e.locked = true ∧ cfg.killSwitch = true) → Q none s) :
    wp (sited lib env input) (releaseLock cfg e) Q s := by
  unfold releaseLock
  by_cases h : e.locked = true ∧ cfg.killSwitch = true
  · rw [if_pos (by simp [h])]
    exact fun i => hrel h.1 h.2 i _
  · rw [if_neg (by simpa using h)]
    exact hskip h

theorem wp_releaseRoute (hrel : e.captured = true → cfg.router = true → ∀ i err,
      Q err { s with host := (env .releaseDefault i s.host).2 })
    (hskip : ¬ (e.captured = true ∧ cfg.router = true) → Q none s) :
    wp (sited lib env input) (releaseRoute cfg e) Q s := by
  unfold releaseRoute
  by_cases h : e.captured = true ∧ cfg.router = true
  · rw [if_pos (by simp [h])]
    exact fun i => hrel h.1 h.2 i _
  · rw [if_neg (by simpa using h)]
    exact hskip h

/-- WireGuard as it is, or told once more where one of the listed peers is. -/
def TunnelState.Retold (s : TunnelState) (lib : ClientLib) (wg : WGDevice) : Prop :=
  wg = s.wg ∨ ∃ d pr allowed, s.peers.lookup d = some pr ∧
    wg = (upsertPeer lib.decodeKey none (s.peerConfig pr allowed) s.wg).2

theorem wp_narrowExit
    (hQ : ∀ err wg, s.tunnel.Retold lib wg →
      Q err { s with tunnel := { s.tunnel with wg := wg } }) :
    wp (sited lib env input) (narrowExit lib e) Q s := by
  have hsame : ∀ err, Q err s := fun err => hQ err s.tunnel.wg (.inl rfl)
  unfold narrowExit
  by_cases hnil : e.deviceID = .nil
  · rw [if_pos hnil]
    exact hsame none
  · rw [if_neg hnil]
    refine wp_lookupPeer ?_
    cases hlook : s.tunnel.peers.lookup e.deviceID with
    | none => exact hsame none
    | some pr =>
      refine wp_then (wp_narrowPeer (fun err _ => hsame (some err)) ?_)
      exact fun _ allowed _ _ => hQ none _ (.inr ⟨e.deviceID, pr, allowed, hlook, rfl⟩)

/-- `ClearExitNode`, step by step: `L`, `R` and `U` are what is known of the host once
    the lock, the default route and the pins have been dealt with. -/
theorem wp_clearExitNode {L R U : ρ → Prop}
    (hnothing : s.tunnel.exit.deviceID = .nil → s.tunnel.exit.captured = false →
      s.tunnel.exit.locked = false → Q none { s with tunnel := s.tunnel.cleared })
    (hlock : (s.tunnel.exit.locked = true → cfg.killSwitch = true → ∀ i,
        L (env .releaseKillSwitch i s.host).2) ∧
      (¬ (s.tunnel.exit.locked = true ∧ cfg.killSwitch = true) → L s.host))
    (hroute : ∀ r, L r → (s.tunnel.exit.captured = true → cfg.router = true → ∀ i,
        R (env .releaseDefault i r).2) ∧
      (¬ (s.tunnel.exit.captured = true ∧ cfg.router = true) → R r))
    (hunpin : ∀ r, R r →
      (cfg.router = true → wp (sited lib env input) (unpinAll s.tunnel.exit.pinned)
        (fun _ s' => s'.tunnel = s.tunnel.cleared ∧ U s'.host) ⟨s.tunnel.cleared, r⟩) ∧
      (cfg.router = false → U r))
    (hQ : ∀ err wg r, s.tunnel.Retold lib wg → U r →
      Q err ⟨{ s.tunnel.cleared with wg := wg }, r⟩) :
    wp (sited lib env input) (clearExitNode lib cfg) Q s := by
  refine wp_takeExit ?_
  by_cases hoff : s.tunnel.exit.deviceID = .nil ∧ ¬ s.tunnel.exit.captured ∧ ¬ s.tunnel.exit.locked
  · rw [if_pos hoff]
    exact hnothing hoff.1 (Bool.eq_false_iff.mpr hoff.2.1) (Bool.eq_false_iff.mpr hoff.2.2)
  · rw [if_neg hoff]
    have hafter : ∀ e₁ e₂ r, U r → wp (sited lib env input)
        (narrowExit lib s.tunnel.exit >>= fun e₃ => pure (e₁ <|> e₂ <|> e₃)) Q
        ⟨s.tunnel.cleared, r⟩ :=
      fun e₁ e₂ r hr => wp_then (wp_narrowExit fun err wg hwg => hQ _ wg r hwg hr)
    refine wp_seq (Q := fun _ s' => s'.tunnel = s.tunnel.cleared ∧ L s'.host) ?_ ?_
    · exact wp_releaseLock (fun hl hks i _ => ⟨rfl, hlock.1 hl hks i⟩)
        fun hskip => ⟨rfl, hlock.2 hskip⟩
    · rintro e₁ ⟨_, r⟩ ⟨rfl, hr⟩
      refine wp_seq (Q := fun _ s' => s'.tunnel = s.tunnel.cleared ∧ R s'.host) ?_ ?_
      · exact wp_releaseRoute (fun hc hrtr i _ => ⟨rfl, (hroute r hr).1 hc hrtr i⟩)
          fun hskip => ⟨rfl, (hroute r hr).2 hskip⟩
      · rintro e₂ ⟨_, r⟩ ⟨rfl, hr⟩
        by_cases hrtr : cfg.router = true
        · rw [if_pos hrtr]
          refine wp_seq ((hunpin r hr).1 hrtr) ?_
          rintro _ ⟨_, r⟩ ⟨rfl, hr⟩
          exact hafter e₁ e₂ r hr
        · rw [if_neg hrtr]
          exact hafter e₁ e₂ r ((hunpin r hr).2 (Bool.eq_false_iff.mpr hrtr))

/-- The errors of the kill-switch step. -/
def ExitError.ofKillSwitch : ExitError → Bool
  | .noKillSwitch | .localNetworks | .engage => true
  | _ => false

/-- `engageKillSwitch` on a host that is not changed by looking for local networks. -/
theorem wp_engageKillSwitch {allowLAN : Bool} {Q : Except ExitError Unit → Sited ρ → Prop}
    (hquiet : ∀ i r, (env .localNetworks i r).2 = r)
    (hearly : ∀ e, ExitError.ofKillSwitch e = true → Q (.error e) s)
    (hengage : ∀ i ord lan r, cfg.killSwitch = true →
      env (.engageKillSwitch (s.tunnel.addrPorts ord) lan allowLAN) i s.host = (true, r) →
      Q (.ok ()) ⟨{ s.tunnel with exit := { s.tunnel.exit with locked := true } }, r⟩)
    (hfail : ∀ i ord lan r,
      env (.engageKillSwitch (s.tunnel.addrPorts ord) lan allowLAN) i s.host = (false, r) →
      Q (.error .engage) ⟨s.tunnel, r⟩) :
    wp (sited lib env input) (engageKillSwitch cfg allowLAN) Q s := by
  unfold engageKillSwitch
  cases hks : cfg.killSwitch with
  | false => exact hearly _ rfl
  | true =>
    refine wp_then (wp_transportAddrPorts fun j => ?_)
    have hgo : ∀ lan, wp (sited lib env input)
        (askEnv (.engageKillSwitch (s.tunnel.addrPorts (input .listPeers j).order) lan allowLAN) >>=
          fun ok => if ok then ask .recordLocked >>= fun _ => pure (.ok ())
            else pure (.error .engage)) Q s := by
      intro lan
      refine wp_askEnv fun i => ?_
      generalize hres : env (.engageKillSwitch _ lan allowLAN) i s.host = res
      obtain ⟨ok, r⟩ := res
      cases ok with
      | true => exact fun _ => hengage i _ lan r hks hres
      | false => exact hfail i _ lan r hres
    refine wp_then ?_
    cases allowLAN with
    | false => exact hgo []
    | true =>
      refine fun i => ?_
      show wp _ (match (env .localNetworks i s.host).1 with
        | none => _
        | some lan => _) Q { s with host := (env .localNetworks i s.host).2 }
      rw [hquiet]
      cases (env .localNetworks i s.host).1 with
      | none => exact hearly _ rfl
      | some lan => exact hgo lan

end

end NexusVPN.Client
