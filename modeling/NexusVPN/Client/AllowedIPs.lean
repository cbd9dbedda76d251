import NexusVPN.Client.ExitPhases
import NexusVPN.Client.Host
import NexusVPN.Client.Removal

/-! # Who receives which packets

    The allowed IPs of a WireGuard entry say which packets go to that peer, and which are
    taken from it.  A peer is to have its own address and nothing else, and the exit node
    the whole address space.  But those who write entries do not look at what the others
    have done. -/

namespace NexusVPN.Client

open List Prog Option Tracked Machine WGDevice ExitPhase TunnelState Pool

/-- The goroutines of the tunnel, where no device or host command fails. -/
def willingStep (lib : ClientLib) (cfg : TunnelConfig) :
    TunnelPool → TaskStep → Option TunnelPool :=
  step (fun c i s => handler lib c i.willing s) (Task.body lib cfg) Task.fork

/-- The allowed IPs of the entry under a key. -/
def WGDevice.rangesOf (wg : WGDevice) (key : Bytes) : Option (List IPRange) :=
  (wg.lookup key).map (·.allowedIPs)

/-- If no call is in progress, every installed peer has its own host prefix, and the peer
    recorded as exit node has the whole address space instead. -/
def AllowedIPsFollow (lib : ClientLib) (p : TunnelPool) : Prop :=
  (∀ th ∈ p.threads, th.2 = .ret ()) →
  ∀ d pr key own, p.shared.peers.lookup d = some pr → lib.decodeKey pr.publicKey = some key →
    allowedIPsFor lib pr.virtualIP = .ok own →
    p.shared.wg.rangesOf key = some (if p.shared.exit.deviceID = d then exitAllowedIPs else own)

/-! ## Calls in turn -/

/-- Another thread than `n` is in `SetExitNode` for the device. -/
def SettingExit (p : TunnelPool) (n : Nat) (d : UUID) : Prop :=
  ∃ m opts c k, m ≠ n ∧ p.threads[m]? = some (.setExitNode d opts, .call c k)

section

variable (dir : Directory) (lib : ClientLib)

/-- What the next call of thread `n` has to observe. -/
def InTurnCall (p : TunnelPool) (n : Nat) : TunnelCall → Prop
  -- New peers come with the key and the address of their device.
  | .insertPeer d publicKey virtualIP _ =>
    p.shared.peers.lookup d = none → dir.Describes lib d publicKey virtualIP
  | .upsertPeer c => ∀ d, lib.decodeKey c.publicKey = some (dir.key d) →
    if c.allowedIPs = exitAllowedIPs then
      -- A peer is widened while no other is, or is about to be, the exit node.
      (p.shared.exit.deviceID = .nil ∨ p.shared.exit.deviceID = d) ∧
        ∀ d', d' ≠ d → ¬ SettingExit p n d'
    else
      -- Its own prefix goes to a peer that is not, and is not about to be, the exit node.
      p.shared.exit.deviceID ≠ d ∧ ¬ SettingExit p n d
  | .recordExit d _ _ => p.shared.exit.deviceID = .nil ∨ p.shared.exit.deviceID = d
  -- Nobody has listed the device again whose entry is dropped.
  | .removeWGPeer publicKey =>
    ∀ d pr, p.shared.peers.lookup d = some pr → lib.decodeKey publicKey ≠ some (dir.key d)
  | _ => True

/-- What a step has to observe. -/
def InTurn (p : TunnelPool) : TaskStep → Prop
  | .spawn (.negotiate pr) => dir.Knows lib pr
  | .spawn _ => True
  | .advance n _ =>
    match p.threads[n]? with
    | some (_, .call c _) => InTurnCall dir lib p n c
    | _ => True

end

abbrev TrackedTunnel := Tracked tunnelIface TunnelState Task ExitPhase Unit

/-- The entry of a listed device: either somebody still has to narrow it, or it is narrow
    and the device is not the exit node, or it is wide and the device is the exit node or
    about to be. -/
def EntryFits (dir : Directory) (p : TrackedTunnel) (d : UUID) : Prop :=
  p.In (.narrowing d) ∨
  (p.shared.wg.rangesOf (dir.key d) = some [dir.address d] ∧ p.shared.exit.deviceID ≠ d ∧
    ¬ p.In (.widened d)) ∨
  (p.shared.wg.rangesOf (dir.key d) = some exitAllowedIPs ∧
    (p.shared.exit.deviceID = d ∨ p.In (.widened d)))

structure FollowsExit (dir : Directory) (lib : ClientLib) (p : TrackedTunnel) : Prop where
  obeying : p.Obeying (exitProtocol dir lib) .idle
  known : ∀ d pr, p.shared.peers.lookup d = some pr → pr.deviceID = d ∧ dir.Knows lib pr
  fits : ∀ d pr, p.shared.peers.lookup d = some pr → EntryFits dir p d

section

variable {dir : Directory} {lib : ClientLib} {p : TrackedTunnel} {n : Nat} {t : Task}
  {ph : ExitPhase} {c : TunnelCall} {d₀ : UUID} {key : Bytes} {publicKey : String} {pr : PeerRef}
  {wg : WGDevice}

theorem FollowsExit.ne_nil (h : FollowsExit dir lib p) {d : UUID}
    (hd : p.shared.peers.lookup d = some pr) : d ≠ .nil := by
  obtain ⟨rfl, hknows⟩ := h.known d pr hd
  exact hknows.1

theorem settingExit_of_in (h : p.Obeying (exitProtocol dir lib) .idle) {d : UUID}
    {q : TunnelM Unit} (hn : p.threads[n]? = some (t, ph, q)) (hne : ph ≠ .widened d)
    (hin : p.In (.widened d)) : SettingExit p.erase n d := by
  obtain ⟨⟨t', ph', q'⟩, hth, rfl⟩ := hin
  obtain ⟨m, hm⟩ := getElem?_of_mem hth
  have hobeys := h _ hth
  cases q' with
  | ret a => cases hobeys
  | call c k =>
    obtain ⟨opts, rfl⟩ := hobeys.1.1
    refine ⟨m, opts, c, k, ?_, ?_⟩
    · rintro rfl
      rw [hn] at hm
      cases hm
      exact hne rfl
    · simp [Tracked.erase, hm]

/-! ### What a call does to the entries -/

theorem rangesOf_upsertPeer {cfg : PeerConfig} (hkey : lib.decodeKey cfg.publicKey = some key)
    (hrng : cfg.allowedIPs ≠ []) (key' : Bytes) :
    rangesOf (upsertPeer lib.decodeKey none cfg wg).2 key' =
      if key' = key then some cfg.allowedIPs
      else (rangesOf wg key').map (·.filter (· ∉ cfg.allowedIPs)) :=
  allowedIPs_upsertPeer hkey hrng key'

theorem rangesOf_updateEndpoint {ep : UDPAddr} {ranges : List IPRange}
    (h : rangesOf wg key = some ranges) :
    rangesOf (updateEndpoint lib.decodeKey none publicKey ep wg).2 key = some ranges := by
  obtain ⟨e, he, rfl⟩ := map_eq_some_iff.mp h
  cases hkey : lib.decodeKey publicKey with
  | none => simpa only [updateEndpoint, upsertPeer, hkey] using h
  | some key' =>
    unfold rangesOf updateEndpoint
    rw [lookup_upsertPeer hkey]
    by_cases heq : key = key'
    · rw [if_pos heq, ← heq, he]
      simp [apply]
    · rw [if_neg heq, he]
      simp [WGPeer.without]

theorem rangesOf_removePeer (hne : lib.decodeKey publicKey ≠ some key) :
    WGDevice.rangesOf (WGDevice.removePeer lib.decodeKey none publicKey wg).2 key =
      WGDevice.rangesOf wg key := by
  cases hkey : lib.decodeKey publicKey with
  | none => simp only [WGDevice.removePeer, hkey]
  | some key' =>
    have hkeys : key ≠ key' := by
      rintro rfl
      exact hne hkey
    simp only [WGDevice.rangesOf, WGDevice.removePeer, hkey]
    rw [GoMap.lookup_erase_if, if_neg hkeys]

/-- The pool after thread `n` has made a call that led to the state `s`. -/
def Tracked.advanced (lib : ClientLib) (cfg : TunnelConfig) (p : TrackedTunnel) (n : Nat) (t : Task)
    (ph : ExitPhase) (q : TunnelM Unit) (c : TunnelCall) (s : TunnelState) : TrackedTunnel :=
  ⟨s, p.threads.set n (t, ph, q) ++ Tracked.forked .idle (Task.body lib cfg) Task.fork c⟩

variable {cfg : TunnelConfig} {ph' : ExitPhase} {q q' : TunnelM Unit} {s : TunnelState} {d : UUID}

theorem widened_of_advanced (h : (Tracked.advanced lib cfg p n t ph' q' c s).In (.widened d)) :
    p.In (.widened d) ∨ ph' = .widened d := by
  rcases in_of_advance h with hold | hnew | hfirst
  · exact .inl hold
  · exact .inr hnew
  · cases hfirst

theorem in_advanced (hn : p.threads[n]? = some (t, ph, q)) :
    (Tracked.advanced lib cfg p n t ph' q' c s).In ph' := by
  refine ⟨(t, ph', q'), mem_append_left _ ?_, rfl⟩
  exact mem_set (List.getElem?_eq_some_iff.mp hn).1 _

section

variable (h : EntryFits dir p d) (hn : p.threads[n]? = some (t, ph, q))
include h hn

theorem EntryFits.advance (hrng : ∀ r, r = [dir.address d] ∨ r = exitAllowedIPs →
      p.shared.wg.rangesOf (dir.key d) = some r → s.wg.rangesOf (dir.key d) = some r)
    (hexit : s.exit.deviceID = d ↔ p.shared.exit.deviceID = d)
    (hnar : ph = .narrowing d → ph' = .narrowing d)
    (hwidened : ph = .widened d ↔ ph' = .widened d) :
    EntryFits dir (Tracked.advanced lib cfg p n t ph' q' c s) d := by
  rcases h with hin | ⟨hown, hne, hnot⟩ | ⟨hwide, hwho⟩
  · exact .inl (hin.advance hn hnar)
  · refine .inr (.inl ⟨hrng _ (.inl rfl) hown, fun h => hne (hexit.mp h), ?_⟩)
    intro hin
    rcases widened_of_advanced hin with hold | hnew
    · exact hnot hold
    · exact hnot ⟨_, mem_of_getElem? hn, hwidened.mpr hnew⟩
  · refine .inr (.inr ⟨hrng _ (.inr rfl) hwide, ?_⟩)
    rcases hwho with hexit' | hin
    · exact .inl (hexit.mpr hexit')
    · exact .inr (hin.advance hn hwidened.mp)

theorem EntryFits.same
    (hwg : s.wg = p.shared.wg) (hexit : s.exit.deviceID = p.shared.exit.deviceID) :
    EntryFits dir (Tracked.advanced lib cfg p n t ph q' c s) d :=
  h.advance hn (fun _ _ hr => hwg ▸ hr) (by rw [hexit]) id Iff.rfl

end

/-- Another device keeps its ranges, if none of them is given away. -/
theorem rangesOf_kept {c : PeerConfig} {r : List IPRange}
    (hkey : lib.decodeKey c.publicKey = some (dir.key d₀)) (hnonempty : c.allowedIPs ≠ [])
    (hne : d ≠ d₀) (hdisjoint : ∀ x ∈ r, x ∉ c.allowedIPs)
    (h : rangesOf wg (dir.key d) = some r) :
    rangesOf (upsertPeer lib.decodeKey none c wg).2 (dir.key d) = some r := by
  rw [rangesOf_upsertPeer hkey hnonempty, if_neg fun hk => hne (dir.key_injective hk), h]
  have hall : r.filter (· ∉ c.allowedIPs) = r :=
    filter_eq_self.mpr fun x hx => decide_eq_true (hdisjoint x hx)
  exact congrArg some hall

/-- The call leaves the exit record as it is, and its caller in its phase. -/
def TunnelCall.still : TunnelCall → Bool
  | .insertPeer .. | .lookupPeer _ | .takeExit | .recordExit .. | .upsertPeer _ => false
  | _ => true

theorem still_next (hc : c.still = true) (a : tunnelIface.Ans c) : next t ph c a = ph := by
  cases ph <;> cases c <;> first | rfl | cases hc

variable (h : FollowsExit dir lib p)
include h

theorem FollowsExit.exit_ne (hd : p.shared.peers.lookup d = some pr) (hne : d ≠ d₀)
    (hexit : p.shared.exit.deviceID = .nil ∨ p.shared.exit.deviceID = d₀) :
    p.shared.exit.deviceID ≠ d := by
  rintro rfl
  exact hexit.elim (h.ne_nil hd) hne

theorem fits_narrow {c : PeerConfig}
    (hn : p.threads[n]? = some (t, ph, q)) (hc : dir.Narrows lib d₀ c)
    (hph : ph = .idle ∨ ph = .narrowing d₀) (hexit : p.shared.exit.deviceID ≠ d₀)
    (hset : ¬ SettingExit p.erase n d₀) (hd : p.shared.peers.lookup d = some pr)
    (hwg : s.wg = (upsertPeer lib.decodeKey none c p.shared.wg).2)
    (hsame : s.exit = p.shared.exit) :
    EntryFits dir (Tracked.advanced lib cfg p n t .idle q' (.upsertPeer c) s) d := by
  have hne : c.allowedIPs ≠ [] := hc.2 ▸ cons_ne_nil _ _
  have hnot : ∀ d', ph ≠ .widened d' := by
    intro d' heq
    rcases hph with rfl | rfl <;> cases heq
  by_cases heq : d = d₀
  · subst heq
    refine .inr (.inl ⟨?_, ?_, ?_⟩)
    · show rangesOf s.wg _ = _
      rw [hwg, rangesOf_upsertPeer hc.1 hne, if_pos rfl, hc.2]
    · exact hsame ▸ hexit
    · intro hin
      rcases widened_of_advanced hin with hold | hnew
      · exact hset (settingExit_of_in h.obeying hn (hnot d) hold)
      · cases hnew
  · refine (h.fits d pr hd).advance hn ?_ (by rw [hsame]) ?_ ?_
    · intro r hr hrng
      rw [hwg]
      refine rangesOf_kept hc.1 hne heq ?_ hrng
      intro x hx hx'
      -- The peer that is narrowed takes only its own prefix.
      rw [hc.2, mem_singleton] at hx'
      subst hx'
      rcases hr with rfl | rfl
      · exact heq (dir.address_injective (mem_singleton.mp hx)).symm
      · exact dir.address_not_exit d₀ hx
    · intro hnar
      rcases hph with rfl | rfl
      · cases hnar
      · exact absurd (narrowing.inj hnar).symm heq
    · exact ⟨fun hw => absurd hw (hnot d), nofun⟩

theorem fits_widen {c : PeerConfig}
    (hn : p.threads[n]? = some (t, .idle, q)) (hc : dir.Widens lib d₀ c)
    (hexit : p.shared.exit.deviceID = .nil ∨ p.shared.exit.deviceID = d₀)
    (hset : ∀ d', d' ≠ d₀ → ¬ SettingExit p.erase n d') (hd : p.shared.peers.lookup d = some pr)
    (hwg : s.wg = (upsertPeer lib.decodeKey none c p.shared.wg).2)
    (hsame : s.exit = p.shared.exit) :
    EntryFits dir (Tracked.advanced lib cfg p n t (.widened d₀) q' (.upsertPeer c) s) d := by
  have hnonempty : c.allowedIPs ≠ [] := hc.2 ▸ cons_ne_nil _ _
  by_cases heq : d = d₀
  · subst heq
    refine .inr (.inr ⟨?_, .inr (in_advanced hn)⟩)
    show rangesOf s.wg _ = _
    rw [hwg, rangesOf_upsertPeer hc.1 hnonempty, if_pos rfl, hc.2]
  · rcases h.fits d pr hd with hin | ⟨hown, hne, hnot⟩ | ⟨-, hwho⟩
    · exact .inl (hin.advance hn nofun)
    · refine .inr (.inl ⟨?_, ?_, ?_⟩)
      · show rangesOf s.wg _ = _
        rw [hwg]
        refine rangesOf_kept hc.1 hnonempty heq ?_ hown
        intro x hx
        rw [mem_singleton.mp hx, hc.2]
        exact dir.address_not_exit d
      · exact hsame ▸ hne
      · intro hin
        rcases widened_of_advanced hin with hold | hnew
        · exact hnot hold
        · exact heq (widened.inj hnew).symm
    · -- Nobody else is, or is about to be, the exit node.
      rcases hwho with hother | hin
      · exact absurd hother (h.exit_ne hd heq hexit)
      · exact absurd (settingExit_of_in h.obeying hn nofun hin) (hset d heq)

theorem fits_takeExit (hn : p.threads[n]? = some (t, .idle, q))
    (hd : p.shared.peers.lookup d = some pr) (hwg : s.wg = p.shared.wg)
    (hexit : s.exit.deviceID = .nil) :
    EntryFits dir (Tracked.advanced lib cfg p n t (.next t .idle .takeExit p.shared.exit) q'
      .takeExit s) d := by
  have hnil := h.ne_nil hd
  by_cases heq : p.shared.exit.deviceID = d
  · have hnext : next t .idle .takeExit p.shared.exit = .narrowing d := by
      show (if p.shared.exit.deviceID = .nil then idle else _) = _
      rw [heq, if_neg hnil]
    rw [hnext]
    exact .inl (in_advanced hn)
  · refine (h.fits d pr hd).advance hn (fun _ _ hr => hwg ▸ hr) ?_ nofun ?_
    · rw [hexit]
      exact ⟨fun h => absurd h.symm hnil, fun h => absurd h heq⟩
    · constructor
      · exact nofun
      · show (if p.shared.exit.deviceID = .nil then idle else _) = _ → _
        split <;> exact nofun

theorem fits_recordExit (hn : p.threads[n]? = some (t, .widened d₀, q))
    (hexit : p.shared.exit.deviceID = .nil ∨ p.shared.exit.deviceID = d₀)
    (hd : p.shared.peers.lookup d = some pr) (hwg : s.wg = p.shared.wg)
    (hafter : s.exit.deviceID = d₀) :
    EntryFits dir (Tracked.advanced lib cfg p n t .idle q' c s) d := by
  by_cases heq : d = d₀
  · subst heq
    rcases h.fits d pr hd with hin | ⟨-, -, hnot⟩ | ⟨hwide, -⟩
    · exact .inl (hin.advance hn nofun)
    · exact absurd ⟨_, mem_of_getElem? hn, rfl⟩ hnot
    · refine .inr (.inr ⟨?_, .inl hafter⟩)
      show rangesOf s.wg _ = _
      rw [hwg]
      exact hwide
  · refine (h.fits d pr hd).advance hn (fun _ _ hr => hwg ▸ hr) ?_ nofun ?_
    · rw [hafter]
      exact ⟨fun h => absurd h.symm heq, fun hother => absurd hother (h.exit_ne hd heq hexit)⟩
    · exact ⟨fun h => absurd (widened.inj h).symm heq, nofun⟩

/-! ### One step -/

theorem fits_still (hn : p.threads[n]? = some (t, ph, q)) (hc : c.still = true)
    (hok : InTurnCall dir lib p.erase n c) {i : TunnelInput}
    (hd : (handler lib c i.willing p.shared).2.peers.lookup d = some pr) :
    EntryFits dir (Tracked.advanced lib cfg p n t
      (.next t ph c (handler lib c i.willing p.shared).1) q' c
      (handler lib c i.willing p.shared).2) d := by
  have hlist : p.shared.peers.lookup d = some pr := by
    rcases listed_of_handler hd with hold | ⟨_, _, _, rfl, -⟩
    · exact hold
    · cases hc
  rw [still_next hc]
  refine (h.fits d pr hlist).advance hn (fun r _ hr => ?_) ?_ id Iff.rfl
  · show rangesOf (handler lib c i.willing p.shared).2.books.wg _ = _
    rw [handler_books]
    cases c with
    | updateEndpoint publicKey ep => exact rangesOf_updateEndpoint hr
    -- In turn, so it is not the key of a peer that is listed.
    | removeWGPeer publicKey => exact (rangesOf_removePeer (hok d pr hlist)).trans hr
    | deletePeer | newProxy =>
      simp only [Books.step]
      split <;> exact hr
    | insertPeer | lookupPeer | takeExit | recordExit | upsertPeer => cases hc
    | _ => exact hr
  · rw [handler_exit]
    cases c <;> first | rfl | cases hc

theorem fits_upsertPeer {c : PeerConfig}
    (hn : p.threads[n]? = some (t, ph, q)) (hlegal : legal dir lib t ph (.upsertPeer c))
    (hok : InTurnCall dir lib p.erase n (.upsertPeer c)) (hd : p.shared.peers.lookup d = some pr)
    (a : Except WGError Unit) :
    EntryFits dir (Tracked.advanced lib cfg p n t (.next t ph (.upsertPeer c) a) q' (.upsertPeer c)
      { p.shared with wg := (upsertPeer lib.decodeKey none c p.shared.wg).2 }) d := by
  -- Its turn: nobody has made or is making the peer the exit node.
  have hnarrow : ∀ d₀, dir.Narrows lib d₀ c → c.allowedIPs ≠ exitAllowedIPs ∧
      p.shared.exit.deviceID ≠ d₀ ∧ ¬ SettingExit p.erase n d₀ := by
    intro d₀ hc
    have hne : c.allowedIPs ≠ exitAllowedIPs := by
      rw [hc.2]
      simp [exitAllowedIPs]
    have hcond := hok d₀ hc.1
    rw [if_neg hne] at hcond
    exact ⟨hne, hcond⟩
  cases ph with
  | widened d₀ => exact hlegal.2.elim
  | narrowing d₀ =>
    obtain ⟨-, hexit, hset⟩ := hnarrow d₀ hlegal
    exact fits_narrow h hn hlegal (.inr rfl) hexit hset hd rfl rfl
  | idle =>
    show EntryFits dir (Tracked.advanced lib cfg p n t
      (if c.allowedIPs = exitAllowedIPs then widening t else .idle) q' _ _) d
    rcases hlegal with ⟨d₀, hc⟩ | ⟨d₀, opts, rfl, hc⟩
    · obtain ⟨hne, hexit, hset⟩ := hnarrow d₀ hc
      rw [if_neg hne]
      exact fits_narrow h hn hc (.inl rfl) hexit hset hd rfl rfl
    · have hcond := hok d₀ hc.1
      rw [if_pos hc.2] at hcond ⊢
      exact fits_widen h hn hc hcond.1 hcond.2 hd rfl rfl

theorem fits_insertPeer {virtualIP : String} {vars : PeerVars}
    (hn : p.threads[n]? = some (t, .idle, q))
    (hd : (p.shared.insertPeer d₀ publicKey virtualIP vars).2.peers.lookup d = some pr) :
    EntryFits dir (Tracked.advanced lib cfg p n t
      (.next t .idle (.insertPeer d₀ publicKey virtualIP vars)
        (p.shared.insertPeer d₀ publicKey virtualIP vars).1) q' c
      (p.shared.insertPeer d₀ publicKey virtualIP vars).2) d := by
  unfold insertPeer at hd ⊢
  cases hold : p.shared.peers.lookup d₀ with
  | some pr₀ =>
    simp only [hold] at hd ⊢
    exact (h.fits d pr hd).same hn rfl rfl
  | none =>
    simp only [hold] at hd ⊢
    rw [GoMap.lookup_insert_if] at hd
    by_cases heq : d = d₀
    · rw [heq]
      exact .inl (in_advanced hn)
    · rw [if_neg heq] at hd
      refine (h.fits d pr hd).advance hn (fun _ _ hr => hr) Iff.rfl nofun ?_
      simp [ExitPhase.next]

theorem fits_lookupPeer (hn : p.threads[n]? = some (t, ph, q))
    (hlegal : legal dir lib t ph (.lookupPeer d₀))
    (hd : p.shared.peers.lookup d = some pr) :
    EntryFits dir (Tracked.advanced lib cfg p n t
      (.next t ph (.lookupPeer d₀) (p.shared.peers.lookup d₀)) q' c p.shared) d := by
  cases ph with
  | idle => exact (h.fits d pr hd).same hn rfl rfl
  | widened d' => exact hlegal.2.elim
  | narrowing d' =>
    obtain rfl : d₀ = d' := hlegal
    cases hfound : p.shared.peers.lookup d₀ with
    | some pr₀ => exact (h.fits d pr hd).same hn rfl rfl
    | none =>
      refine (h.fits d pr hd).advance hn (fun _ _ hr => hr) Iff.rfl ?_ ?_
      · intro heq
        rw [narrowing.inj heq, hd] at hfound
        cases hfound
      · simp [ExitPhase.next]

/-- After a call that is in turn the ranges of every peer still fit. -/
theorem fits_advance {k : tunnelIface.Ans c → TunnelM Unit}
    (hn : p.threads[n]? = some (t, ph, .call c k)) (hok : InTurnCall dir lib p.erase n c)
    (i : TunnelInput)
    (hd : (handler lib c i.willing p.shared).2.peers.lookup d = some pr) :
    EntryFits dir (Tracked.advanced lib cfg p n t
      (.next t ph c (handler lib c i.willing p.shared).1) q' c
      (handler lib c i.willing p.shared).2) d := by
  have hlegal : legal dir lib t ph c := (h.obeying _ (mem_of_getElem? hn)).1
  cases c with
  | insertPeer d₀ publicKey virtualIP vars =>
    cases ph with
    | idle => exact fits_insertPeer h hn hd
    | narrowing d' => exact hlegal.elim
    | widened d' => exact hlegal.2.elim
  | lookupPeer d₀ => exact fits_lookupPeer h hn hlegal hd
  | takeExit =>
    cases ph with
    | idle => exact fits_takeExit h hn hd rfl rfl
    | narrowing d' => exact hlegal.elim
    | widened d' => exact hlegal.2.elim
  | recordExit d₀ prior pinned =>
    cases ph with
    | idle | narrowing => exact hlegal.elim
    | widened d' =>
      obtain rfl : d₀ = d' := hlegal.2
      exact fits_recordExit h hn hok hd rfl rfl
  | upsertPeer cfg' => exact fits_upsertPeer h hn hlegal hok hd _
  | _ => exact fits_still h hn rfl hok hd

theorem may_handler (hok : InTurnCall dir lib p.erase n c) (i : TunnelInput) :
    may dir lib c (handler lib c i.willing p.shared).1 := by
  cases c with
  | env c => cases c <;> first | exact rfl | trivial
  | lookupPeer d =>
    show may dir lib (.lookupPeer d) (p.shared.peers.lookup d)
    cases hd : p.shared.peers.lookup d with
    | none => trivial
    | some pr => exact h.known d pr hd
  | listPeers =>
    intro pr hpr
    obtain ⟨⟨d, pr'⟩, hmem, rfl⟩ := mem_map.mp hpr
    exact (h.known d pr' (GoMap.mem_range.mp hmem)).2
  | insertPeer d publicKey virtualIP vars =>
    show may dir lib (.insertPeer d publicKey virtualIP vars)
      (p.shared.insertPeer d publicKey virtualIP vars).1
    unfold insertPeer
    cases hd : p.shared.peers.lookup d with
    | some pr => trivial
    | none => exact ⟨rfl, rfl, rfl, hok hd⟩
  | upsertPeer cfg' =>
    intro hkey
    obtain ⟨key, hkey⟩ := isSome_iff_exists.mp hkey
    show (upsertPeer lib.decodeKey none cfg' p.shared.wg).1 = .ok ()
    simp only [upsertPeer, hkey]
  | _ => trivial

/-- The tracked goroutines, where no device or host command fails. -/
def trackedStep (dir : Directory) (lib : ClientLib) (cfg : TunnelConfig) :
    TrackedTunnel → TaskStep → Option TrackedTunnel :=
  Tracked.step (fun c i s => handler lib c i.willing s) (exitProtocol dir lib) .idle
    (Task.body lib cfg) Task.fork

theorem followsExit_step {p' : TrackedTunnel} {a : TaskStep} (hok : InTurn dir lib p.erase a)
    (hstep : trackedStep dir lib cfg p a = some p') : FollowsExit dir lib p' := by
  have hcall : ∀ n i t ph c k, a = .advance n i → p.threads[n]? = some (t, ph, .call c k) →
      InTurnCall dir lib p.erase n c := by
    rintro n i t ph c k rfl hn
    have hth : p.erase.threads[n]? = some (t, .call c k) := by
      simp [Tracked.erase, hn]
    simpa only [InTurn, hth] using hok
  have hobeying : p'.Obeying (exitProtocol dir lib) .idle := by
    refine conforming_step (Q := fun _ _ ph => ph = idle) ?_ ?_ ?_ hstep h.obeying
    · rintro t rfl
      refine calm_body cfg t ?_
      rintro pr rfl
      exact hok
    · -- What is forked is a negotiation with a peer that is known.
      intro t ph c t' hlegal hfork
      cases c with
      | goNegotiate pr =>
        cases hfork
        refine calm_body cfg _ ?_
        rintro pr' heq
        obtain rfl := Task.negotiate.inj heq
        cases ph with
        | idle => exact hlegal
        | narrowing d => exact hlegal.elim
        | widened d => exact hlegal.2.elim
      | _ => cases hfork
    · exact fun n i t ph c k ha hn => may_handler h (hcall n i t ph c k ha hn) i
  rcases step_cases hstep with ⟨t, -, rfl⟩ | ⟨n, i, t, ph, c, k, ha, hn, rfl⟩
  · refine ⟨hobeying, h.known, ?_⟩
    intro d pr hd
    simpa only [EntryFits, in_spawn, reduceCtorEq, or_false] using h.fits d pr hd
  · refine ⟨hobeying, ?_, fun d pr hd => fits_advance h hn (hcall n i t ph c k ha hn) i hd⟩
    intro d pr hd
    rcases listed_of_handler hd with hold | ⟨publicKey, virtualIP, vars, rfl, hnone, rfl⟩
    · exact h.known d pr hold
    · exact ⟨rfl, hcall n i t ph _ k ha hn hnone⟩

theorem FollowsExit.allowedIPsFollow : AllowedIPsFollow lib p.erase := by
  intro hdone d pr key own hd hkey hown
  have hidle : ∀ x, x ≠ idle → ¬ p.In x := by
    rintro x hx ⟨⟨t, ph, q⟩, hth, rfl⟩
    have hret : q = .ret () := hdone (t, q) (mem_map.mpr ⟨_, hth, rfl⟩)
    have hobeys := h.obeying _ hth
    rw [hret] at hobeys
    exact hx hobeys
  obtain ⟨rfl, hknows⟩ := h.known d pr hd
  cases hkey.symm.trans hknows.2.1
  obtain rfl := Except.ok.inj (hown.symm.trans hknows.2.2)
  show rangesOf p.shared.wg _ =
    some (if p.shared.exit.deviceID = pr.deviceID then exitAllowedIPs
      else [dir.address pr.deviceID])
  rcases h.fits _ pr hd with hin | ⟨hrng, hne, -⟩ | ⟨hrng, hexit | hin⟩
  · exact absurd hin (hidle _ (by simp))
  · rw [hrng, if_neg hne]
  · rw [hrng, if_pos hexit]
  · exact absurd hin (hidle _ (by simp))

end

/-- In every interleaving of updates, negotiations and changes of the exit node in which
    entries are written in turn: whenever no call is in progress, the entry of every installed
    peer has just its own host prefix, and the one of the exit node the whole address space. -/
theorem allowedIPs_follow_exit (lib : ClientLib) (cfg : TunnelConfig) (dir : Directory)
    (s : TunnelState) (hpeers : s.peers = ∅) (as : List TaskStep)
    (hturn : Along (willingStep lib cfg) (InTurn dir lib) ⟨s, []⟩ as) :
    Throughout (willingStep lib cfg) (AllowedIPsFollow lib) ⟨s, []⟩ as := by
  have hinit : ∃ p : TrackedTunnel, p.erase = ⟨s, []⟩ ∧ FollowsExit dir lib p := by
    have hnone : ∀ d pr, s.peers.lookup d ≠ some pr := by
      intro d pr hd
      rw [hpeers] at hd
      cases hd
    exact ⟨⟨s, []⟩, rfl, (fun th hth => nomatch hth),
      fun d pr hd => absurd hd (hnone d pr), fun d pr hd => absurd hd (hnone d pr)⟩
  have hall := hturn.throughout
    (P := fun q => ∃ p : TrackedTunnel, p.erase = q ∧ FollowsExit dir lib p) ?_ hinit
  · refine hall.mono ?_
    rintro q ⟨p, rfl, hp⟩
    exact hp.allowedIPsFollow
  · rintro q a q' ⟨p, rfl, hp⟩ hok hstep
    obtain ⟨p', hstep', herase⟩ := exists_step hstep
    exact ⟨p', herase, followsExit_step hp hok hstep'⟩

/-! ## The laptop as exit node -/

/-- A tunnel that is registered and has no peers. -/
def registeredTunnel : TunnelState := { new "home" "" ∅ with deviceID := "own-id" }

def laptopJoined : Proto.PeerUpdate := ⟨.joined, some laptop, "home"⟩

/-- The host has a default route, and a relay is there for the asking if `relay` says so. -/
def exitWorld (relay : Bool) : TunnelInput :=
  { relayWorld false with
    env
      | .snapshotRoutes => some ⟨some [192, 0, 2, 1], "eth0"⟩
      | .requestRelay req => if relay then (relayWorld false).env (.requestRelay req) else none
      | c => (relayWorld false).env c }

/-- Goroutine `n` takes `count` steps in that world. -/
def exitSteps (relay : Bool) (n count : Nat) : List TaskStep :=
  List.replicate count (.advance n (exitWorld relay))

/-- The laptop joins, cannot be reached, and becomes the exit node all the same. -/
def calmExit : List TaskStep :=
  .spawn (.applyPeerUpdate laptopJoined) :: exitSteps false 0 4 ++ exitSteps false 1 8 ++
    .spawn (.setExitNode laptopID ⟨false, false⟩) :: exitSteps false 2 9

theorem UUID.bytes_ne {d : UUID} {bs : Bytes} (h : bs.length ≠ 16) : bs ≠ d.bytes := by
  intro heq
  rw [heq] at h
  exact h d.length_eq

/-- The laptop has its key and its address; everybody else can be told apart by their ids. -/
def laptopDirectory : Directory where
  key d := if d = laptopID then [3] else d.bytes
  address d := if d = laptopID then ⟨[10, 77, 0, 3], 32⟩ else ⟨d.bytes, 128⟩
  key_injective := by
    intro d d' h
    by_cases hd : d = laptopID <;> by_cases hd' : d' = laptopID <;>
      simp only [hd, hd', if_true, if_false] at h
    · rw [hd, hd']
    · exact absurd h (UUID.bytes_ne (by decide))
    · exact absurd h.symm (UUID.bytes_ne (by decide))
    · rw [← UUID.ofBytes_bytes d, h, UUID.ofBytes_bytes]
  address_injective := by
    intro d d' h
    by_cases hd : d = laptopID <;> by_cases hd' : d' = laptopID <;>
      simp only [hd, hd', if_true, if_false, IPRange.mk.injEq] at h
    · rw [hd, hd']
    · exact absurd h.2 (by decide)
    · exact absurd h.2 (by decide)
    · rw [← UUID.ofBytes_bytes d, h.1, UUID.ofBytes_bytes]
  address_not_exit := by
    intro d
    by_cases hd : d = laptopID
    · simp only [hd, if_true]
      decide
    · simp [hd, exitAllowedIPs]

theorem laptopDirectory_knows (ref : Nat) :
    laptopDirectory.Knows raceLib ⟨ref, laptopID, "laptop-key", "10.77.0.3"⟩ :=
  ⟨show laptopID ≠ .nil by decide, rfl, rfl⟩

theorem eq_laptopID {d : UUID} (h : raceLib.decodeKey "laptop-key" = some (laptopDirectory.key d)) :
    d = laptopID := by
  have hkey : laptopDirectory.key laptopID = laptopDirectory.key d := some.inj h
  exact (laptopDirectory.key_injective hkey).symm

theorem inTurn_calmExit :
    Along (willingStep raceLib routerConfig) (InTurn laptopDirectory raceLib)
      ⟨registeredTunnel, []⟩ calmExit := by
  have hfirst : ∀ s q d, ¬ SettingExit ⟨s, [(.applyPeerUpdate laptopJoined, q)]⟩ 0 d := by
    rintro s q d ⟨m, opts, c, k, hm, hth⟩
    rcases m with _ | m
    · exact hm rfl
    · cases hth
  have hlast : ∀ s q pr q' q'' d, ¬ SettingExit ⟨s, [(.applyPeerUpdate laptopJoined, q),
      (.negotiate pr, q'), (.setExitNode laptopID ⟨false, false⟩, q'')]⟩ 2 d := by
    rintro s q pr q' q'' d ⟨m, opts, c, k, hm, hth⟩
    rcases m with _ | _ | _ | m
    · cases hth
    · cases hth
    · exact hm rfl
    · cases hth
  iterate 2 refine along_cons rfl trivial ?_
  -- The laptop is listed with its own key and address, and gets its own prefix.
  refine along_cons rfl (fun _ => laptopDirectory_knows 0) (along_cons rfl ?_ ?_)
  · intro d hd
    obtain rfl := eq_laptopID hd
    exact ⟨by decide, hfirst _ _ _⟩
  -- The negotiation changes nothing.
  iterate 9 refine along_cons rfl trivial ?_
  -- No other exit node is chosen, and none is being chosen.
  iterate 5 refine along_cons rfl trivial ?_
  refine along_cons rfl ?_ ?_
  · intro d hd
    exact ⟨.inl rfl, fun d' _ => hlast _ _ _ _ _ _⟩
  iterate 3 refine along_cons rfl trivial ?_
  exact along_cons rfl (.inl rfl) trivial

theorem allowedIPs_follow_exit_laptop :
    (registeredTunnel.peers = ∅ ∧ Along (willingStep raceLib routerConfig)
      (InTurn laptopDirectory raceLib) ⟨registeredTunnel, []⟩ calmExit) ∧
    Throughout (willingStep raceLib routerConfig) (AllowedIPsFollow raceLib)
      ⟨registeredTunnel, []⟩ calmExit :=
  ⟨⟨rfl, inTurn_calmExit⟩, allowedIPs_follow_exit raceLib routerConfig laptopDirectory
    registeredTunnel rfl calmExit inTurn_calmExit⟩

/-- The laptop joins and becomes the exit node while the negotiation with it is under way,
    which then ends at a relay. -/
def relayedExit : List TaskStep :=
  .spawn (.applyPeerUpdate laptopJoined) :: exitSteps true 0 4 ++
    .spawn (.setExitNode laptopID ⟨false, false⟩) :: exitSteps true 2 9 ++ exitSteps true 1 12

/-- Everybody is done and the laptop is the exit node, but WireGuard sends it nothing
    except what is for the laptop itself. -/
theorem exit_node_narrowed_by_relay :
    ∃ p, run (willingStep raceLib routerConfig) ⟨registeredTunnel, []⟩ relayedExit = some p ∧
      (∀ th ∈ p.threads, th.2 = .ret ()) ∧ p.shared.exit.deviceID = laptopID ∧
      p.shared.wg.rangesOf [3] = some [⟨[10, 77, 0, 3], 32⟩] ∧ ¬ AllowedIPsFollow raceLib p := by
  have hdone (x y z : Task) : ∀ th ∈ [(x, .ret ()), (y, .ret ()), (z, .ret ())],
      th.2 = (.ret () : TunnelM Unit) := by simp
  refine ⟨_, rfl, hdone _ _ _, rfl, rfl, ?_⟩
  intro hfollow
  have hwide := hfollow (hdone _ _ _) laptopID _ [3] _ rfl rfl rfl
  cases hwide

end NexusVPN.Client
