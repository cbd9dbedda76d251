import Mathlib.Data.List.Induction
import NexusVPN.Client.Registration

/-! # Who is there

    `observePeerModes` goes by the receive counters of the WireGuard peers.  It notes for each
    peer the last reading and when the reading last changed, while other goroutines change the
    modes as well. -/

namespace NexusVPN.Client.Presence

open List TunnelState PeerVars

/-- A step of the tunnel, with what it reads from outside. -/
abbrev Step := TunnelCall × TunnelInput

def next (lib : ClientLib) (s : TunnelState) (a : Step) : TunnelState := (handler lib a.1 a.2 s).2

/-- What a step has read of the counter of the peer, and when. -/
def reading (pr : PeerRef) (a : Step) : Option (UInt64 × Time) :=
  match a.1 with
  | .observe pr' rxBytes now => if pr' = pr then some (rxBytes, now) else none
  | _ => none

/-- The times at which the counter was not what had been seen before. -/
def moves : UInt64 → List (UInt64 × Time) → List Time
  | _, [] => []
  | seen, (rxBytes, now) :: rs =>
    if rxBytes ≠ seen then now :: moves rxBytes rs else moves seen rs

/-! ## What is noted of the counter -/

def noted (vars : PeerVars) : UInt64 × Time := (vars.lastRx, vars.lastRxMove)

def note (v r : UInt64 × Time) : UInt64 × Time := if r.1 ≠ v.1 then r else v

section

variable {lib : ClientLib} {s : TunnelState} {pr pr' : PeerRef} {vars : PeerVars} {now : Time}

theorem noted_received (vars : PeerVars) (rxBytes : UInt64) (now : Time) :
    noted (vars.received rxBytes now) = note (noted vars) (rxBytes, now) := by
  rw [received]
  by_cases hsame : rxBytes = vars.lastRx
  · simp [note, noted, hsame]
  · simp [note, noted, hsame]

theorem noted_observe (vars : PeerVars) (rxBytes : UInt64) (now : Time) :
    noted (vars.observe rxBytes now) = note (noted vars) (rxBytes, now) := by
  rw [← noted_received]
  unfold observe
  dsimp only
  split
  · rfl
  · split <;> rfl

theorem noted_setVars (h : noted vars = noted (s.heap pr')) :
    noted ((s.setVars pr' vars).heap pr) = noted (s.heap pr) := by
  by_cases heq : pr = pr'
  · subst heq
    simpa [setVars] using h
  · simp [setVars, Function.update_of_ne heq]

/-- Only readings of its counter change what is noted of a peer. -/
theorem noted_next (lib : ClientLib) (hpr : pr.ref < s.nextRef) (a : Step) :
    pr.ref < (next lib s a).nextRef ∧
      noted ((next lib s a).heap pr) = (reading pr a).toList.foldl note (noted (s.heap pr)) := by
  obtain ⟨c, i⟩ := a
  cases c with
  | insertPeer d publicKey virtualIP vars =>
    simp only [next, handler, insertPeer]
    cases s.peers.lookup d with
    | some _ => exact ⟨hpr, rfl⟩
    | none =>
      refine ⟨Nat.lt_succ_of_lt hpr, congrArg noted (Function.update_of_ne ?_ _ _)⟩
      rintro rfl
      exact Nat.lt_irrefl _ hpr
  | observe pr' rxBytes now =>
    refine ⟨hpr, ?_⟩
    by_cases heq : pr' = pr
    · subst heq
      simp [next, handler, setVars, reading, noted_observe]
    · simp [next, handler, setVars, reading, heq, Function.update_of_ne (Ne.symm heq)]
  | beginAttempt pr' interval =>
    simp only [next, handler]
    split
    · exact ⟨hpr, rfl⟩
    · exact ⟨hpr, noted_setVars rfl⟩
  | moveEndpoint pr' ep =>
    simp only [next, handler]
    split
    · exact ⟨hpr, noted_setVars rfl⟩
    · exact ⟨hpr, rfl⟩
  | refreshPeer | clearAttempt | setLocalCandidate | establishDirect | adoptProxy | takeProxy
  | setMode => exact ⟨hpr, noted_setVars rfl⟩
  | beginStart =>
    simp only [next, handler]
    split <;> exact ⟨hpr, rfl⟩
  | deletePeer d =>
    simp only [next, handler, deletePeer]
    cases s.peers.lookup d <;> exact ⟨hpr, rfl⟩
  | newProxy d relayAddr =>
    simp only [next, handler]
    cases i.loopback <;> exact ⟨hpr, rfl⟩
  | _ => exact ⟨hpr, rfl⟩

theorem noted_run (hpr : pr.ref < s.nextRef) (as : List Step) :
    noted ((as.foldl (next lib) s).heap pr) =
      (as.filterMap (reading pr)).foldl note (noted (s.heap pr)) := by
  induction as generalizing s with
  | nil => rfl
  | cons a as ih =>
    obtain ⟨hpr', hnoted⟩ := noted_next lib hpr a
    rw [foldl_cons, ih hpr', hnoted, filterMap_cons]
    cases reading pr a <;> rfl

end

/-! ## Readings in the order of time -/

theorem moves_append (v : UInt64 × Time) (rs : List (UInt64 × Time)) (r : UInt64 × Time) :
    moves v.1 (rs ++ [r]) = moves v.1 rs ++ if r.1 ≠ (rs.foldl note v).1 then [r.2] else [] := by
  induction rs generalizing v with
  | nil =>
    rw [nil_append, moves]
    rfl
  | cons r' rs ih =>
    by_cases hsame : r'.1 = v.1
    · simpa [moves, note, hsame] using ih v
    · simpa [moves, note, hsame] using ih r'

theorem mem_times {seen : UInt64} {rs : List (UInt64 × Time)} {t : Time} (h : t ∈ moves seen rs) :
    t ∈ rs.map Prod.snd := by
  induction rs generalizing seen with
  | nil => exact h
  | cons r rs ih =>
    rw [moves] at h
    split at h
    · exact (mem_cons.mp h).elim (· ▸ .head _) fun h => .tail _ (ih h)
    · exact .tail _ (ih h)

/-- What is noted is the time of the last move, which is the latest. -/
theorem last_move (rs : List (UInt64 × Time)) (hsort : (rs.map Prod.snd).Pairwise (· ≤ ·)) :
    (∀ t ∈ moves 0 rs, t ≤ (rs.foldl note (0, 0)).2) ∧
      ((rs.foldl note (0, 0)).2 ∈ moves 0 rs ∨ moves 0 rs = [] ∧ (rs.foldl note (0, 0)).2 = 0) := by
  induction rs using reverseRecOn with
  | nil => exact ⟨fun _ h => (not_mem_nil h).elim, .inr ⟨rfl, rfl⟩⟩
  | append_singleton rs r ih =>
    rw [map_append, pairwise_append] at hsort
    obtain ⟨hpre, hlast⟩ := ih hsort.1
    rw [moves_append (0, 0), foldl_append]
    by_cases hsame : r.1 = (rs.foldl note (0, 0)).1
    · simpa [note, hsame] using ⟨hpre, hlast⟩
    · have hlater : ∀ t ∈ moves 0 rs, t ≤ r.2 :=
        fun t ht => hsort.2.2 t (mem_times ht) r.2 (by simp)
      simpa [note, hsame, or_imp, forall_and] using hlater

theorem sub_lt_silent {now t : Int} :
    Time.sub now t < peerSilentAfter ↔ now - t < peerSilentAfter := by
  unfold Time.sub peerSilentAfter
  omega

theorem present_iff (vars : PeerVars) (now : Time) : vars.present now = true ↔
    vars.lastRxMove ≠ 0 ∧ now - vars.lastRxMove < peerSilentAfter := by
  unfold present
  rw [Bool.and_eq_true, decide_eq_true_iff, sub_lt_silent]
  simp [Time.isZero]

/-- If the last of those times is what is noted, nothing has arrived lately exactly if none of
    them is recent. -/
theorem not_present_iff {vars : PeerVars} {now : Time} {ts : List Time}
    (hpre : ∀ t ∈ ts, t ≤ vars.lastRxMove)
    (hlast : vars.lastRxMove ∈ ts ∨ ts = [] ∧ vars.lastRxMove = 0) (hclock : ∀ t ∈ ts, 0 < t) :
    vars.present now = false ↔ ∀ t ∈ ts, ¬now - t < peerSilentAfter := by
  rw [← Bool.not_eq_true, present_iff]
  rcases hlast with hmem | ⟨rfl, hzero⟩
  · constructor
    · intro hsil t ht hlt
      refine hsil ⟨Int.ne_of_gt (hclock _ hmem), ?_⟩
      exact Int.lt_of_le_of_lt (Int.sub_le_sub_left (hpre t ht) now) hlt
    · exact fun h hpresent => h _ hmem hpresent.2
  · simp [hzero]

/-- The mode after an observation, by whether something has arrived lately. -/
theorem mode_observe (vars : PeerVars) (rxBytes : UInt64) (now : Time) :
    ((vars.observe rxBytes now).mode ≠ .connecting →
      ((vars.observe rxBytes now).mode = .offline ↔
        (vars.received rxBytes now).present now = false)) ∧
    (vars.mode = .offline → (vars.observe rxBytes now).mode ≠ .offline →
      (vars.observe rxBytes now).mode = if vars.proxy.isSome then .relay else .direct) := by
  have hkept : (vars.received rxBytes now).mode = vars.mode ∧
      (vars.received rxBytes now).proxy = vars.proxy := by
    unfold received
    split <;> exact ⟨rfl, rfl⟩
  rw [← hkept.1, ← hkept.2]
  unfold observe
  generalize vars.received rxBytes now = v
  dsimp only
  cases v.present now <;> cases hmode : v.mode <;> cases v.proxy <;> simp [hmode]

/-- Right after its counter has been read, a peer that is not being connected to is offline
    exactly if no reading of the last `PeerSilentAfter` has seen the counter move; and when it
    comes back, its mode is that of its path. -/
theorem presence_follows_counter (lib : ClientLib) (pr : PeerRef) (s : TunnelState)
    (hpr : pr.ref < s.nextRef) (hnew : noted (s.heap pr) = (0, 0)) (as : List Step)
    (rxBytes : UInt64) (now : Time) (i : TunnelInput)
    (hsort : (((as.filterMap (reading pr)) ++ [(rxBytes, now)]).map Prod.snd).Pairwise (· ≤ ·))
    (hclock : ∀ r ∈ as.filterMap (reading pr) ++ [(rxBytes, now)], 0 < r.2) :
    let s' := as.foldl (next lib) s
    let vars := s'.heap pr
    let vars' := (next lib s' (.observe pr rxBytes now, i)).heap pr
    (vars'.mode ≠ .connecting → (vars'.mode = .offline ↔
      ∀ t ∈ moves 0 (as.filterMap (reading pr) ++ [(rxBytes, now)]), ¬now - t < peerSilentAfter)) ∧
    (vars.mode = .offline → vars'.mode ≠ .offline →
      vars'.mode = if vars.proxy.isSome then .relay else .direct) := by
  intro s' vars vars'
  have hvars' : vars' = vars.observe rxBytes now := Function.update_self ..
  have hnoted : noted (vars.received rxBytes now) =
      (as.filterMap (reading pr) ++ [(rxBytes, now)]).foldl note (0, 0) := by
    rw [noted_received, noted_run hpr as, hnew, foldl_append]
    rfl
  generalize as.filterMap (reading pr) ++ [(rxBytes, now)] = rs at hsort hclock hnoted ⊢
  obtain ⟨hpre, hlast⟩ := last_move rs hsort
  rw [← hnoted] at hpre hlast
  obtain ⟨hmode, hback⟩ := mode_observe vars rxBytes now
  rw [hvars']
  refine ⟨fun hnot => (hmode hnot).trans (not_present_iff hpre hlast ?_), hback⟩
  intro t ht
  obtain ⟨r, hr, rfl⟩ := mem_map.mp (mem_times ht)
  exact hclock r hr

/-- The laptop is heard from once, and then its counter stands still. -/
theorem presence_follows_counter_laptop :
    let pr : PeerRef := ⟨0, laptopID, "laptop-key", "10.77.0.3"⟩
    let i := (onlyRegistered laptopListed).toTunnelInput
    let s := next laptopLib (next laptopLib laptopTunnel (.setMode pr .direct, i))
      (.observe pr 148 1000000000, i)
    ((next laptopLib s (.observe pr 148 76000000000, i)).heap pr).mode = .offline :=
  ((presence_follows_counter laptopLib ⟨0, laptopID, "laptop-key", "10.77.0.3"⟩ laptopTunnel
    (by decide) rfl [(.setMode _ .direct, _), (.observe _ 148 1000000000, _)] 148 76000000000 _
    (by decide) (by decide)).1 (by decide)).mpr (by decide)

end NexusVPN.Client.Presence
