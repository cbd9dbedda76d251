import NexusVPN.Client.Lifecycle

/-! # Registering before starting

    `Register` says that it installs the peers the control plane already knows about, and
    `Start` says that it installs them unless `Register` was called.  Neither does when both
    are called.

    The negotiations that `addPeer` starts can only move a peer that is already installed, so
    they are left out of a start-up. -/

namespace NexusVPN.Client

open List Prog TunnelState Proto

/-! ## What a list of peers amounts to -/

/-- The peer that the control plane lists as `d` can be installed. -/
def Installable (lib : ClientLib) (p : Peer) (d : UUID) : Prop :=
  lib.parseUUID p.deviceId = some d ∧ p.publicKey ≠ "" ∧ p.virtualIp ≠ "" ∧
    (lib.parseIP p.virtualIp).isSome

/-- What `t.peers` and the device hold. -/
structure Roster where
  peers : GoMap UUID PeerRef
  nextRef : Nat
  wg : WGDevice

def TunnelState.roster (s : TunnelState) : Roster := ⟨s.peers, s.nextRef, s.wg⟩

variable {wg₀ : WGDevice}

namespace Roster

variable (lib : ClientLib)

/-- Install `p` as `d`, unless `d` is there already. -/
def install (r : Roster) (d : UUID) (allowed : List IPRange) (p : Peer) : Roster :=
  match r.peers.lookup d with
  | some _ => r
  | none =>
    { peers := r.peers.insert d ⟨r.nextRef, d, p.publicKey, p.virtualIp⟩
      nextRef := r.nextRef + 1
      wg := (WGDevice.upsertPeer lib.decodeKey none
        ⟨p.publicKey, endpointFromProto lib p.lastKnownEndpoint, allowed, keepaliveSeconds⟩
        r.wg).2 }

/-- Install `p` if it can be installed. -/
def add (r : Roster) (p : Peer) : Roster :=
  match lib.parseUUID p.deviceId, allowedIPsFor lib p.virtualIp with
  | some d, .ok allowed => if p.publicKey = "" then r else r.install lib d allowed p
  | _, _ => r

/-- The interface has a peer for every entry of `t.peers`, and none besides those it
    had before. -/
def Backed (wg₀ : WGDevice) (r : Roster) : Prop :=
  ∀ key, (r.wg.lookup key).isSome ↔
    (wg₀.lookup key).isSome ∨
      ∃ d pr, r.peers.lookup d = some pr ∧ lib.decodeKey pr.publicKey = some key

theorem allowedIPsFor_ok_iff (virtualIP : String) :
    (∃ allowed, allowedIPsFor lib virtualIP = .ok allowed) ↔
      virtualIP ≠ "" ∧ (lib.parseIP virtualIP).isSome := by
  unfold allowedIPsFor
  by_cases hempty : virtualIP = ""
  · simp [hempty]
  · cases hip : lib.parseIP virtualIP with
    | none => simp [hempty]
    | some ip => cases hv4 : to4 ip <;> simp [hempty, hv4]

theorem add_cases (r : Roster) (p : Peer) :
    (∃ d allowed, Installable lib p d ∧ r.add lib p = r.install lib d allowed p) ∨
    ((∀ d, ¬ Installable lib p d) ∧ r.add lib p = r) := by
  unfold add
  cases hid : lib.parseUUID p.deviceId with
  | none =>
    refine .inr ⟨?_, rfl⟩
    intro d hd
    rw [hd.1] at hid
    cases hid
  | some d =>
    have hvip := allowedIPsFor_ok_iff lib p.virtualIp
    cases hall : allowedIPsFor lib p.virtualIp with
    | error e =>
      refine .inr ⟨?_, rfl⟩
      intro d' hd'
      obtain ⟨allowed, hok⟩ := hvip.mpr hd'.2.2
      rw [hok] at hall
      cases hall
    | ok allowed =>
      by_cases hkey : p.publicKey = ""
      · refine .inr ⟨fun d' hd' => hd'.2.1 hkey, ?_⟩
        exact if_pos hkey
      · exact .inl ⟨d, allowed, ⟨hid, hkey, hvip.mp ⟨allowed, hall⟩⟩, if_neg hkey⟩

variable {lib}

theorem lookup_install (r : Roster) (d : UUID) (allowed : List IPRange) (p : Peer)
    (d' : UUID) :
    ((r.install lib d allowed p).peers.lookup d').isSome ↔ (r.peers.lookup d').isSome ∨ d' = d := by
  unfold install
  cases hold : r.peers.lookup d with
  | some pr =>
    -- Known already: it is refreshed and stays.
    constructor
    · exact .inl
    · rintro (h | rfl)
      · exact h
      · simp [hold]
  | none =>
    rw [GoMap.lookup_insert_if]
    by_cases heq : d' = d <;> simp [heq]

theorem lookup_add (r : Roster) (p : Peer) (d : UUID) :
    ((r.add lib p).peers.lookup d).isSome ↔ (r.peers.lookup d).isSome ∨ Installable lib p d := by
  rcases add_cases lib r p with ⟨d', allowed, hinst, heq⟩ | ⟨hnot, heq⟩
  · rw [heq, lookup_install]
    have hd : d = d' ↔ Installable lib p d := by
      constructor
      · rintro rfl
        exact hinst
      · intro h
        exact Option.some.inj (h.1.symm.trans hinst.1)
    rw [hd]
  · rw [heq]
    exact ⟨.inl, fun h => h.resolve_right (hnot d)⟩

theorem lookup_foldl_add (ps : List Peer) (r : Roster) (d : UUID) :
    ((ps.foldl (add lib) r).peers.lookup d).isSome ↔
      (r.peers.lookup d).isSome ∨ ∃ p ∈ ps, Installable lib p d := by
  induction ps generalizing r with
  | nil => simp
  | cons p ps ih =>
    rw [foldl_cons, ih, lookup_add, or_assoc, exists_mem_cons_iff]

theorem foldl_add_of_none {ps : List Peer} (h : ∀ p ∈ ps, ∀ d, ¬ Installable lib p d)
    (r : Roster) : ps.foldl (add lib) r = r := by
  induction ps with
  | nil => rfl
  | cons p ps ih =>
    rw [foldl_cons]
    rcases add_cases lib r p with ⟨d, allowed, hinst, -⟩ | ⟨-, heq⟩
    · exact absurd hinst (h p mem_cons_self d)
    · rw [heq]
      exact ih fun q hq => h q (mem_cons_of_mem _ hq)

theorem backed_install {r : Roster} (hr : r.Backed lib wg₀) (d : UUID) (allowed : List IPRange)
    {p : Peer} {key : Bytes} (hkey : lib.decodeKey p.publicKey = some key) :
    (r.install lib d allowed p).Backed lib wg₀ := by
  unfold install
  cases hold : r.peers.lookup d with
  | some pr => exact hr
  | none =>
    intro key'
    rw [WGDevice.isSome_lookup_upsertPeer hkey, hr key']
    -- The peer that is new is the reason for the one entry that is new.
    have hpeers : (∃ d' pr, (r.peers.insert d ⟨r.nextRef, d, p.publicKey, p.virtualIp⟩).lookup d' =
        some pr ∧ lib.decodeKey pr.publicKey = some key') ↔
          key' = key ∨
            ∃ d' pr, r.peers.lookup d' = some pr ∧ lib.decodeKey pr.publicKey = some key' := by
      constructor
      · rintro ⟨d', pr, hpr, hdec⟩
        rw [GoMap.lookup_insert_if] at hpr
        split at hpr
        · cases hpr
          exact .inl (Option.some.inj (hdec.symm.trans hkey))
        · exact .inr ⟨d', pr, hpr, hdec⟩
      · rintro (rfl | ⟨d', pr, hpr, hdec⟩)
        · exact ⟨d, _, AList.lookup_insert _, hkey⟩
        · have hne : d' ≠ d := by
            rintro rfl
            rw [hold] at hpr
            cases hpr
          exact ⟨d', pr, by rw [AList.lookup_insert_ne hne]; exact hpr, hdec⟩
    rw [hpeers, or_left_comm]

theorem backed_foldl_add {ps : List Peer}
    (hkeys : ∀ p ∈ ps, ∀ d, Installable lib p d → (lib.decodeKey p.publicKey).isSome) {r : Roster}
    (hr : r.Backed lib wg₀) : (ps.foldl (add lib) r).Backed lib wg₀ := by
  induction ps generalizing r with
  | nil => exact hr
  | cons p ps ih =>
    apply ih fun q hq => hkeys q (mem_cons_of_mem _ hq)
    rcases add_cases lib r p with ⟨d, allowed, hinst, heq⟩ | ⟨-, heq⟩
    · obtain ⟨key, hkey⟩ := Option.isSome_iff_exists.mp (hkeys p mem_cons_self d hinst)
      rw [heq]
      exact backed_install hr d allowed hkey
    · rw [heq]
      exact hr

end Roster

/-! ## The programs do just that -/

/-- The world during a start-up: the control plane answers with `resp`, and WireGuard
    takes what it is given. -/
structure Cooperating (resp : RegisterDeviceResponse) extends TunnelInput where
  registered : env .registerDevice = some resp
  accepted : fault = none

/-- The steps of the tunnel in such a world. -/
def cooperating (lib : ClientLib) (resp : RegisterDeviceResponse) :
    Handler tunnelIface TunnelState (Cooperating resp) :=
  fun c i s => handler lib c i.toTunnelInput s

open Roster

section

variable (lib : ClientLib) (cfg : TunnelConfig) (resp : RegisterDeviceResponse)

theorem wp_installPeer (d : UUID) (allowed : List IPRange) (p : Peer) (s : TunnelState) :
    wp (cooperating lib resp) (installPeer lib d allowed p)
      (fun _ s' => s'.roster = s.roster.install lib d allowed p) s := by
  unfold installPeer
  rw [ask_bind, wp_call]
  intro i
  simp only [cooperating, handler, insertPeer, install, roster]
  cases hold : s.peers.lookup d with
  | some pr =>
    intro i'
    rfl
  | none =>
    dsimp only
    rw [ask_bind, wp_call]
    intro i'
    simp only [cooperating, handler, setVars, i'.accepted]
    split
    · rfl
    · intro i''
      rfl

theorem wp_addPeer (p : Peer) (s : TunnelState) :
    wp (cooperating lib resp) (addPeer lib p) (fun _ s' => s'.roster = s.roster.add lib p) s := by
  unfold addPeer add
  cases lib.parseUUID p.deviceId with
  | none => rfl
  | some d =>
    cases allowedIPsFor lib p.virtualIp with
    | error e => by_cases hkey : p.publicKey = "" <;> simp [hkey]
    | ok allowed =>
      by_cases hkey : p.publicKey = ""
      · simp [hkey]
      · simp only [hkey, if_false]
        exact wp_installPeer lib resp d allowed p s

theorem wp_addPeers (ps : List Peer) (s : TunnelState) :
    wp (cooperating lib resp) (addPeers lib ps)
      (fun _ s' => s'.roster = ps.foldl (add lib) s.roster) s := by
  induction ps generalizing s with
  | nil => rfl
  | cons p ps ih =>
    unfold addPeers
    rw [wp_bind]
    refine wp_mono ?_ (wp_addPeer lib resp p s)
    intro _ s' hs'
    rw [foldl_cons, ← hs']
    exact ih s'

theorem wp_register (s : TunnelState) :
    wp (cooperating lib resp) register
      (fun r s' => r = .ok resp ∧ s'.roster = s.roster ∧ s'.deviceID = resp.deviceId ∧
        s'.started = s.started) s := by
  unfold register
  rw [ask_bind, wp_call]
  intro i
  simp only [cooperating, handler, i.registered]
  intro i'
  exact ⟨rfl, rfl, rfl, rfl⟩

theorem wp_runDiscovery (s : TunnelState) :
    wp (cooperating lib resp) (runDiscovery cfg) (fun _ s' => s'.roster = s.roster) s := by
  unfold runDiscovery
  split
  · rw [ask_bind, wp_call]
    intro i
    split
    · rfl
    · intro i'
      rfl
  · rfl

theorem wp_bringUp (ps : List Peer) (s : TunnelState) :
    wp (cooperating lib resp) (bringUp lib cfg ps)
      (fun _ s' => s'.roster = ps.foldl (add lib) s.roster) s := by
  unfold bringUp
  rw [wp_bind]
  refine wp_mono ?_ (wp_runDiscovery lib cfg resp s)
  intro _ s' hs'
  rw [wp_bind, ← hs']
  exact wp_addPeers lib resp ps s'

variable {s : TunnelState}

/-- `Start` adds the peers that the answer lists, unless `Register` was called before. -/
theorem wp_start (hs : s.started = false) :
    wp (cooperating lib resp) (start lib cfg)
      (fun _ s' => s'.roster = if s.deviceID = "" then
        resp.existingPeers.foldl (add lib) s.roster else s.roster) s := by
  unfold start
  rw [ask_bind, wp_call]
  intro i
  simp only [cooperating, handler, hs]
  by_cases hid : s.deviceID = ""
  · -- It registers itself, and adds what the response lists.
    simp only [hid, ne_eq, not_true_eq_false, decide_false, Bool.false_eq_true, if_false, if_true]
    rw [wp_bind]
    refine wp_mono ?_ (wp_register lib resp _)
    rintro r s' ⟨rfl, hroster, -, -⟩
    refine wp_mono ?_ (wp_bringUp lib cfg resp resp.existingPeers s')
    intro _ s'' hs''
    rw [hs'', hroster]
    rfl
  · -- It takes itself for registered, and has no list to add from.
    simp only [hid, ne_eq, not_false_eq_true, decide_true, Bool.false_eq_true, if_false, if_true]
    refine wp_mono ?_ (wp_bringUp lib cfg resp [] _)
    intro _ s' hs'
    exact hs'

theorem wp_registerThenStart (hs : s.started = false) :
    wp (cooperating lib resp) (registerThenStart lib cfg)
      (fun _ s' => s'.roster = if resp.deviceId = "" then
        resp.existingPeers.foldl (add lib) s.roster else s.roster) s := by
  unfold registerThenStart
  rw [wp_bind]
  refine wp_mono ?_ (wp_register lib resp s)
  rintro r s' ⟨rfl, hroster, hid, hstarted⟩
  -- `Register` has stored the id, and that is what `Start` goes by.
  have hstart := wp_start lib cfg resp (hstarted.trans hs)
  rw [hid, hroster] at hstart
  exact hstart

/-! ## When the two ways to start agree -/

/-- `t.peers` and the interface hold the same peers in both. -/
def SamePeers (s s' : TunnelState) : Prop :=
  (∀ d, (s.peers.lookup d).map (fun pr => (pr.publicKey, pr.virtualIP)) =
    (s'.peers.lookup d).map fun pr => (pr.publicKey, pr.virtualIP)) ∧
  ∀ key, s.wg.lookup key = s'.wg.lookup key

/-- `t.peers` holds the listed peers that can be installed, and the interface holds
    those, besides what it held before. -/
def HoldsListed (lib : ClientLib) (wg₀ : WGDevice) (resp : RegisterDeviceResponse)
    (s : TunnelState) : Prop :=
  (∀ d, (s.peers.lookup d).isSome ↔ ∃ p ∈ resp.existingPeers, Installable lib p d) ∧
  s.roster.Backed lib wg₀

omit lib cfg resp in
theorem samePeers_of_roster {s' : TunnelState} (h : s.roster = s'.roster) : SamePeers s s' := by
  have hpeers : s.peers = s'.peers := congrArg Roster.peers h
  have hwg : s.wg = s'.wg := congrArg Roster.wg h
  rw [SamePeers, hpeers, hwg]
  exact ⟨fun _ => rfl, fun _ => rfl⟩

theorem holdsListed_of_roster {networkID region : String}
    (hkeys : ∀ p ∈ resp.existingPeers, ∀ d, Installable lib p d →
      (lib.decodeKey p.publicKey).isSome)
    (h : s.roster = resp.existingPeers.foldl (add lib)
      (new networkID region wg₀).roster) : HoldsListed lib wg₀ resp s := by
  constructor
  · intro d
    have hnew : ((new networkID region wg₀).roster.peers.lookup d).isSome = false := rfl
    show (s.roster.peers.lookup d).isSome ↔ _
    rw [h, lookup_foldl_add, hnew]
    simp
  · rw [h]
    refine backed_foldl_add hkeys ?_
    intro key
    simp [roster, new]

/-- Whatever the world does besides, `Register` and then `Start` leave the same peers
    as `Start` alone, the listed ones, exactly if the response names no device, so that
    `Start` registers once more, or lists no peer that could be installed. -/
theorem register_then_start_installs_iff (networkID region : String) (wg₀ : WGDevice)
    (hkeys : ∀ p ∈ resp.existingPeers, ∀ d, Installable lib p d →
      (lib.decodeKey p.publicKey).isSome)
    (w w' : Nat → Cooperating resp) :
    let s := ((start lib cfg).exec (cooperating lib resp) w (.new networkID region wg₀)).2
    let s' := ((registerThenStart lib cfg).exec (cooperating lib resp) w'
      (.new networkID region wg₀)).2
    SamePeers s s' ∧ HoldsListed lib wg₀ resp s' ↔
      resp.deviceId = "" ∨ ∀ p ∈ resp.existingPeers, ∀ d, ¬ Installable lib p d := by
  intro s s'
  have hnew : (new networkID region wg₀).started = false := rfl
  have hs : s.roster = resp.existingPeers.foldl (add lib)
      (new networkID region wg₀).roster := wp_exec (wp_start lib cfg resp hnew) w
  have hs' : s'.roster = _ := wp_exec (wp_registerThenStart lib cfg resp hnew) w'
  constructor
  · rintro ⟨-, hlist, -⟩
    by_cases hid : resp.deviceId = ""
    · exact .inl hid
    · -- The device has been registered, and there was nothing to install.
      rw [if_neg hid] at hs'
      refine .inr ?_
      intro p hp d hd
      have hnone : s'.peers.lookup d = none := by
        show s'.roster.peers.lookup d = none
        rw [hs']
        rfl
      have hsome := (hlist d).mpr ⟨p, hp, hd⟩
      rw [hnone] at hsome
      cases hsome
  · intro hcond
    have hboth : s'.roster = resp.existingPeers.foldl (add lib)
        (new networkID region wg₀).roster := by
      rw [hs']
      split
      · rfl
      · next hid => rw [foldl_add_of_none (hcond.resolve_left hid)]
    exact ⟨samePeers_of_roster (hs.trans hboth.symm), holdsListed_of_roster lib resp hkeys hboth⟩

end

/-- A laptop that is listed with a key and an address. -/
def laptop : Peer :=
  ⟨"laptop-id", "laptop", "laptop-key", "10.77.0.3", none, .unspecified, true, none, "linux", false⟩

def laptopID : UUID := .ofBytes [3]

/-- Libraries that know just the laptop. -/
def laptopLib : ClientLib where
  parseUUID s := if s = "laptop-id" then some laptopID else none
  parseIP s := if s = "10.77.0.3" then some [10, 77, 0, 3] else none
  addrString _ := ""
  ipString _ := ""
  decodeKey s := if s = "laptop-key" then some [3] else none

def laptopListed : RegisterDeviceResponse := ⟨"own-id", "10.77.0.2", "10.77.0.0/24", [], [laptop]⟩

/-- A start-up during which only the registration is answered. -/
def onlyRegistered (resp : RegisterDeviceResponse) : Cooperating resp where
  now := 0
  order := .asStored
  env
    | .registerDevice => some resp
    | c => c.unanswered
  fault := none
  loopback := none
  registered := rfl
  accepted := rfl

/-- Nothing that needs a router, a prober or a STUN server. -/
def plainConfig : TunnelConfig := ⟨false, false, false, false, 0, 0⟩

/-- A tunnel that has been told of the laptop. -/
def laptopTunnel : TunnelState :=
  ((addPeer laptopLib laptop).exec (handler laptopLib)
    (fun _ => (onlyRegistered laptopListed).toTunnelInput) (.new "home" "" ∅)).2

/-- Libraries that know the laptop, and an address on the internet. -/
def internetLib : ClientLib :=
  { laptopLib with
    parseIP := fun text => if text = "203.0.113.5" then some [203, 0, 113, 5]
      else laptopLib.parseIP text }

/-- A tunnel whose one peer, the laptop, can be reached at that address. -/
def reachableTunnel : TunnelState :=
  ((addPeer internetLib
      { laptop with lastKnownEndpoint := some ⟨"203.0.113.5", 51820, "udp"⟩ }).exec
    (handler internetLib) (fun _ => (onlyRegistered laptopListed).toTunnelInput)
    (.new "home" "" ∅)).2

theorem laptop_key_decodes : ∀ p ∈ laptopListed.existingPeers, ∀ d, Installable laptopLib p d →
    (laptopLib.decodeKey p.publicKey).isSome := by
  intro p hp d _
  rw [mem_singleton.mp hp]
  rfl

/-- The program run from a new tunnel, with the laptop listed. -/
def onceListed {α : Type} (p : TunnelM α) : TunnelState :=
  (p.exec (cooperating laptopLib laptopListed) (fun _ => onlyRegistered laptopListed)
    (.new "home" "" ∅)).2

theorem register_then_start_installs_iff_laptop :
    (∀ p ∈ laptopListed.existingPeers, ∀ d, Installable laptopLib p d →
      (laptopLib.decodeKey p.publicKey).isSome) ∧
    let s := onceListed (start laptopLib plainConfig)
    let s' := onceListed (registerThenStart laptopLib plainConfig)
    SamePeers s s' ∧ HoldsListed laptopLib ∅ laptopListed s' ↔
      laptopListed.deviceId = "" ∨
        ∀ p ∈ laptopListed.existingPeers, ∀ d, ¬ Installable laptopLib p d :=
  ⟨laptop_key_decodes, register_then_start_installs_iff laptopLib plainConfig laptopListed "home" ""
    ∅ laptop_key_decodes _ _⟩

/-- `Start` alone installs the laptop; `Register` and then `Start` do not. -/
theorem register_then_start_loses_laptop :
    let s := onceListed (start laptopLib plainConfig)
    let s' := onceListed (registerThenStart laptopLib plainConfig)
    ((s.peers.lookup laptopID).isSome ∧ (s.wg.lookup [3]).isSome) ∧
      s'.peers.lookup laptopID = none ∧ s'.wg.lookup [3] = none ∧
      ¬ SamePeers s s' ∧ ¬ HoldsListed laptopLib ∅ laptopListed s' := by
  intro s s'
  have hs : (s.peers.lookup laptopID).isSome = true := rfl
  have hs' : s'.peers.lookup laptopID = none := rfl
  refine ⟨⟨hs, rfl⟩, hs', rfl, ?_, ?_⟩
  · intro hsame
    have hlaptop := hsame.1 laptopID
    rw [hs', Option.map_none, Option.map_eq_none_iff] at hlaptop
    rw [hlaptop] at hs
    cases hs
  · intro hlist
    have hinst : Installable laptopLib laptop laptopID := ⟨rfl, by decide, by decide, rfl⟩
    have hlaptop := (hlist.1 laptopID).mpr ⟨laptop, mem_singleton_self _, hinst⟩
    rw [hs'] at hlaptop
    cases hlaptop

end NexusVPN.Client
