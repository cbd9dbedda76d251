import Mathlib.Data.List.TakeWhile
import NexusVPN.Client.ExitLogic

/-! # The Linux router

    `client/internal/netroute/netroute_linux.go`: the operations of `netroute.Router` as
    sequences of `ip route` commands, and the kernel's routing table under them.  The kernel
    may keep several routes of one destination that differ in their metric; the table here
    has one, the one that is used. -/

namespace NexusVPN.Client

open List Prog Option

/-! ## Routing tables -/

/-- Where packets of a destination go: through a gateway, or straight out of an interface. -/
structure Route where
  via : Option Bytes
  dev : String

/-- The routes, by destination. -/
abbrev Routes := GoMap IPRange Route

/-- An `ip route` command. -/
inductive IpCommand where
  | replace (dest : IPRange) (via : Option Bytes) (dev : String)
  | del (dest : IPRange) (dev : Option String)

/-- How a command ends. -/
inductive IpOutcome where
  | ok
  /-- What `isNoSuchProcess` recognises: there is no such route. -/
  | noSuchProcess
  | failed
deriving DecidableEq

@[reducible] def ipIface : Iface where
  Call := IpCommand
  Ans _ := IpOutcome

namespace Routes

/-- The route that `del` deletes is there. -/
def holds (t : Routes) (dest : IPRange) (dev : Option String) : Bool :=
  match t.lookup dest with
  | none => false
  | some route => dev.all (· == route.dev)

/-- What a command does; the input says which commands fail, without an effect. -/
def handler : Handler ipIface Routes (IpCommand → Bool)
  | .replace dest via dev, fails, t =>
    if fails (.replace dest via dev) then (.failed, t) else (.ok, t.insert dest ⟨via, dev⟩)
  | .del dest dev, fails, t =>
    if fails (.del dest dev) then (.failed, t)
    else if t.holds dest dev then (.ok, t.erase dest)
    else (.noSuchProcess, t)

/-- `parseLinuxDefault` of what `ip -4 route show default` prints. -/
def snapshot (t : Routes) : Option DefaultRoute :=
  match t.lookup ⟨[0, 0, 0, 0], 0⟩ with
  | some ⟨some gateway, dev⟩ => if dev = "" then none else some ⟨some gateway, dev⟩
  | _ => none

end Routes

/-! ## The router -/

abbrev RouterM := Prog ipIface

abbrev IpCommand.run (c : IpCommand) : RouterM IpOutcome := Prog.ask (I := ipIface) c

def hostPrefix (ip : Bytes) : IPRange :=
  match to4 ip with
  | some v4 => ⟨v4, 32⟩
  | none => ⟨ip, 128⟩

open IpCommand

def pinEndpoint (ip : Bytes) (via : DefaultRoute) : RouterM Bool :=
  match via.gateway with
  | none => return false
  | some gateway => do
    if via.interface = "" then return false
    else return (← run (.replace (hostPrefix ip) (some gateway) via.interface)) == .ok

/-- `UnpinEndpoint`: a pin that is already gone is the state we wanted. -/
def unpinEndpoint (ip : Bytes) : RouterM Bool := do
  return (← run (.del (hostPrefix ip) none)) != .failed

def splitDefault : List IPRange := [⟨[0, 0, 0, 0], 1⟩, ⟨[128, 0, 0, 0], 1⟩]

def splitDefaultV6 : List IPRange := [⟨List.replicate 16 0, 1⟩, ⟨128 :: List.replicate 15 0, 1⟩]

/-- `strings.Contains(prefix, ":")`. -/
def isV6 (r : IPRange) : Bool := r.ip.length == 16

/-- The loop of `CaptureDefault`. -/
def captureLoop (iface : String) : List IPRange → RouterM Bool
  | [] => return true
  | dest :: dests => do
    -- A host with IPv6 disabled cannot take the v6 half, and that is not a failure.
    if (← run (.replace dest none iface)) == .ok || isV6 dest then captureLoop iface dests
    else return false

def captureDefault (iface : String) : RouterM Bool :=
  captureLoop iface (splitDefault ++ splitDefaultV6)

/-- The loop of `ReleaseDefault`; `ok` until the first error. -/
def releaseLoop (iface : String) : List IPRange → Bool → RouterM Bool
  | [], ok => return ok
  | dest :: dests, ok => do
    if (← run (.del dest (some iface))) != .failed || isV6 dest then
      releaseLoop iface dests ok
    else releaseLoop iface dests false

def releaseDefault (iface : String) : RouterM Bool :=
  releaseLoop iface (splitDefault ++ splitDefaultV6) true

/-! ## The tunnel on a Linux host -/

/-- What goes wrong while exit-node mode is set up: reading the default route, widening
    the peer, or installing the route of a destination.  Undoing never fails. -/
structure SetupFaults where
  snapshot : Bool
  widen : Option String
  replace : IPRange → Bool

namespace SetupFaults

/-- Everything succeeds. -/
def none : SetupFaults := ⟨false, .none, fun _ => false⟩

variable (F : SetupFaults)

def fails : IpCommand → Bool
  | .replace dest _ _ => F.replace dest
  | .del _ _ => false

/-- What WireGuard complains about in a step. -/
def faultOf : TunnelCall → Option String
  | .upsertPeer p => if p.allowedIPs = exitAllowedIPs then F.widen else .none
  | _ => .none

end SetupFaults

open Routes

namespace Linux

/-- The answers of a Linux host whose tunnel is the interface `iface`. -/
def env (iface : String) (F : SetupFaults) :
    (c : EnvCall) → TunnelInput → Routes → c.Result × Routes
  | .snapshotRoutes, _, t => (if F.snapshot then none else t.snapshot, t)
  | .pinEndpoint ip prior, _, t => (pinEndpoint ip prior).exec handler (fun _ => F.fails) t
  | .unpinEndpoint ip, _, t => (unpinEndpoint ip).exec handler (fun _ => F.fails) t
  | .captureDefault, _, t => (Client.captureDefault iface).exec handler (fun _ => F.fails) t
  | .releaseDefault, _, t => (Client.releaseDefault iface).exec handler (fun _ => F.fails) t
  | c, i, t => (i.env c, t)

/-- The tunnel on a Linux host. -/
abbrev handler (lib : ClientLib) (iface : String) (F : SetupFaults) :
    Handler tunnelIface (Sited Routes) TunnelInput :=
  sited lib (env iface F) fun c i => { i with fault := F.faultOf c }

/-- The same, when what is read from outside does not change. -/
abbrev fixed (lib : ClientLib) (iface : String) (F : SetupFaults) (i : TunnelInput) :
    Handler tunnelIface (Sited Routes) Unit :=
  sited lib (fun c _ => env iface F c i) fun c _ => { i with fault := F.faultOf c }

end Linux

/-! ## What becomes of the table -/

section

variable {iface : String} {F : SetupFaults}

theorem hostPrefix_bits_ne_one (ip : Bytes) : (hostPrefix ip).bits ≠ 1 := by
  unfold hostPrefix
  split <;> simp

theorem length_of_to4 {ip v4 : Bytes} (h : to4 ip = some v4) : v4.length = 4 := by
  unfold to4 at h
  split at h
  · next hlen => exact some.inj h ▸ hlen
  · split at h
    · next hlen =>
      rw [← some.inj h, length_drop, hlen.1]
    · cases h

theorem hostPrefix_eq_of_unmap_eq {a b : Bytes} (h : unmap a = unmap b) :
    hostPrefix a = hostPrefix b := by
  -- A short address is its own short form, so only addresses of one kind can agree.
  have hself : ∀ v4 : Bytes, v4.length = 4 → to4 v4 = some v4 := fun v4 hv4 => if_pos hv4
  unfold unmap at h
  unfold hostPrefix
  cases ha : to4 a with
  | some v4 =>
    rw [ha, getD_some] at h
    cases hb : to4 b with
    | some w4 =>
      rw [hb, getD_some] at h
      rw [h]
    | none =>
      rw [hb, getD_none] at h
      rw [← h, hself v4 (length_of_to4 ha)] at hb
      cases hb
  | none =>
    rw [ha, getD_none] at h
    cases hb : to4 b with
    | some w4 =>
      rw [hb, getD_some] at h
      rw [h, hself w4 (length_of_to4 hb)] at ha
      cases ha
    | none =>
      rw [hb, getD_none] at h
      rw [h]

variable {prior : DefaultRoute}

theorem snapshot_usable {t : Routes} (h : t.snapshot = some prior) :
    ∃ gateway, prior.gateway = some gateway ∧ prior.interface ≠ "" := by
  unfold snapshot at h
  split at h
  · next gateway dev _ =>
    split at h
    · cases h
    · next hdev =>
      cases h
      exact ⟨gateway, rfl, hdev⟩
  · cases h

section

variable {dest : IPRange} {t : Routes}

theorem replace_failed (h : F.replace dest = true) (via : Option Bytes) (dev : String) :
    handler (.replace dest via dev) F.fails t = (.failed, t) := if_pos h

theorem replace_ok (h : F.replace dest = false) (via : Option Bytes) (dev : String) :
    handler (.replace dest via dev) F.fails t = (.ok, t.insert dest ⟨via, dev⟩) :=
  if_neg (Bool.eq_false_iff.mp h)

theorem del_found {dev : Option String} (h : t.holds dest dev = true) :
    handler (.del dest dev) F.fails t = (.ok, t.erase dest) := if_pos h

theorem del_missing {dev : Option String} (h : t.holds dest dev = false) :
    handler (.del dest dev) F.fails t = (.noSuchProcess, t) :=
  if_neg (Bool.eq_false_iff.mp h)

end

theorem pinEndpoint_env {gateway : Bytes} (hgw : prior.gateway = some gateway)
    (hdev : prior.interface ≠ "") (ip : Bytes) (i : TunnelInput) (t : Routes) :
    Linux.env iface F (.pinEndpoint ip prior) i t =
      if F.replace (hostPrefix ip) then (false, t)
      else (true, t.insert (hostPrefix ip) ⟨some gateway, prior.interface⟩) := by
  show (pinEndpoint ip prior).exec handler (fun _ => F.fails) t = _
  simp only [pinEndpoint, hgw, if_neg hdev]
  show ((handler (.replace (hostPrefix ip) (some gateway) prior.interface) F.fails t).1 ==
    IpOutcome.ok, (handler (.replace (hostPrefix ip) (some gateway) prior.interface)
      F.fails t).2) = _
  cases hfail : F.replace (hostPrefix ip) with
  | true =>
    rw [replace_failed hfail]
    rfl
  | false =>
    rw [replace_ok hfail]
    rfl

theorem lookup_unpinEndpoint (ip : Bytes) (i : TunnelInput) (t : Routes) (dest : IPRange) :
    (Linux.env iface F (.unpinEndpoint ip) i t).2.lookup dest =
      if dest = hostPrefix ip then none else t.lookup dest := by
  show (handler (.del (hostPrefix ip) none) F.fails t).2.lookup dest = _
  cases hold : t.lookup (hostPrefix ip) with
  | none =>
    rw [del_missing (by simp [holds, hold])]
    by_cases hdest : dest = hostPrefix ip
    · rw [if_pos hdest, hdest, hold]
    · rw [if_neg hdest]
  | some route =>
    rw [del_found (by simp [holds, hold])]
    exact GoMap.lookup_erase_if _ _ _

/-- What the four `ip route replace` commands of `CaptureDefault` leave in the table. -/
def Routes.captured (F : SetupFaults) (iface : String) (t : Routes) : Routes :=
  (splitDefault ++ splitDefaultV6).foldl (fun t dest =>
    if F.replace dest then t else t.insert dest ⟨none, iface⟩) t

theorem lookup_captured (t : Routes) (dest : IPRange) :
    (t.captured F iface).lookup dest =
      if dest ∈ splitDefault ++ splitDefaultV6 ∧ F.replace dest = false then some ⟨none, iface⟩
      else t.lookup dest := by
  unfold captured
  generalize splitDefault ++ splitDefaultV6 = dests
  induction dests generalizing t with
  | nil => simp
  | cons d dests ih =>
    rw [foldl_cons, ih]
    -- A later half of the default route may be the same destination.
    by_cases hlater : dest ∈ dests ∧ F.replace dest = false
    · rw [if_pos hlater, if_pos ⟨mem_cons_of_mem _ hlater.1, hlater.2⟩]
    · rw [if_neg hlater]
      by_cases hnow : dest = d
      · subst hnow
        cases hfail : F.replace dest with
        | true | false => simp
      · have hiff : (dest ∈ d :: dests ∧ F.replace dest = false) ↔
            (dest ∈ dests ∧ F.replace dest = false) := by
          simp [hnow]
        rw [if_neg (fun h => hlater (hiff.mp h))]
        cases F.replace d with
        | true => rfl
        | false => exact AList.lookup_insert_ne hnow

/-- The lower and the upper half of the IPv4 addresses. -/
def lowHalf : IPRange := ⟨[0, 0, 0, 0], 1⟩

@[inherit_doc lowHalf]
def highHalf : IPRange := ⟨[128, 0, 0, 0], 1⟩

theorem exec_captureLoop_cons (d : IPRange) (dests : List IPRange) (t : Routes) :
    (captureLoop iface (d :: dests)).exec handler (fun _ => F.fails) t =
      if F.replace d then
        if isV6 d then (captureLoop iface dests).exec handler (fun _ => F.fails) t
        else (false, t)
      else (captureLoop iface dests).exec handler (fun _ => F.fails)
        (t.insert d ⟨none, iface⟩) := by
  show (if (handler (.replace d none iface) F.fails t).1 == IpOutcome.ok || isV6 d
    then captureLoop iface dests else pure false).exec handler (fun _ => F.fails)
      (handler (.replace d none iface) F.fails t).2 = _
  cases hfail : F.replace d with
  | true =>
    rw [replace_failed hfail]
    cases isV6 d <;> rfl
  | false =>
    rw [replace_ok hfail]
    rfl

/-- Capturing gives up at the first IPv4 route that cannot be installed, and leaves the
    routes before it where they are. -/
theorem captureDefault_env (i : TunnelInput) (t : Routes) :
    Linux.env iface F .captureDefault i t =
      if F.replace lowHalf then (false, t)
      else if F.replace highHalf then (false, t.insert lowHalf ⟨none, iface⟩)
      else (true, t.captured F iface) := by
  have hsplit : splitDefault ++ splitDefaultV6 =
      [lowHalf, highHalf, ⟨List.replicate 16 0, 1⟩, ⟨128 :: List.replicate 15 0, 1⟩] := rfl
  have hv6 : isV6 lowHalf = false ∧ isV6 highHalf = false ∧
      isV6 ⟨List.replicate 16 0, 1⟩ = true ∧ isV6 ⟨128 :: List.replicate 15 0, 1⟩ = true := by
    decide
  show (captureLoop iface (splitDefault ++ splitDefaultV6)).exec handler (fun _ => F.fails) t = _
  unfold captured
  rw [hsplit]
  simp only [exec_captureLoop_cons, hv6, foldl_cons, foldl_nil]
  cases hlow : F.replace lowHalf with
  | true => rfl
  | false =>
    cases hhigh : F.replace highHalf with
    | true => rfl
    | false =>
      cases F.replace ⟨List.replicate 16 0, 1⟩ <;>
        cases F.replace ⟨128 :: List.replicate 15 0, 1⟩ <;> rfl

theorem holds_congr {t t' : Routes} {dest : IPRange} (h : t.lookup dest = t'.lookup dest)
    (dev : Option String) : t.holds dest dev = t'.holds dest dev := by
  unfold holds
  rw [h]

/-- Releasing removes the halves that point into the tunnel. -/
theorem lookup_releaseDefault (i : TunnelInput) (t : Routes) (dest : IPRange) :
    (Linux.env iface F .releaseDefault i t).2.lookup dest =
      if dest ∈ splitDefault ++ splitDefaultV6 ∧ t.holds dest (some iface) = true then none
      else t.lookup dest := by
  show ((releaseDefault iface).exec handler (fun _ => F.fails) t).2.lookup dest = _
  unfold releaseDefault
  generalize splitDefault ++ splitDefaultV6 = dests
  induction dests generalizing t with
  | nil => simp [releaseLoop, exec]
  | cons d dests ih =>
    -- One round deletes the route if it is there, and goes on in either case.
    have hround : ((releaseLoop iface (d :: dests) true).exec handler
        (fun _ => F.fails) t).2 = ((releaseLoop iface dests true).exec handler
        (fun _ => F.fails) (if t.holds d (some iface) then t.erase d else t)).2 := by
      show ((if (handler (.del d (some iface)) F.fails t).1 != IpOutcome.failed || isV6 d
        then releaseLoop iface dests true else releaseLoop iface dests false).exec handler
          (fun _ => F.fails) (handler (.del d (some iface)) F.fails t).2).2 = _
      cases hholds : t.holds d (some iface) with
      | true =>
        rw [del_found hholds]
        rfl
      | false =>
        rw [del_missing hholds]
        rfl
    rw [hround, ih]
    by_cases hd : dest = d
    · subst hd
      cases hholds : t.holds dest (some iface) with
      | true => simp [holds]
      | false => simp [hholds]
    · have hsame : (if t.holds d (some iface) then t.erase d else t).lookup dest =
          t.lookup dest := by
        cases t.holds d (some iface) with
        | true => exact AList.lookup_erase_ne hd
        | false => rfl
      rw [hsame, holds_congr hsame]
      simp [hd]

theorem wp_unpinAll_linux {lib : ClientLib} {Q : Unit → Sited Routes → Prop} {ι : Type}
    {input : TunnelCall → ι → TunnelInput} {answer : ι → TunnelInput} (ips : List Bytes)
    {s : Sited Routes}
    (hQ : ∀ t : Routes, (∀ dest, t.lookup dest =
      if dest ∈ ips.map hostPrefix then none else s.host.lookup dest) →
      Q () { s with host := t }) :
    wp (sited lib (fun c i => Linux.env iface F c (answer i)) input) (unpinAll ips) Q s := by
  -- Once the addresses still to do are gone as well, the table is as it should be.
  refine wp_unpinAll (J := fun todo t => ∀ dest,
    (if dest ∈ todo.map hostPrefix then none else t.lookup dest) =
      if dest ∈ ips.map hostPrefix then none else s.host.lookup dest) ?_ ?_ fun _ => rfl
  · intro ip todo t i hJ dest
    rw [← hJ dest, lookup_unpinEndpoint, map_cons]
    by_cases hdest : dest = hostPrefix ip
    · simp [hdest]
    · simp [hdest]
  · intro t hJ
    exact hQ t fun dest => by simpa using hJ dest

theorem wp_pinAll_linux {lib : ClientLib} {ι : Type} {input : TunnelCall → ι → TunnelInput}
    {answer : ι → TunnelInput} {gateway : Bytes} (hgw : prior.gateway = some gateway)
    (hdev : prior.interface ≠ "") (ips : List Bytes) {s : Sited Routes}
    {Q : Option Bytes × List Bytes → Sited Routes → Prop} (hQ : ∀ failed (t : Routes),
      (failed = none ↔ ips.takeWhile (fun ip => !F.replace (hostPrefix ip)) = ips) →
      (∀ dest, dest ∉ (ips.takeWhile fun ip => !F.replace (hostPrefix ip)).map hostPrefix →
        t.lookup dest = s.host.lookup dest) →
      Q (failed, ips.takeWhile fun ip => !F.replace (hostPrefix ip)) { s with host := t }) :
    wp (sited lib (fun c i => Linux.env iface F c (answer i)) input) (pinAll prior ips []) Q s := by
  refine wp_pinAll (J := fun todo pinned t => pinned ++ todo = ips ∧
    (∀ ip ∈ pinned, F.replace (hostPrefix ip) = false) ∧
    ∀ dest, dest ∉ pinned.map hostPrefix → t.lookup dest = s.host.lookup dest) ?_ ?_ ?_ ?_
  · rintro ip todo pinned t i ⟨hips, hfine, htable⟩ hok
    rw [pinEndpoint_env hgw hdev] at hok ⊢
    cases hfail : F.replace (hostPrefix ip) with
    | true => simp [hfail] at hok
    | false =>
      refine ⟨by simpa using hips, ?_, ?_⟩
      · intro ip' hip'
        rcases mem_append.mp hip' with hold | hnew
        · exact hfine ip' hold
        · rw [mem_singleton.mp hnew, hfail]
      · intro dest hdest
        rw [map_append, mem_append, not_or] at hdest
        have hne : dest ≠ hostPrefix ip := by simpa using hdest.2
        rw [if_neg (by simp)]
        rw [AList.lookup_insert_ne hne]
        exact htable dest hdest.1
  · rintro ip todo pinned t i ⟨hips, hfine, htable⟩ hbad
    rw [pinEndpoint_env hgw hdev] at hbad ⊢
    cases hfail : F.replace (hostPrefix ip) with
    | false => simp [hfail] at hbad
    | true =>
      -- The addresses pinned so far are exactly those before the first failure.
      have hmade : ips.takeWhile (fun ip => !F.replace (hostPrefix ip)) = pinned := by
        rw [← hips, takeWhile_append_of_pos (by simpa using hfine), takeWhile_cons]
        simp [hfail]
      have hshort : pinned ≠ ips := by
        intro heq
        have hlen := congrArg List.length hips
        rw [length_append, length_cons, heq] at hlen
        omega
      have hgoal := hQ (some ip) t (by simp [hmade, hshort]) (by rw [hmade]; exact htable)
      rw [hmade] at hgoal
      exact hgoal
  · rintro pinned t ⟨hips, hfine, htable⟩
    rw [append_nil] at hips
    subst hips
    have hall : pinned.takeWhile (fun ip => !F.replace (hostPrefix ip)) = pinned :=
      takeWhile_eq_self_iff.mpr (by simpa using hfine)
    have hgoal := hQ none t (by simp [hall]) (by rw [hall]; exact htable)
    rw [hall] at hgoal
    exact hgoal
  · exact ⟨rfl, fun _ h => (not_mem_nil h).elim, fun _ _ => rfl⟩

end

end NexusVPN.Client
