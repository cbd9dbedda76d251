import NexusVPN.Client.AllowedIPs
import NexusVPN.Client.Transport

/-! # Capturing the default route around the transport

    `SetExitNode` pins the transports that the listed peers know of before it captures the
    default route, and lets them through before it blocks everything else.  If that is all
    of the addresses in use, the tunnel does not carry its own transport, and it stays so as
    long as no other address comes in. -/

namespace NexusVPN.Client

open List Prog Option Machine Hosted Guards Turns TunnelState

/-! ## Exit-node mode -/

/-- The listed peers know of every address that WireGuard holds. -/
def TunnelState.Told (s : TunnelState) : Prop :=
  ∀ key e a, s.wg.lookup key = some e → e.endpoint = some a → Outside a → s.Transports a

instance (s : TunnelState) : Decidable s.Told :=
  decidable_of_iff
    (∀ x ∈ s.wg.entries, ∀ a ∈ x.2.endpoint, Outside a → a ∈ s.transports .asStored)
    ⟨fun h key e a hlook he hout =>
        mem_transports.mp (h ⟨key, e⟩ (AList.mem_lookup_iff.mp hlook) a he hout),
      fun h x hx a ha hout =>
        mem_transports.mpr (h x.1 x.2 a (AList.mem_lookup_iff.mpr hx) ha hout)⟩

theorem mem_leaving {vars : PeerVars} {a : UDPAddr} (h : vars.transport = some a)
    (hout : Outside a) : a ∈ vars.leaving := by
  have hlen : a.ip.length = 4 ∨ a.ip.length = 16 := by
    have hport := hout.1
    unfold addrPort at hport
    by_contra hbad
    rw [if_neg hbad] at hport
    cases hport
  have hne : a.ip ≠ [] := by
    intro hnil
    simp [hnil] at hlen
  unfold PeerVars.leaving
  rw [h]
  simp [hne, hout.2]

namespace TunnelState

variable {s : TunnelState} {lib : ClientLib}

theorem Told.transports (h : s.Told) {a : UDPAddr} (huses : s.Uses a) (hout : Outside a) :
    s.Transports a := by
  rcases huses with ⟨key, e, hlook, he⟩ | ⟨d, pr, x, hlist, hx, rfl⟩
  · exact h key e a hlook he hout
  · have htr : (s.heap pr).transport = some x.relayAddr := by
      have hproxy : (s.heap pr).proxy = some x := hx
      simp only [PeerVars.transport, hproxy]
    exact ⟨d, pr, hlist, mem_leaving htr hout⟩

theorem Told.retold (h : s.Told) (hnear : s.ProxiesNear) {wg : WGDevice} (hwg : s.Retold lib wg) :
    ({ s with wg := wg } : TunnelState).Told := by
  rcases hwg with rfl | ⟨d, pr, allowed, hlist, rfl⟩
  · exact h
  · intro key e a hlook he hout
    rcases endpoint_upsertPeer hlook he with hnew | ⟨key', e', hlook', he'⟩
    · have hep : (s.heap pr).wgEndpoint = some a := hnew
      unfold PeerVars.wgEndpoint at hep
      cases hproxy : (s.heap pr).proxy with
      | some x =>
        -- A relayed peer is reached through a proxy on this host.
        simp only [hproxy] at hep
        have hloop := hnear pr x hproxy
        rw [some.inj hep, hout.2] at hloop
        cases hloop
      | none =>
        simp only [hproxy] at hep
        have htr : (s.heap pr).transport = some a := by
          simp only [PeerVars.transport, hproxy, hep]
        exact ⟨d, pr, hlist, mem_leaving htr hout⟩
    · exact h key' e' a hlook' he' hout

end TunnelState

/-- The default route is left alone. -/
def Uncaptured (s : Watched) : Prop := s.tunnel.ProxiesNear ∧ s.host.captured = false

/-- Calls that can capture the default route, or give a peer a proxy. -/
def TunnelCall.Captures : TunnelCall → Prop
  | .env .captureDefault | .insertPeer .. | .adoptProxy .. => True
  | _ => False

/-- Calls that do more than look. -/
def TunnelCall.Acts : TunnelCall → Prop
  | .listPeers | .readPeer _ | .env .localNetworks => False
  | _ => True

section

variable {lib : ClientLib} {cfg : TunnelConfig} {s : Watched}

theorem Uncaptured.sheltered (h : Uncaptured s) : Sheltered s :=
  have hnot : s.host.captured ≠ true := by simp [h.2]
  ⟨h.1, fun _ _ hcap => absurd hcap hnot, fun hcap => absurd hcap hnot⟩

theorem uncaptured_watched (c : TunnelCall) (i : TunnelInput) (h : Uncaptured s)
    (hc : ¬ c.Captures) : Uncaptured (watched lib c i s).2 := by
  have hnear : c.Near := by
    cases c with
    | insertPeer | adoptProxy => exact absurd trivial hc
    | _ => trivial
  refine ⟨near_ready hnear h.1, ?_⟩
  cases c with
  | env e =>
    cases e with
    | captureDefault => exact absurd trivial hc
    | releaseDefault => rfl
    | _ => exact h.2
  | _ => exact h.2

theorem unchanged_watched (c : TunnelCall) (i : TunnelInput) {s' : Watched} (h : s' = s)
    (hc : ¬ c.Acts) : (watched lib c i s').2 = s := by
  subst h
  cases c with
  | listPeers | readPeer => rfl
  | env e =>
    cases e with
    | localNetworks => rfl
    | _ => exact absurd trivial hc
  | _ => exact absurd trivial hc

theorem shelters_uncaptured {α : Type} {p : TunnelM α} {Q : α → Watched → Prop}
    (hp : p.Avoids TunnelCall.Captures) (h : Uncaptured s) (hwp : wp (watched lib) p Q s) :
    Shelters lib p (fun a s' => Q a s' ∧ Uncaptured s') s :=
  guards_of_wp (fun _ c i h hc => uncaptured_watched c i h hc) (fun _ h => h.sheltered) hp h hwp

/-- A program that only looks leaves everything as it is. -/
theorem shelters_looking {α : Type} {p : TunnelM α} {Q : α → Watched → Prop}
    (hp : p.Avoids TunnelCall.Acts) (h : Sheltered s) (hwp : wp (watched lib) p Q s) :
    Shelters lib p (fun a s' => Q a s' ∧ s' = s) s :=
  guards_of_wp (fun _ c i h hc => unchanged_watched c i h hc) (fun _ hs' => hs' ▸ h) hp rfl hwp

theorem not_acts_of_looks (c : TunnelCall) (hc : c.looks = true) : ¬ c.Acts := by
  cases c with
  | listPeers | readPeer => exact id
  | env e => cases e <;> first | exact id | cases hc
  | _ => cases hc

theorem not_captures_of_undoes (c : TunnelCall) (hc : c.undoes = true) : ¬ c.Captures := by
  cases c with
  | env e => cases e <;> first | exact id | cases hc
  | _ => first | exact id | cases hc

/-! ### Clearing -/

theorem shelters_releaseLock (h : Sheltered s) (state : ExitState) :
    Shelters lib (releaseLock cfg state)
      (fun _ s' => Sheltered s' ∧ s'.host.captured = s.host.captured) s := by
  unfold releaseLock
  split
  · refine guards_ask fun i _ => ?_
    have hnext : Sheltered (watched lib (.env .releaseKillSwitch) i s).2 := by
      refine ⟨h.near, h.noted, fun hcap a hknown hout => ?_⟩
      exact ⟨(h.spared hcap a hknown hout).1, fun policy hpolicy => nomatch hpolicy⟩
    exact ⟨hnext, hnext, rfl⟩
  · exact ⟨h, rfl⟩

theorem shelters_releaseRoute (h : Sheltered s) {state : ExitState}
    (hstate : ¬ (state.captured = true ∧ cfg.router = true) → s.host.captured = false) :
    Shelters lib (releaseRoute cfg state) (fun _ s' => Uncaptured s') s := by
  unfold releaseRoute
  by_cases hrel : state.captured = true ∧ cfg.router = true
  · rw [if_pos (by simp [hrel])]
    refine guards_ask fun i _ => ?_
    have hnext : Uncaptured (watched lib (.env .releaseDefault) i s).2 := ⟨h.1, rfl⟩
    exact ⟨hnext.sheltered, hnext⟩
  · rw [if_neg (by simpa using hrel)]
    exact ⟨h.1, hstate hrel⟩

theorem shelters_clearExitNode (h : Sheltered s) (hs : Settled cfg s.toHosted) :
    Shelters lib (clearExitNode lib cfg) (fun _ _ => True) s := by
  refine guards_ask fun _ _ => ⟨h.recorded _, ?_⟩
  -- Once the default route is released, whatever undoes something can only leave it alone.
  have hundo : ∀ {α : Type} {p : TunnelM α} {s' : Watched}, p.Avoids TunnelCall.Captures →
      Uncaptured s' → Shelters lib p (fun _ s'' => True ∧ Uncaptured s'') s' :=
    fun hp hs' => shelters_uncaptured hp hs' (wp_of_forall (fun _ _ => trivial) _)
  have hrest : ∀ e₁ e₂ s', Uncaptured s' →
      Shelters lib (narrowExit lib s.tunnel.exit >>= fun e₃ => pure (e₁ <|> e₂ <|> e₃))
        (fun _ _ => True) s' := fun e₁ e₂ s' hs' =>
    (hundo (holds_narrowExit (D := .avoiding _) not_captures_of_undoes _) hs').seq
      fun _ _ _ => trivial
  have hcleared : Sheltered { s with tunnel := s.tunnel.cleared } := h.recorded _
  split
  · trivial
  · refine (shelters_releaseLock hcleared s.tunnel.exit).seq ?_
    rintro e₁ s₁ ⟨hs₁, hcaptured⟩
    refine (shelters_releaseRoute hs₁ ?_).seq ?_
    · intro hskip
      rw [hcaptured]
      exact hs.1.not_captured fun hcap => hskip ⟨hcap, hs.2.2.1 hcap⟩
    · intro e₂ s₂ hs₂
      split
      · exact (hundo (holds_unpinAll (D := .avoiding _) not_captures_of_undoes _) hs₂).seq
          fun _ s₃ hs₃ => hrest e₁ e₂ s₃ hs₃.2
      · exact hrest e₁ e₂ s₂ hs₂

/-! ### Setting -/

theorem shelters_engageKillSwitch (h : Sheltered s)
    (hknown : s.known = s.tunnel.transports .asStored) (allowLAN : Bool) :
    Shelters lib (engageKillSwitch cfg allowLAN) (fun _ _ => True) s := by
  unfold engageKillSwitch
  split
  · trivial
  · refine (shelters_looking (holds_transportAddrPorts (D := .avoiding _) not_acts_of_looks) h
      (wp_watched (wp_transportAddrPorts (Q := fun r _ => ∃ ord, r = s.tunnel.addrPorts ord)
        fun i => ⟨_, rfl⟩))).seq ?_
    rintro endpoints s' ⟨⟨ord, rfl⟩, rfl⟩
    refine (shelters_looking (holds_lanFor (D := .avoiding _) not_acts_of_looks allowLAN) h
      (wp_of_forall (Q := fun _ _ => True) (fun _ _ => trivial) _)).seq ?_
    rintro lan s'' ⟨-, rfl⟩
    cases lan with
    | none => trivial
    | some lan =>
      refine guards_ask fun i _ => ?_
      have hnext : Sheltered (watched lib
          (.env (.engageKillSwitch (s''.tunnel.addrPorts ord) lan allowLAN)) i s'').2 := by
        refine ⟨h.near, h.noted, fun hcap a ha hout => ?_⟩
        refine ⟨(h.spared hcap a ha hout).1, ?_⟩
        intro policy hpolicy
        -- The new policy lets through all that the tunnel knows, and so all that is in use.
        obtain ⟨b, hb⟩ := isSome_iff_exists.mp hout.1
        refine ⟨b, ?_, hb⟩
        rw [← some.inj hpolicy]
        exact mem_addrPorts (mem_transports.mp (hknown ▸ ha)) ord hb
      exact ⟨hnext, guards_ask fun i _ => ⟨hnext.recorded _, trivial⟩⟩

theorem wp_pinAll_watched {prior : DefaultRoute} (endpoints : List Bytes)
    (hclean : s.host = .clean) :
    wp (watched lib) (pinAll prior endpoints []) (fun r s' => r.1 = none ∧
      s'.tunnel = s.tunnel ∧ s'.host.engaged = none ∧ ∀ ip ∈ endpoints, unmap ip ∈ s'.host.pinned)
      s := by
  refine wp_watched (Q := fun (r : Option Bytes × List Bytes) s' => r.1 = none ∧
    s'.tunnel = s.tunnel ∧ s'.host.engaged = none ∧
    ∀ ip ∈ endpoints, unmap ip ∈ s'.host.pinned) ?_
  refine wp_pinAll (J := fun todo _ r => r.engaged = none ∧
    ∀ ip ∈ endpoints, ip ∈ todo ∨ unmap ip ∈ r.pinned) ?_ ?_ ?_ ?_
  · rintro ip todo pinned r i ⟨heng, hpin⟩ _
    refine ⟨heng, ?_⟩
    intro ip' hip'
    rcases hpin ip' hip' with htodo | hdone
    · rcases mem_cons.mp htodo with rfl | hlater
      · exact .inr mem_cons_self
      · exact .inl hlater
    · exact .inr (mem_cons_of_mem _ hdone)
  · intro ip todo pinned r i _ hbad
    cases hbad
  · rintro pinned r ⟨heng, hpin⟩
    refine ⟨rfl, rfl, heng, ?_⟩
    intro ip hip
    rcases hpin ip hip with htodo | hdone
    · cases htodo
    · exact hdone
  · rw [hclean]
    exact ⟨rfl, fun ip hip => .inl hip⟩

variable {d : UUID} {opts : ExitNodeOptions}

theorem shelters_captureThrough {pr : PeerRef} {prior : DefaultRoute}
    (hnear : s.tunnel.ProxiesNear) (htold : s.tunnel.Told) (hclean : s.host = .clean) :
    Shelters lib (captureThrough lib cfg pr prior d opts) (fun _ _ => True) s := by
  have hunc : Uncaptured s := ⟨hnear, by rw [hclean]; rfl⟩
  refine (shelters_looking (holds_transportEndpoints (D := .avoiding _) not_acts_of_looks)
    hunc.sheltered
    (wp_watched (wp_transportEndpoints (Q := fun r _ => ∃ ord, r = s.tunnel.endpoints ord)
      fun i => ⟨_, rfl⟩))).seq ?_
  rintro endpoints s' ⟨⟨ord, rfl⟩, rfl⟩
  refine (shelters_uncaptured
    (holds_pinAll (D := .avoiding TunnelCall.Captures) prior (fun _ => id) _ []) hunc
    (wp_pinAll_watched _ hclean)).seq ?_
  rintro ⟨refused, pinned⟩ s₁ ⟨⟨hnone, htun, heng, hpin⟩, hs₁⟩
  obtain rfl : refused = none := hnone
  -- Every transport is pinned now, and the kill switch is not engaged.
  have hcap : ∀ i, Sheltered (watched lib (.env .captureDefault) i s₁).2 := by
    refine fun i => ⟨hs₁.1, fun a huses _ hout => ?_, fun _ a hknown _ => ⟨?_, ?_⟩⟩
    · exact mem_transports.mpr
        ((htun ▸ htold : s₁.tunnel.Told).transports huses hout)
    · replace hknown : s₁.tunnel.Transports a := mem_transports.mp hknown
      rw [htun] at hknown
      obtain ⟨ip, hip, heq⟩ := exists_mem_endpoints hknown ord
      rw [heq]
      exact hpin ip hip
    · intro policy hpolicy
      exact nomatch heng.symm.trans hpolicy
  refine guards_ask fun i _ => ⟨hcap i, ?_⟩
  refine guards_ask fun j _ => ?_
  have hrec : Sheltered (watched lib (.recordExit d prior pinned) j
      (watched lib (.env .captureDefault) i s₁).2).2 := (hcap i).recorded _
  refine ⟨hrec, ?_⟩
  split
  · exact shelters_engageKillSwitch hrec rfl opts.allowLAN
  · trivial

theorem shelters_setExitNode (h : Sheltered s) (hs : Settled cfg s.toHosted)
    (htold : s.tunnel.Told) :
    Shelters lib (setExitNode lib cfg d opts) (fun _ _ => True) s := by
  unfold setExitNode
  split
  · trivial
  · refine guards_ask fun i _ => ⟨h, ?_⟩
    cases hlook : (watched lib (.lookupPeer d) i s).1 with
    | none => trivial
    | some pr =>
      refine ((shelters_clearExitNode h hs).and_wp
        (wp_ready_of_yielding (wp_clearExitNode_yielding (Q := fun _ s' => ∃ wg,
          s.tunnel.Retold lib wg ∧ s' = ⟨{ s.tunnel.cleared with wg := wg }, .clean⟩) hs
          fun _ wg hwg => ⟨wg, hwg, rfl⟩))).seq ?_
      rintro e ⟨t₂, known⟩ ⟨-, wg, hwg, heq⟩
      obtain rfl : t₂ = _ := heq
      cases e with
      | some e => trivial
      | none =>
        -- Nothing is captured any more, and only `captureThrough` will change that.
        have htold₂ : ({ s.tunnel.cleared with wg := wg } : TunnelState).Told :=
          htold.retold h.1 hwg
        have hs₂ : Uncaptured ⟨⟨{ s.tunnel.cleared with wg := wg }, .clean⟩, known⟩ := ⟨h.1, rfl⟩
        refine guards_ask fun i _ => ⟨hs₂.sheltered, ?_⟩
        cases (watched lib (.env .snapshotRoutes) i
          ⟨⟨{ s.tunnel.cleared with wg := wg }, .clean⟩, known⟩).1 with
        | none => trivial
        | some prior =>
          refine (shelters_uncaptured
            (holds_updatePeerAllowedIPs (D := .avoiding _) not_captures_of_undoes pr
              exitAllowedIPs) hs₂
            (wp_watched (wp_updatePeerAllowedIPs (Q := fun r s' => r = .ok () →
              s'.tunnel.Told ∧ s'.host = .clean) ?_ ?_))).seq ?_
          · intro e _ hbad
            cases hbad
          · intro _ key _ _ _
            exact ⟨htold₂.retold h.1 (.inr ⟨d, pr, exitAllowedIPs, hlook, rfl⟩), rfl⟩
          · rintro r s₃ ⟨hok, hs₃⟩
            cases r with
            | error e => trivial
            | ok u => exact shelters_captureThrough hs₃.1 (hok rfl).1 (hok rfl).2

end

/-! ## Whole runs -/

/-- What the tunnel is asked to do. -/
inductive TransportTask where
  | setExitNode (d : UUID) (opts : ExitNodeOptions)
  | clearExitNode
  | addPeer (p : Proto.Peer)
  | handleEndpointChange (d : UUID) (p : Proto.Peer)
  | negotiate (pr : PeerRef)

def TransportTask.body (lib : ClientLib) (cfg : TunnelConfig) : TransportTask → TunnelM Unit
  | .setExitNode d opts => do let _ ← Client.setExitNode lib cfg d opts
  | .clearExitNode => do let _ ← Client.clearExitNode lib cfg
  | .addPeer p => do let _ ← Client.addPeer lib p
  | .handleEndpointChange d p => Client.handleEndpointChange lib d p
  | .negotiate pr => Client.negotiate lib cfg pr

/-- A packet of the peer has come from there: WireGuard sends there from now on. -/
structure Roaming where
  key : Bytes
  addr : UDPAddr

def Roaming.happen (r : Roaming) (s : Watched) : Watched :=
  { s with tunnel := { s.tunnel with
    wg := GoMap.mapValues
      (fun key e => if key = r.key then { e with endpoint := some r.addr } else e) s.tunnel.wg } }

/-- One call at a time, and WireGuard follows its peers in between. -/
def transportStep (lib : ClientLib) (cfg : TunnelConfig) : Turns tunnelIface Watched →
    Action TransportTask TunnelInput Roaming → Option (Turns tunnelIface Watched) :=
  step (watched lib) (TransportTask.body lib cfg) Roaming.happen

/-- `SetExitNode` starts only while the listed peers know of every address that WireGuard
    holds, and where the control plane says that a peer is to be found is admitted. -/
def Announced (lib : ClientLib) (s : Watched) : TransportTask → Prop
  | .setExitNode _ _ => s.tunnel.Told
  | .addPeer p | .handleEndpointChange _ p => At lib s.Admits p
  | _ => True

/-- What comes in is in sight: while the default route is captured, no peer is announced at,
    no relay resolves to and no packet comes from another address than those that were
    transports of the listed peers when `SetExitNode` captured it. -/
def InSight (lib : ClientLib) :
    Turns tunnelIface Watched → Action TransportTask TunnelInput Roaming → Prop :=
  Meets (Announced lib) Familiar fun s r => s.Admits r.addr

instance (lib : ClientLib) (s : Watched) (t : TransportTask) : Decidable (Announced lib s t) := by
  unfold Announced At
  split <;> infer_instance

instance (lib : ClientLib) (p : Turns tunnelIface Watched)
    (a : Action TransportTask TunnelInput Roaming) : Decidable (InSight lib p a) :=
  inferInstanceAs (Decidable (Turns.Meets ..))

section

variable {lib : ClientLib} {cfg : TunnelConfig} {s : Watched}

theorem shelters_body (t : TransportTask) (h : Sheltered s) (hs : Settled cfg s.toHosted)
    (ht : Announced lib s t) :
    Shelters lib (t.body lib cfg) (fun _ s' => Settled cfg s'.toHosted) s := by
  have hst : ∀ {p : TunnelM Unit}, Steady lib cfg s p →
      Shelters lib p (fun _ s' => Settled cfg s'.toHosted) s :=
    fun hp => (hp s ⟨rfl, rfl⟩ h hs).mono fun _ _ hs' => hs'.2.2
  cases t with
  | setExitNode d opts =>
    have hwp : wp (watched lib) (setExitNode lib cfg d opts) (fun _ s' => Settled cfg s'.toHosted)
        s := wp_ready_of_yielding (wp_setExitNode_yielding hs)
    exact ((shelters_setExitNode h hs ht).and_wp hwp).seq fun _ _ hs' => hs'.2
  | clearExitNode =>
    have hwp : wp (watched lib) (clearExitNode lib cfg) (fun _ s' => Settled cfg s'.toHosted) s :=
      wp_ready_of_yielding (Q := fun _ s' => Settled cfg s')
        (wp_clearExitNode_yielding hs fun _ wg _ => settled_cleared wg)
    exact ((shelters_clearExitNode h hs).and_wp hwp).seq fun _ _ hs' => hs'.2
  | addPeer p =>
    exact hst ((steadiness lib cfg s).bind (manners_steady.addPeer ht) fun _ => steady_return _)
  | handleEndpointChange d p => exact hst (manners_steady.handleEndpointChange d ht)
  | negotiate pr => exact hst (manners_steady.negotiate trivial)

theorem sheltered_roaming (r : Roaming) (h : Sheltered s) (hr : s.Admits r.addr) :
    Sheltered (r.happen s) := by
  refine ⟨h.near, fun a huses => ?_, h.spared⟩
  rcases huses with ⟨key, e, hlook, he⟩ | hproxied
  · replace hlook : (GoMap.mapValues _ s.tunnel.wg).lookup key = some e := hlook
    rw [GoMap.lookup_mapValues] at hlook
    obtain ⟨e', he', rfl⟩ := map_eq_some_iff.mp hlook
    by_cases hkey : key = r.key
    · simp only [if_pos hkey] at he
      cases he
      exact hr
    · simp only [if_neg hkey] at he
      exact h.noted a (.inl ⟨key, e', he', he⟩)
  · exact h.noted a (.inr hproxied)

end

/-- In every run in which what comes in is in sight: whenever the default route is captured,
    every address outside of this host that WireGuard or a relay proxy sends to is pinned
    around the tunnel, and permitted by the kill switch if it is engaged. -/
theorem transport_spared (lib : ClientLib) (cfg : TunnelConfig) (s : Watched)
    (hoff : s.tunnel.exit.Off) (hclean : s.host = .clean) (hnear : s.tunnel.ProxiesNear)
    (as : List (Action TransportTask TunnelInput Roaming))
    (hsight : Along (transportStep lib cfg) (InSight lib) ⟨s, .ret ()⟩ as) :
    Throughout (transportStep lib cfg) (fun p => TransportSpared p.shared.toHosted)
      ⟨s, .ret ()⟩ as := by
  have hinit : Uncaptured s := ⟨hnear, by rw [hclean]; rfl⟩
  have hall := throughout (J := Sheltered) (R := fun s => Settled cfg s.toHosted)
    (fun t s h hs ht => shelters_body t h hs ht)
    (fun r s h hs hr => ⟨sheltered_roaming r h hr, hs⟩)
    hinit.sheltered (settled_off hoff hclean) hsight
  exact hall.mono fun p hp => hp.transportSpared

/-! ## The laptop, in sight and out of sight -/

/-- The program that is running makes that many calls. -/
def transportSteps (count : Nat) : List (Action TransportTask TunnelInput Roaming) :=
  List.replicate count (.advance (exitWorld true))

/-- The laptop, at an address. -/
def laptopAbroad : Proto.Peer :=
  { laptop with lastKnownEndpoint := some ⟨"198.51.100.7", 51820, "udp"⟩ }

/-- Libraries that can read that address. -/
def abroadLib : ClientLib :=
  { raceLib with
    parseIP s := if s = "198.51.100.7" then some [198, 51, 100, 7] else raceLib.parseIP s }

/-- Nothing has been noted yet. -/
def beforeLaptop : Watched := ⟨⟨registeredTunnel, .clean⟩, []⟩

def laptopRef : PeerRef := ⟨0, laptopID, "laptop-key", "10.77.0.3"⟩

/-- The laptop becomes the exit node with the kill switch engaged, and is heard of and heard
    from at the address that it has.  Then it is relayed, becomes the exit node again, and is
    relayed once more by the same relay. -/
def laptopInSight : List (Action TransportTask TunnelInput Roaming) :=
  .start (.addPeer laptopAbroad) :: transportSteps 3 ++
    .start (.setExitNode laptopID ⟨true, false⟩) :: transportSteps 14 ++
    .event ⟨[3], ⟨[198, 51, 100, 7], 51820⟩⟩ ::
    .start (.handleEndpointChange laptopID laptopAbroad) :: transportSteps 2 ++
    .start .clearExitNode :: transportSteps 7 ++
    .start (.negotiate laptopRef) :: transportSteps 14 ++
    .start (.setExitNode laptopID ⟨true, false⟩) :: transportSteps 14 ++
    .start (.negotiate laptopRef) :: transportSteps 15

theorem registeredTunnel_near : registeredTunnel.ProxiesNear := by
  intro pr x hx
  cases hx

theorem transport_spared_laptop :
    (registeredTunnel.exit.Off ∧ registeredTunnel.ProxiesNear ∧
      Along (transportStep abroadLib routerConfig) (InSight abroadLib)
        ⟨beforeLaptop, .ret ()⟩ laptopInSight) ∧
    (run (transportStep abroadLib routerConfig) ⟨beforeLaptop, .ret ()⟩ laptopInSight).map
        (fun p => (p.shared.host.captured, p.shared.host.pinned, p.shared.known)) =
      some (true, [[192, 0, 2, 1]], [⟨[192, 0, 2, 1], 3478⟩]) ∧
    Throughout (transportStep abroadLib routerConfig)
      (fun p => TransportSpared p.shared.toHosted) ⟨beforeLaptop, .ret ()⟩ laptopInSight := by
  have hsight : Along (transportStep abroadLib routerConfig) (InSight abroadLib)
      ⟨beforeLaptop, .ret ()⟩ laptopInSight := by decide +kernel
  refine ⟨⟨⟨rfl, rfl, rfl, rfl⟩, registeredTunnel_near, hsight⟩, by decide +kernel, ?_⟩
  exact transport_spared abroadLib routerConfig beforeLaptop ⟨rfl, rfl, rfl, rfl⟩ rfl
    registeredTunnel_near laptopInSight hsight

/-- The laptop is added and becomes the exit node, and then it is relayed. -/
def laptopOutOfSight : List (Action TransportTask TunnelInput Roaming) :=
  .start (.addPeer laptop) :: transportSteps 3 ++
    .start (.setExitNode laptopID ⟨false, false⟩) :: transportSteps 9 ++
    .start (.negotiate laptopRef) :: transportSteps 12

/-- All calls have returned, the default route is captured, and the packets to the relay go
    into the tunnel that they are to carry. -/
theorem relay_swallowed :
    ∃ s, run (transportStep raceLib routerConfig)
        ⟨beforeLaptop, .ret ()⟩ laptopOutOfSight = some ⟨s, .ret ()⟩ ∧
      s.host.captured = true ∧ s.host.pinned = [] ∧
      s.tunnel.Uses ⟨[192, 0, 2, 1], 3478⟩ ∧ ¬ TransportSpared s.toHosted := by
  have hnot : ∀ s : Hosted, s.host.captured = true → s.host.pinned = [] →
      s.tunnel.Uses ⟨[192, 0, 2, 1], 3478⟩ → ¬ TransportSpared s := by
    intro s hcap hpin huses hspared
    have hspare := (hspared hcap _ huses ⟨rfl, rfl⟩).1
    rw [hpin] at hspare
    cases hspare
  exact ⟨_, rfl, rfl, rfl, .inr ⟨laptopID, _, _, rfl, rfl, rfl⟩,
    hnot _ rfl rfl (.inr ⟨laptopID, _, _, rfl, rfl, rfl⟩)⟩

end NexusVPN.Client
