import NexusVPN.Client.Bookkeeping
import NexusVPN.Client.ExitRecord
import NexusVPN.Client.Programs
import NexusVPN.Lib.Turns

/-! # The tunnel's own transport

    A tunnel that carries the default route must not carry its own packets: the addresses
    that WireGuard and the relay proxies send to are pinned around it, and the kill switch
    lets them through.  `SetExitNode` sees to that for the addresses that are in use at the
    time.  Peers bring addresses of their own later. -/

namespace NexusVPN.Client

open Prog Option Function Hosted

/-! ## Addresses in use -/

/-- An IP address that is not on this host. -/
def Outside (a : UDPAddr) : Prop := (addrPort a).isSome ∧ isLoopback a.ip = false

instance (a : UDPAddr) : Decidable (Outside a) := inferInstanceAs (Decidable (_ ∧ _))

/-- The address is one that WireGuard sends to for some peer, or one at which a listed peer
    is relayed. -/
def Books.Uses (b : Books) (a : UDPAddr) : Prop :=
  (∃ key e, b.wg.lookup key = some e ∧ e.endpoint = some a) ∨
  ∃ d pr x, b.peers.lookup d = some pr ∧ b.proxyOf pr = some x ∧ x.relayAddr = a

abbrev TunnelState.Uses (s : TunnelState) (a : UDPAddr) : Prop := s.books.Uses a

/-- Packets to the address leave by the route that was there before the tunnel, and the
    kill switch lets them through. -/
def Host.Spares (h : Host) (a : UDPAddr) : Prop :=
  unmap a.ip ∈ h.pinned ∧
    ∀ policy, h.engaged = some policy → ∃ b ∈ policy.endpoints, addrPort a = some b

/-- While the default route is captured, the tunnel does not carry its own transport. -/
def TransportSpared (s : Hosted) : Prop :=
  s.host.captured = true → ∀ a, s.tunnel.Uses a → Outside a → s.host.Spares a

/-! ## Calls that bring addresses into use -/

/-- The call hands that address to WireGuard or to a peer. -/
def TunnelCall.Gives : TunnelCall → UDPAddr → Prop
  | .upsertPeer cfg, a => cfg.endpoint = some a
  | .updateEndpoint _ ep, a => ep = a
  | .adoptProxy _ x, a => x.relayAddr = a
  | .insertPeer _ _ _ vars, a => ∃ x, vars.proxy = some x ∧ x.relayAddr = a
  | _, _ => False

variable {α : Type} {a : UDPAddr}

section

variable {lib : ClientLib}

theorem endpoint_upsertPeer {fault : Option String} {p : PeerConfig} {wg : WGDevice} {key : Bytes}
    {e : WGPeer} (hlook : (WGDevice.upsertPeer lib.decodeKey fault p wg).2.lookup key = some e)
    (he : e.endpoint = some a) :
    p.endpoint = some a ∨ ∃ key' e', wg.lookup key' = some e' ∧ e'.endpoint = some a := by
  cases hkey : lib.decodeKey p.publicKey with
  | none =>
    simp only [WGDevice.upsertPeer, hkey] at hlook
    exact .inr ⟨key, e, hlook, he⟩
  | some key₀ =>
    cases fault with
    | some text =>
      simp only [WGDevice.upsertPeer, hkey] at hlook
      exact .inr ⟨key, e, hlook, he⟩
    | none =>
      rw [WGDevice.lookup_upsertPeer hkey] at hlook
      by_cases heq : key = key₀
      · -- The entry that is written: its endpoint is the new one, or stays.
        rw [if_pos heq] at hlook
        cases hlook
        cases hnew : p.endpoint with
        | some b =>
          rw [WGDevice.apply, hnew] at he
          exact .inl he
        | none =>
          rw [WGDevice.apply, hnew] at he
          obtain ⟨e', he', hold⟩ := bind_eq_some_iff.mp he
          exact .inr ⟨key₀, e', he', hold⟩
      · rw [if_neg heq] at hlook
        obtain ⟨e', he', rfl⟩ := map_eq_some_iff.mp hlook
        exact .inr ⟨key, e', he', he⟩

variable {c : TunnelCall} {i : TunnelInput}

/-- The proxy that a peer has after a call it had before, or the call has given it. -/
theorem proxyOf_step {b : Books} {pr : PeerRef} {x : ProxyRef}
    (h : (Books.step lib c i b).proxyOf pr = some x) :
    b.proxyOf pr = some x ∨ c = .adoptProxy pr x ∨
      ∃ d publicKey virtualIP vars, c = .insertPeer d publicKey virtualIP vars ∧
        vars.proxy = some x := by
  cases c with
  | insertPeer d publicKey virtualIP vars =>
    simp only [Books.step] at h
    split at h
    · exact .inl h
    · refine (Balanced.proxyOf_of_update h).imp_right fun hnew => ?_
      exact .inr ⟨d, publicKey, virtualIP, vars, rfl, hnew.2⟩
  | deletePeer d =>
    simp only [Books.step] at h
    split at h <;> exact .inl h
  | establishDirect | takeProxy => exact .inl (Balanced.proxyOf_of_update_none h)
  | adoptProxy pr' y =>
    rcases Balanced.proxyOf_of_update h with hold | ⟨rfl, ⟨⟩⟩
    · exact .inl hold
    · exact .inr (.inl rfl)
  | newProxy d relayAddr =>
    simp only [Books.step] at h
    split at h <;> exact .inl h
  | _ => exact .inl h

theorem endpoint_step {b : Books} {key : Bytes} {e : WGPeer}
    (hlook : (Books.step lib c i b).wg.lookup key = some e) (he : e.endpoint = some a) :
    c.Gives a ∨ ∃ key' e', b.wg.lookup key' = some e' ∧ e'.endpoint = some a := by
  cases c with
  | insertPeer | deletePeer | newProxy =>
    simp only [Books.step] at hlook
    split at hlook <;> exact .inr ⟨key, e, hlook, he⟩
  | upsertPeer cfg => exact endpoint_upsertPeer hlook he
  -- An update is an upsert that keeps the ranges.
  | updateEndpoint publicKey ep =>
    rcases endpoint_upsertPeer hlook he with hnew | hold
    · exact .inl (some.inj hnew)
    · exact .inr hold
  | removeWGPeer publicKey =>
    refine .inr ⟨key, e, ?_, he⟩
    simp only [Books.step, WGDevice.removePeer] at hlook
    split at hlook
    · exact hlook
    · split at hlook
      · exact hlook
      · rw [GoMap.lookup_erase_if] at hlook
        split at hlook
        · cases hlook
        · exact hlook
  | _ => exact .inr ⟨key, e, hlook, he⟩

theorem uses_of_handler {s : TunnelState} (h : (TunnelState.handler lib c i s).2.Uses a) :
    s.Uses a ∨ c.Gives a := by
  rcases h with ⟨key, e, hlook, he⟩ | ⟨d, pr, x, hlist, hx, rfl⟩
  · rw [handler_books] at hlook
    rcases endpoint_step hlook he with hnew | hold
    · exact .inr hnew
    · exact .inl (.inl hold)
  · rw [handler_books] at hx
    rcases listed_of_handler hlist with hpre | ⟨publicKey, virtualIP, vars, rfl, hnone, rfl⟩
    · rcases proxyOf_step hx with hold | rfl | ⟨d', publicKey, virtualIP, vars, rfl, hnew⟩
      · exact .inl (.inr ⟨d, pr, x, hpre, hold, rfl⟩)
      · exact .inr rfl
      · exact .inr ⟨x, hnew, rfl⟩
    · -- A peer that has just been listed has the proxy it was made with.
      simp only [Books.step, hnone, TunnelState.books, update_self] at hx
      exact .inr ⟨x, hx, rfl⟩

end

/-! ## The world of the run -/

/-- The same input, except that WireGuard and the host do as they are told, and that a new
    proxy listens on the loopback interface, as `relayproxy.New` has it. -/
def TunnelInput.ready (i : TunnelInput) : TunnelInput :=
  { i.willing with loopback := i.loopback.filter fun a => isLoopback a.ip }

/-- The tunnel in that world. -/
abbrev Hosted.ready (lib : ClientLib) : Handler tunnelIface Hosted TunnelInput :=
  sited lib (fun c i => Host.env c i.ready) fun _ i => i.ready

/-- The tunnel and its host, and the transports that the listed peers had when the default
    route was last captured. -/
structure Watched extends toHosted : Hosted where
  known : List UDPAddr

namespace Watched

/-- The transports are noted when the default route is captured, and at no other time. -/
def after (s : Watched) : TunnelCall → List UDPAddr
  | .env .captureDefault => s.tunnel.transports .asStored
  | _ => s.known

/-- While the default route is captured, an address from outside is one of those noted. -/
def Admits (s : Watched) (a : UDPAddr) : Prop := s.host.captured = true → Outside a → a ∈ s.known

instance (s : Watched) (a : UDPAddr) : Decidable (s.Admits a) :=
  inferInstanceAs (Decidable (_ → _))

end Watched

/-- The tunnel in that world, while it is watched. -/
def watched (lib : ClientLib) : Handler tunnelIface Watched TunnelInput := fun c i s =>
  ((ready lib c i s.toHosted).1, ⟨(ready lib c i s.toHosted).2, s.after c⟩)

section

variable {lib : ClientLib} {p : TunnelM α} {Q : α → Hosted → Prop} {s : Watched}

/-- Watching changes nothing. -/
theorem wp_watched (h : wp (ready lib) p Q s.toHosted) :
    wp (watched lib) p (fun r s' => Q r s'.toHosted) s := by
  induction p generalizing s with
  | ret r => exact h
  | call c k ih => exact fun i => ih _ (h i)

theorem wp_ready_of_yielding (h : wp (yielding lib) p Q s.toHosted) :
    wp (watched lib) p (fun r s' => Q r s'.toHosted) s := by
  have hsame : ready lib = fun c i s => yielding lib c i.ready s := by
    funext c i s
    cases c with
    | env c => cases c <;> rfl
    | _ => rfl
  refine wp_watched ?_
  rw [hsame]
  exact wp_comap _ h

end

/-- Every proxy listens on the loopback interface. -/
def TunnelState.ProxiesNear (s : TunnelState) : Prop :=
  ∀ pr x, (s.heap pr).proxy = some x → isLoopback x.localEndpoint.ip = true

/-- What holds at all times: while the default route is captured, the addresses in use are
    among those that were noted, and those are spared. -/
structure Sheltered (s : Watched) : Prop where
  near : s.tunnel.ProxiesNear
  noted : ∀ a, s.tunnel.Uses a → s.Admits a
  spared : s.host.captured = true → ∀ a ∈ s.known, Outside a → s.host.Spares a

theorem Sheltered.transportSpared {s : Watched} (h : Sheltered s) : TransportSpared s.toHosted :=
  fun hcap a huses hout => h.spared hcap a (h.noted a huses hcap hout) hout

/-- The exit record has no part in it. -/
theorem Sheltered.recorded {s : Watched} (h : Sheltered s) (e : ExitState) :
    Sheltered { s with tunnel := { s.tunnel with exit := e } } :=
  ⟨h.near, h.noted, h.spared⟩

/-- The name of a relay resolves to an address that is admitted. -/
def Familiar (s : Watched) (c : TunnelCall) (i : TunnelInput) : Prop :=
  match c with
  | .env (.resolve host port) => ∀ a ∈ i.env (.resolve host port), s.Admits a
  | _ => True

instance (s : Watched) (c : TunnelCall) (i : TunnelInput) : Decidable (Familiar s c i) := by
  unfold Familiar
  split <;> infer_instance

/-! ## Calls of the tunnel -/

/-- Calls outside of exit-node mode. -/
def TunnelCall.ordinary : TunnelCall → Bool
  | .env c => !c.steers
  | .takeExit | .recordExit .. | .recordLocked => false
  | _ => true

/-- If the call gives a peer a proxy, it is one that listens nearby. -/
def TunnelCall.Near : TunnelCall → Prop
  | .insertPeer _ _ _ vars => ∀ x, vars.proxy = some x → isLoopback x.localEndpoint.ip = true
  | .adoptProxy _ x => isLoopback x.localEndpoint.ip = true
  | _ => True

section

variable {lib : ClientLib} {cfg : TunnelConfig} {s w : Watched} {c : TunnelCall} {i : TunnelInput}

theorem near_ready (hc : c.Near) (h : s.tunnel.ProxiesNear) :
    (watched lib c i s).2.tunnel.ProxiesNear := by
  have htun : (TunnelState.handler lib c i.ready s.tunnel).2.ProxiesNear := by
    intro pr x hx
    have hbooks := handler_books lib c i.ready s.tunnel
    have hproxy : (Books.step lib c i.ready s.tunnel.books).proxyOf pr = some x := by
      rw [← hbooks]
      exact hx
    rcases proxyOf_step hproxy with hold | rfl | ⟨d, publicKey, virtualIP, vars, rfl, hnew⟩
    · exact h pr x hold
    · exact hc
    · exact hc x hnew
  cases c with
  | env e => exact h
  | _ => exact htun

theorem uses_of_ready (h : (watched lib c i s).2.tunnel.Uses a) : s.tunnel.Uses a ∨ c.Gives a := by
  have htun : (TunnelState.handler lib c i.ready s.tunnel).2.Uses a →
      s.tunnel.Uses a ∨ c.Gives a := uses_of_handler
  cases c with
  | env e => exact .inl h
  | _ => exact htun h

/-- Nothing but exit-node mode changes the host and what was noted. -/
structure Watched.Same (w s : Watched) : Prop where
  host : s.host = w.host
  known : s.known = w.known

theorem Watched.Same.admits (h : w.Same s) : s.Admits a ↔ w.Admits a := by
  unfold Watched.Admits
  rw [h.host, h.known]

theorem same_ordinary (hc : c.ordinary = true) (h : w.Same s) : w.Same (watched lib c i s).2 := by
  cases c with
  | env e => cases e <;> first | exact ⟨h.host, h.known⟩ | cases hc
  | _ => exact ⟨h.host, h.known⟩

theorem settled_ordinary (hc : c.ordinary = true) (h : Settled cfg s.toHosted) :
    Settled cfg (watched lib c i s).2.toHosted := by
  have hhost : (watched lib c i s).2.host = s.host := (same_ordinary hc ⟨rfl, rfl⟩).host
  have hexit : (watched lib c i s).2.tunnel.exit = s.tunnel.exit := by
    refine (sited_exit lib _ _ c i s.toHosted).trans ?_
    cases c <;> first | rfl | cases hc
  unfold Settled Recorded
  rw [hhost, hexit]
  exact h

theorem sheltered_ordinary (hc : c.ordinary = true) (hnear : c.Near)
    (hgives : ∀ a, c.Gives a → s.Admits a) (h : Sheltered s) : Sheltered (watched lib c i s).2 := by
  have hsame : s.Same (watched lib c i s).2 := same_ordinary hc ⟨rfl, rfl⟩
  refine ⟨near_ready hnear h.near, ?_, ?_⟩
  · intro a huses
    rw [hsame.admits]
    exact (uses_of_ready huses).elim (h.noted a) (hgives a)
  · rw [hsame.host, hsame.known]
    exact h.spared

/-! ## Programs outside of exit-node mode -/

/-- The program shelters the transport on its way. -/
abbrev Shelters (lib : ClientLib) {α : Type} (p : TunnelM α) (Q : α → Watched → Prop)
    (s : Watched) : Prop :=
  p.Guards (watched lib) Familiar Sheltered Q s

/-- The program keeps record and host in step, and shelters the transport on its way.  The
    host stays as it is in `w`. -/
def Steady (lib : ClientLib) (cfg : TunnelConfig) (w : Watched) {α : Type} (p : TunnelM α) : Prop :=
  ∀ s, w.Same s → Sheltered s → Settled cfg s.toHosted →
    Shelters lib p (fun _ s' => w.Same s' ∧ Sheltered s' ∧ Settled cfg s'.toHosted) s

/-- What is known of an answer: new proxies listen nearby and send where they were told to,
    and relays are at addresses that are admitted. -/
def Expected (w : Watched) : (c : TunnelCall) → tunnelIface.Ans c → Prop
  | .newProxy _ relayAddr, some x =>
    isLoopback x.localEndpoint.ip = true ∧ x.relayAddr = relayAddr
  | .env (.resolve _ _), some a => w.Admits a
  | _, _ => True

theorem expected_ready (h : w.Same s) (hfam : Familiar s c i) :
    Expected w c (watched lib c i s).1 := by
  cases c with
  | newProxy d relayAddr =>
    show Expected w (.newProxy d relayAddr) (TunnelState.handler lib (.newProxy d relayAddr)
      i.ready s.tunnel).1
    simp only [TunnelState.handler]
    cases hloop : i.ready.loopback with
    | none => trivial
    | some addr => exact ⟨(filter_eq_some_iff.mp hloop).2, rfl⟩
  | env e =>
    cases e with
    | resolve host port =>
      show Expected w (.env (.resolve host port)) (i.env (.resolve host port))
      cases hres : i.env (.resolve host port) with
      | none => trivial
      | some a => exact h.admits.mp (hfam a hres)
    | _ => trivial
  | _ => trivial

/-- `Steady` as a discipline. -/
def steadiness (lib : ClientLib) (cfg : TunnelConfig) (w : Watched) : Discipline tunnelIface where
  Holds p := Steady lib cfg w p
  legal c := c.ordinary = true ∧ c.Near ∧ ∀ a, c.Gives a → w.Admits a
  may := Expected w
  ret _ := fun _ hw h hs => ⟨hw, h, hs⟩
  bind hp hf := fun s hw h hs =>
    (hp s hw h hs).seq fun a s' hs' => hf a s' hs'.1 hs'.2.1 hs'.2.2
  call := by
    rintro α c k ⟨hc, hnear, hgives⟩ hk s hw h hs i hfam
    have hnext : Sheltered (watched lib c i s).2 :=
      sheltered_ordinary hc hnear (fun a ha => hw.admits.mpr (hgives a ha)) h
    exact ⟨hnext, hk _ (expected_ready hw hfam) _ (same_ordinary hc hw) hnext
      (settled_ordinary hc hs)⟩

theorem steady_return (r : α) : Steady lib cfg w (pure r) := (steadiness lib cfg w).ret r

/-- Calls that hand out no address. -/
def TunnelCall.quiet : TunnelCall → Bool
  | .upsertPeer _ | .updateEndpoint .. | .adoptProxy .. | .insertPeer .. => false
  | c => c.ordinary

theorem legal_of_quiet (hc : c.quiet = true) : (steadiness lib cfg w).legal c := by
  cases c with
  | upsertPeer | updateEndpoint | adoptProxy | insertPeer => cases hc
  | _ => exact ⟨hc, trivial, fun _ => False.elim⟩

theorem steady_then {f : tunnelIface.Ans c → TunnelM α} (hc : c.quiet = true)
    (hf : ∀ r, Expected w c r → Steady lib cfg w (f r)) : Steady lib cfg w (ask c >>= f) :=
  (steadiness lib cfg w).after (legal_of_quiet hc) hf

theorem steady_ask (hc : c.quiet = true) : Steady lib cfg w (ask c) :=
  (steadiness lib cfg w).ask (legal_of_quiet hc)

theorem steady_closeIfAny (x : Option ProxyRef) : Steady lib cfg w (closeIfAny x) := by
  cases x with
  | none => exact steady_return _
  | some x => exact steady_ask rfl

theorem steady_installPeer (d : UUID) (allowed : List IPRange) {p : Proto.Peer}
    (hp : At lib w.Admits p) : Steady lib cfg w (installPeer lib d allowed p) := by
  -- A new peer comes without a proxy.
  have hnone : ∀ x, (PeerVars.connecting lib p).proxy ≠ some x := fun _ => nofun
  refine (steadiness lib cfg w).next
    ⟨rfl, fun x hx => absurd hx (hnone x), fun _ ⟨x, hx, _⟩ => absurd hx (hnone x)⟩ fun r => ?_
  cases r with
  | existing pr => exact steady_then rfl fun _ _ => steady_return _
  | inserted pr =>
    refine (steadiness lib cfg w).next ⟨rfl, trivial, hp⟩ fun r => ?_
    cases r with
    | error e => exact steady_return _
    | ok u => exact steady_then rfl fun _ _ => steady_return _

theorem steady_removePeer (d : UUID) : Steady lib cfg w (removePeer d) := by
  refine steady_then rfl fun r _ => ?_
  cases r with
  | none => exact steady_return _
  | some pr =>
    have hclose : Steady lib cfg w (closePeer pr) :=
      steady_then rfl fun _ _ => steady_closeIfAny _
    exact (steadiness lib cfg w).bind hclose fun _ => steady_then rfl fun _ _ => steady_return _

theorem steady_repointToProxy (pr : PeerRef) {x : ProxyRef}
    (hx : isLoopback x.localEndpoint.ip = true) (hrelay : w.Admits x.relayAddr) :
    Steady lib cfg w (repointToProxy lib pr x) := by
  unfold repointToProxy
  split
  · exact steady_ask rfl
  · -- WireGuard is pointed at the proxy, which is on this host.
    have hlocal : w.Admits x.localEndpoint := fun _ hout => nomatch hx.symm.trans hout.2
    refine (steadiness lib cfg w).next ⟨rfl, trivial, fun a ha => some.inj ha ▸ hlocal⟩ fun r => ?_
    cases r with
    | error e => exact steady_then rfl fun _ _ => steady_ask rfl
    | ok u =>
      exact (steadiness lib cfg w).next ⟨rfl, hx, fun a ha => ha ▸ hrelay⟩ fun _ =>
        steady_closeIfAny _

theorem steady_relayThrough (pr : PeerRef) (token : String) {relayAddr : UDPAddr}
    (hrelay : w.Admits relayAddr) : Steady lib cfg w (relayThrough lib pr token relayAddr) := by
  have hoff : Steady lib cfg w (ask (.setMode pr .offline)) := steady_ask rfl
  unfold relayThrough
  split
  · exact hoff
  · refine steady_then rfl fun x hx => ?_
    cases x with
    | none => exact hoff
    | some x =>
      refine steady_then rfl fun started _ => ?_
      cases started with
      | true => exact steady_repointToProxy pr hx.1 (hx.2 ▸ hrelay)
      | false => exact steady_then rfl fun _ _ => hoff

theorem manners_steady : Manners lib (fun _ => True) w.Admits (steadiness lib cfg w) where
  routine c hc := legal_of_quiet (by
    cases c with
    | env e => exact hc
    | _ => first | rfl | cases hc)
  found _ _ _ := trivial
  listed _ _ _ _ := trivial
  goNegotiate _ _ := legal_of_quiet rfl
  updateEndpoint _ ep hep := ⟨rfl, trivial, fun a ha => ha ▸ hep⟩
  resolved _ _ _ hmay := hmay
  installPeer d allowed _ _ hp := steady_installPeer d allowed hp
  removePeer := steady_removePeer
  establishDirect _ := steady_then rfl fun _ _ => steady_closeIfAny _
  relayThrough pr token _ _ hrelay := steady_relayThrough pr token hrelay

end

end NexusVPN.Client
