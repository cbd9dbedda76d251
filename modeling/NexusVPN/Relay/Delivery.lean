import NexusVPN.Client.RelayProxy
import NexusVPN.Relay.Isolation

/-! # Which peer's payload reaches WireGuard

    One device opens a proxy, with a relay-facing address of its own, for every
    peer it reaches over the relay.  All of them present the device's id, and the
    relay keeps one binding per device: it sends whatever is addressed to the
    device to the proxy that bound last, whoever the sender is. -/

namespace NexusVPN.Relay

open List Client Option Machine Proxy ServerState

/-! ## The world around one device -/

structure RelayWorld (Addr LAddr : Type) where
  relay : ServerState Addr
  /-- The device's open proxies, by their relay-facing address. -/
  proxies : GoMap Addr (Proxy LAddr)
  /-- The frames sent to the relay so far, each with its source. -/
  sent : List (Addr × Bytes)
  /-- The payloads handed to WireGuard so far, each with the peer that the proxy
      was created for. -/
  handed : List (UUID × Bytes)

inductive WorldAction (Addr LAddr : Type) where
  /-- `relayproxy.New` and `Start`, as `fallBackToRelay` calls them. -/
  | openProxy (a : Addr) (opts : ProxyOptions) (sent : Bool)
  | closeProxy (a : Addr)
  /-- WireGuard sends a datagram to a proxy's loopback socket. -/
  | wireGuard (a : Addr) (src : LAddr) (datagram : Bytes) (sent : Bool)
  /-- A proxy's keepalive ticker fires. -/
  | tick (a : Addr) (sent : Bool)
  /-- Somebody else sends something to the relay. -/
  | other (a : Addr) (frame : Bytes)
  | relay (act : ServerAction Addr)
  /-- A frame that the relay wrote arrives at a proxy. -/
  | deliver (a : Addr) (frame : Bytes) (sent : Bool)

namespace RelayWorld

variable {Addr LAddr : Type} [DecidableEq Addr]

/-- Nobody has sent anything, and there is no proxy yet. -/
def init (idleTimeout maxSessions : Int) : RelayWorld Addr LAddr :=
  ⟨.init idleTimeout maxSessions, ∅, [], []⟩

/-- The relay wrote `frame` to `a`. -/
def wrote (log : List (Event Addr)) (a : Addr) (frame : Bytes) : Bool :=
  log.any fun
    | ⟨_, .writeToUDP f d, _, true⟩ => decide (f = frame ∧ d = a)
    | _ => false

/-- Account for what the proxy at `a` has become and has written. -/
def absorb (w : RelayWorld Addr LAddr) (a : Addr) (r : Proxy LAddr × List (Emit LAddr)) :
    RelayWorld Addr LAddr :=
  { w with
    proxies := w.proxies.insert a r.1
    sent := (r.2.filterMap fun
      | .toRelay frame => some (a, frame)
      | .toWireGuard _ _ => none) ++ w.sent
    handed := (r.2.filterMap fun
      | .toRelay _ => none
      | .toWireGuard payload _ => some (r.1.opts.peerDeviceID, payload)) ++ w.handed }

/-- One step, for the proxies of device `me`; `own` are the addresses that only its
    proxies use. -/
def step (verify : Verify) (me : UUID) (own : Addr → Bool)
    (w : RelayWorld Addr LAddr) : WorldAction Addr LAddr → Option (RelayWorld Addr LAddr)
  | .openProxy a opts sent =>
    if own a ∧ w.proxies.lookup a = none ∧ opts.selfDeviceID = me then
      match new opts with
      | .error _ => some w
      | .ok p => if sent then some (w.absorb a (p, [.toRelay p.bindFrame])) else some w
    else none
  | .closeProxy a => some { w with proxies := w.proxies.erase a }
  | .wireGuard a src datagram sent =>
    (w.proxies.lookup a).map fun p => w.absorb a (p.pumpLocalToRelay src datagram sent)
  | .tick a sent => (w.proxies.lookup a).map fun p => w.absorb a (p, p.keepalive sent)
  | .other a frame => if own a then none else some { w with sent := (a, frame) :: w.sent }
  | .relay act =>
    match act with
    | .recv src datagram =>
      if (src, datagram) ∈ w.sent then
        (w.relay.step verify (.recv src datagram)).map fun r => { w with relay := r }
      else none
    | act => (w.relay.step verify act).map fun r => { w with relay := r }
  | .deliver a frame sent =>
    match w.proxies.lookup a with
    | none => none
    | some p =>
      if wrote w.relay.log a frame then some (w.absorb a (p.pumpRelayToLocal frame sent)) else none

/-! ## The property and the condition -/

/-- The relay took a DATA frame with this payload, addressed to device `dst`, from an
    address whose owner had authenticated as device `src`: the most recent accepted
    BIND for `src` came from there. -/
def SentTo (verify : Verify) (log : List (Event Addr)) (src dst : UUID) (payload : Bytes) : Prop :=
  ∃ (newer older : List (Event Addr)) (ev : Event Addr) (n : String) (bs : Event Addr)
    (cs : Claims),
    log = newer ++ ev :: older ∧ decodeData ev.tag.2 = .ok (dst, payload) ∧
    lastBind older n src = some bs ∧ AcceptedBind verify bs ev.tag.1 n src cs

/-- Every payload that a proxy created for `peer` handed to WireGuard was sent by
    `peer` and addressed to this device. -/
def RightPeer (verify : Verify) (me : UUID) (w : RelayWorld Addr LAddr) : Prop :=
  ∀ peer payload, (peer, payload) ∈ w.handed → SentTo verify w.relay.log peer me payload

/-- The sender for whom a packet was routed, and where to. -/
def routed : Event Addr → Option (UUID × Addr)
  | ⟨_, .route _ senderID _, _, some dest⟩ => some (senderID, dest)
  | _ => none

/-- When the relay routes a packet, the receiver's binding, if it is at one of the proxies, is
    that of the proxy for the sender.  A proxy is opened where the relay has routed nothing. -/
def BoundForSender (w : RelayWorld Addr LAddr) : WorldAction Addr LAddr → Prop
  | .relay (.reader _) =>
    match w.relay.job with
    | some ⟨_, _, .call (.route n senderID peerID) _⟩ =>
      ∀ b ∈ w.relay.table.bindingOf n peerID, ∀ p ∈ w.proxies.lookup b.addr,
        p.opts.peerDeviceID = senderID
    | _ => True
  | .openProxy a _ _ => ∀ e ∈ w.relay.log, ∀ senderID, routed e ≠ some (senderID, a)
  | _ => True

/-! ## What every run keeps -/

/-- The tag of an event, with respect to the device's own addresses: the frame fits
    the read buffer, and if it came from one of the device's proxies, a BIND among
    them is for the device. -/
def OwnTag (me : UUID) (own : Addr → Bool) (tag : Addr × Bytes) : Prop :=
  tag.2.length ≤ maxPacketSize ∧ (own tag.1 = true → FromDevice me tag.2)

/-- Whatever was routed to a proxy is of the peer that the proxy was created for. -/
def Aimed (w : RelayWorld Addr LAddr) : Prop :=
  ∀ e ∈ w.relay.log, ∀ senderID a, routed e = some (senderID, a) →
    ∀ p, w.proxies.lookup a = some p → p.opts.peerDeviceID = senderID

structure Inv (verify : Verify) (me : UUID) (own : Addr → Bool)
    (w : RelayWorld Addr LAddr) : Prop where
  relay : w.relay.Inv verify
  proxies : ∀ a p, w.proxies.lookup a = some p → own a = true ∧ p.opts.selfDeviceID = me
  sent : ∀ a frame, (a, frame) ∈ w.sent → own a = true → FromDevice me frame
  logged : ∀ e ∈ w.relay.log, OwnTag me own e.tag
  handling : ∀ job, w.relay.job = some job → OwnTag me own (job.src, job.frame)
  right : w.RightPeer verify me
  aimed : w.Aimed

/-- What the proxy for `peer` may write: frames of the device, and payloads of the peer. -/
def Proper (verify : Verify) (me : UUID) (log : List (Event Addr)) (peer : UUID) : Emit LAddr → Prop
  | .toRelay frame => FromDevice me frame
  | .toWireGuard payload _ => SentTo verify log peer me payload

section

variable {verify : Verify} {me : UUID} {own : Addr → Bool}
  {w : RelayWorld Addr LAddr}

theorem init_inv (idleTimeout maxSessions : Int) :
    (init idleTimeout maxSessions : RelayWorld Addr LAddr).Inv verify me own :=
  ⟨inv_init verify idleTimeout maxSessions, nofun, nofun, nofun, nofun, nofun, nofun⟩

variable {a : Addr} {sent : Bool} {frame payload : Bytes} {p : Proxy LAddr}
  {act : ServerAction Addr}

theorem Inv.absorb (h : w.Inv verify me own) {r : Proxy LAddr × List (Emit LAddr)}
    (ha : own a = true) (hself : r.1.opts.selfDeviceID = me)
    (hout : ∀ e ∈ r.2, Proper verify me w.relay.log r.1.opts.peerDeviceID e)
    (hpeer : ∀ e ∈ w.relay.log, ∀ senderID, routed e = some (senderID, a) →
      r.1.opts.peerDeviceID = senderID) : (w.absorb a r).Inv verify me own := by
  refine ⟨h.relay, ?_, ?_, h.logged, h.handling, ?_, ?_⟩
  · intro a' p hp
    rw [RelayWorld.absorb, GoMap.lookup_insert_if] at hp
    split at hp
    · next heq =>
      cases hp
      exact ⟨heq ▸ ha, hself⟩
    · exact h.proxies a' p hp
  · -- What the proxy has just sent to the relay is proper.
    intro a' frame hmem hown
    rcases mem_append.mp hmem with hnew | hold
    · obtain ⟨e, he, heq⟩ := mem_filterMap.mp hnew
      cases e with
      | toRelay f =>
        cases heq
        exact hout _ he
      | toWireGuard payload dst => cases heq
    · exact h.sent a' frame hold hown
  · -- And so is what it has handed to WireGuard.
    intro peer payload hmem
    rcases mem_append.mp hmem with hnew | hold
    · obtain ⟨e, he, heq⟩ := mem_filterMap.mp hnew
      cases e with
      | toRelay f => cases heq
      | toWireGuard payload' dst =>
        cases heq
        exact hout _ he
    · exact h.right peer payload hold
  · intro e he senderID a' hto p hp
    rw [RelayWorld.absorb, GoMap.lookup_insert_if] at hp
    split at hp
    · next heq =>
      cases hp
      exact hpeer e he senderID (heq ▸ hto)
    · exact h.aimed e he senderID a' hto p hp

/-- A proxy that stays, and stays for the same peer. -/
theorem Inv.stays (h : w.Inv verify me own) {r : Proxy LAddr × List (Emit LAddr)}
    (hp : w.proxies.lookup a = some p) (hopts : r.1.opts = p.opts)
    (hout : ∀ e ∈ r.2, Proper verify me w.relay.log p.opts.peerDeviceID e) :
    (w.absorb a r).Inv verify me own := by
  obtain ⟨hown, hself⟩ := h.proxies a p hp
  have hpeer := fun e he senderID hto => h.aimed e he senderID a hto p hp
  rw [← hopts] at hself hout hpeer
  exact h.absorb hown hself hout hpeer

theorem fromDevice_take (h : FromDevice me frame) : FromDevice me (frame.take maxPacketSize) := by
  intro hhead
  rw [head?_take, if_neg (by decide)] at hhead
  obtain ⟨tok, rfl⟩ := h hhead
  refine ⟨tok.take 1500, ?_⟩
  have hlen := me.length_eq
  simp [encodeBind, maxPacketSize, headerLen, take_append, hlen,
    take_of_length_le (show me.bytes.length ≤ 1516 by omega)]

theorem Aimed.relay_step (h : w.Aimed) {r : ServerState Addr}
    (hc : w.BoundForSender (.relay act)) (hstep : w.relay.step verify act = some r) :
    ({ w with relay := r } : RelayWorld Addr LAddr).Aimed := by
  intro e he senderID a hto p hp
  replace he : e ∈ r.log := he
  rcases log_step hstep with heq | ⟨src, frame, c, k, i, rfl, hjob, heq⟩
  · exact h e (heq ▸ he) senderID a hto p hp
  · rcases mem_cons.mp (heq ▸ he) with rfl | hold
    · -- A `Route` that has just been answered: with the address of the receiver's binding.
      cases c with
      | route n s d =>
        have hroute : ((w.relay.table.route i.now n s d).1.map fun dest => (s, dest)) =
            some (senderID, a) := by
          rw [← hto]
          show _ = routed ⟨_, .route n s d, i, (w.relay.table.route i.now n s d).1⟩
          cases (w.relay.table.route i.now n s d).1 <;> rfl
        obtain ⟨dest, hdest, hpair⟩ := map_eq_some_iff.mp hroute
        cases hpair
        obtain ⟨_, _, _, -, -, hheld, -⟩ := (SessionTable.route_spec _ _ _ _ _).2 a hdest
        obtain ⟨b, hb, hab⟩ := map_eq_some_iff.mp hheld
        cases hab
        simp only [BoundForSender, hjob] at hc
        exact hc b hb p hp
      | _ => cases hto
    · exact h e hold senderID a hto p hp

omit [DecidableEq Addr] in
theorem SentTo.of_suffix {log log' : List (Event Addr)} {src dst : UUID}
    (h : SentTo verify log src dst payload) (hlog : log <:+ log') :
    SentTo verify log' src dst payload := by
  obtain ⟨newer, older, ev, n, bs, cs, rfl, hrest⟩ := h
  obtain ⟨newest, rfl⟩ := hlog
  exact ⟨newest ++ newer, older, ev, n, bs, cs, by rw [append_assoc], hrest⟩

theorem Inv.relay_step (h : w.Inv verify me own) {r : ServerState Addr}
    (hc : w.BoundForSender (.relay act)) (hstep : w.relay.step verify act = some r)
    (hsent : ∀ src datagram, act = .recv src datagram → (src, datagram) ∈ w.sent) :
    ({ w with relay := r } : RelayWorld Addr LAddr).Inv verify me own := by
  have htags := tags_step h.logged h.handling ?_ hstep
  · refine ⟨inv_step h.relay hstep, h.proxies, h.sent, htags.1, htags.2, ?_,
      h.aimed.relay_step hc hstep⟩
    exact fun peer payload hmem => (h.right peer payload hmem).of_suffix (log_suffix_step hstep)
  · intro src datagram hact
    refine ⟨length_take_le _ _, ?_⟩
    intro hown
    exact fromDevice_take (h.sent src datagram (hsent src datagram hact) hown)

/-! ## Deliveries -/

theorem mem_of_wrote {log : List (Event Addr)} (h : wrote log a frame = true) :
    ∃ e ∈ log, e.call = .writeToUDP frame a := by
  obtain ⟨e, he, hmatch⟩ := any_eq_true.mp h
  refine ⟨e, he, ?_⟩
  obtain ⟨tag, call, input, answer⟩ := e
  cases call with
  | writeToUDP f d =>
    cases answer with
    | true =>
      obtain ⟨rfl, rfl⟩ := of_decide_eq_true hmatch
      rfl
    | false => cases hmatch
  | bind | lookup | route | touch | recordRelayed | recordDropped => cases hmatch

theorem Inv.sentTo (h : w.Inv verify me own) (ha : own a = true)
    (hwrote : wrote w.relay.log a frame = true) {senderID : UUID}
    (hdec : decodeData (frame.take maxPacketSize) = .ok (senderID, payload)) :
    SentTo verify w.relay.log senderID me payload ∧
      ∃ e ∈ w.relay.log, routed e = some (senderID, a) := by
  obtain ⟨ev, hev, hcall⟩ := mem_of_wrote hwrote
  obtain ⟨newer, older, hlog⟩ := append_of_mem hev
  have hjust := h.relay.justified
  rw [hlog] at hjust
  have hdata : frame.head? = some frameData := by
    have hhead : (frame.take maxPacketSize).head? = some frameData := by
      rw [decodeData_ok_iff.mp hdec]; rfl
    rwa [head?_take, if_neg (by decide)] at hhead
  have hallow := hjust.of_append.1
  rw [hcall] at hallow
  obtain ⟨n, sid, pid, _, i, _, _, -, -, hlast'⟩ := hallow hdata
  obtain ⟨r, rest, n', sid', pid', payload', bs, bd, cs, cd, hlast, -, hroute, hdec', ⟨hbs, hacc⟩,
    ⟨hbd, hacc'⟩, -, -, hlen, hbytes⟩ := hjust.of_append.betweenAuthenticatedPeers hcall hdata
  have hr := (cons.inj (hlast.symm.trans hlast')).1
  rw [hr] at hroute
  cases hroute
  have hto : routed r = some (sid, a) := by rw [hr]; rfl
  -- The frame fits the proxy's buffer, so the proxy decodes exactly what was sent.
  have hfits : frame.take maxPacketSize = frame := take_of_length_le (hlen ▸ (h.logged ev hev).1)
  rw [hfits, eq_encodeData_of_stamped hdec' hbytes, decodeData_encodeData] at hdec
  cases hdec
  -- The BIND that led there came from the device's own address.
  have hme : pid = me := by
    have hmem : bd ∈ w.relay.log := by
      rw [hlog]
      exact mem_append_right _ (mem_cons_of_mem _ (mem_of_find?_eq_some hbd))
    obtain ⟨tok, hframe, -⟩ := hacc'.frame
    obtain ⟨tok', hown⟩ := (h.logged bd hmem).2 (by rw [hacc'.source]; exact ha)
      (by rw [hframe]; rfl)
    have hboth := decodeBind_encodeBind pid tok
    rw [← hframe, hown, decodeBind_encodeBind] at hboth
    exact (Prod.mk.inj (Except.ok.inj hboth)).1.symm
  subst hme
  refine ⟨⟨newer, older, ev, n, bs, cs, hlog, hdec', hbs, hacc⟩, r, ?_, hto⟩
  rw [hlog, hlast]
  exact mem_append_right _ (mem_cons_of_mem _ mem_cons_self)

theorem Inv.deliver (h : w.Inv verify me own) (hp : w.proxies.lookup a = some p)
    (hwrote : wrote w.relay.log a frame = true) :
    (w.absorb a (p.pumpRelayToLocal frame sent)).Inv verify me own := by
  obtain ⟨hown, hself⟩ := h.proxies a p hp
  refine h.stays hp (by simp) fun e he => ?_
  rcases pumpRelayToLocal_emits he with rfl | ⟨sid, payload, dst, hdec, -, rfl⟩
  · exact hself ▸ p.bindFrame_fromDevice
  · obtain ⟨hsent, e, he, hto⟩ := h.sentTo hown hwrote hdec
    rw [h.aimed e he sid a hto p hp]
    exact hsent

/-! ## One step -/

variable {w' : RelayWorld Addr LAddr}

theorem Inv.closeProxy (h : w.Inv verify me own) (a : Addr) :
    ({ w with proxies := w.proxies.erase a } : RelayWorld Addr LAddr).Inv verify me own := by
  have hstill : ∀ {a' p}, (w.proxies.erase a).lookup a' = some p →
      w.proxies.lookup a' = some p := by
    intro a' p hp
    rw [GoMap.lookup_erase_if] at hp
    split at hp
    · cases hp
    · exact hp
  exact ⟨h.relay, fun a' p hp => h.proxies a' p (hstill hp), h.sent, h.logged, h.handling, h.right,
    fun e he senderID a' hto p hp => h.aimed e he senderID a' hto p (hstill hp)⟩

theorem Inv.other (h : w.Inv verify me own) (ha : ¬ own a = true) (frame : Bytes) :
    ({ w with sent := (a, frame) :: w.sent } : RelayWorld Addr LAddr).Inv verify me own := by
  refine ⟨h.relay, h.proxies, ?_, h.logged, h.handling, h.right, h.aimed⟩
  intro a' f hmem hown
  rcases mem_cons.mp hmem with heq | hold
  · cases heq
    exact absurd hown ha
  · exact h.sent a' f hold hown

theorem relay_of_step (hstep : w.step verify me own (.relay act) = some w') :
    ∃ r, w.relay.step verify act = some r ∧ w' = { w with relay := r } ∧
      ∀ src datagram, act = .recv src datagram → (src, datagram) ∈ w.sent := by
  simp only [step] at hstep
  split at hstep
  · next src datagram =>
    split at hstep
    · next hmem =>
      obtain ⟨r, hrelay, rfl⟩ := map_eq_some_iff.mp hstep
      refine ⟨r, hrelay, rfl, ?_⟩
      intro src' datagram' hact
      cases hact
      exact hmem
    · cases hstep
  · next hne =>
    obtain ⟨r, hrelay, rfl⟩ := map_eq_some_iff.mp hstep
    exact ⟨r, hrelay, rfl, fun src datagram hact => absurd hact (hne src datagram)⟩

theorem Inv.step {act : WorldAction Addr LAddr} (h : w.Inv verify me own)
    (hc : w.BoundForSender act) (hstep : w.step verify me own act = some w') :
    w'.Inv verify me own := by
  cases act with
  | openProxy a opts sent =>
    simp only [RelayWorld.step] at hstep
    split at hstep
    · next hcond =>
      obtain ⟨hown, -, hself⟩ := hcond
      split at hstep
      · cases hstep
        exact h
      · next p hnew =>
        -- The proxy is kept only if its first BIND could be sent.
        split at hstep
        · cases hstep
          rw [← opts_of_new hnew] at hself
          exact h.absorb hown hself (forall_mem_singleton.mpr (hself ▸ p.bindFrame_fromDevice))
            fun e he senderID hto => absurd hto (hc e he senderID)
        · cases hstep
          exact h
    · cases hstep
  | closeProxy a =>
    cases hstep
    exact h.closeProxy a
  | wireGuard a src datagram sent =>
    obtain ⟨p, hp, rfl⟩ := map_eq_some_iff.mp hstep
    refine h.stays hp (by simp) fun e he => ?_
    obtain ⟨frame, rfl, hframe⟩ := pumpLocalToRelay_emits he
    exact (h.proxies a p hp).2 ▸ hframe
  | tick a sent =>
    obtain ⟨p, hp, rfl⟩ := map_eq_some_iff.mp hstep
    refine h.stays hp rfl fun e he => ?_
    obtain ⟨frame, rfl, hframe⟩ := keepalive_emits he
    exact (h.proxies a p hp).2 ▸ hframe
  | other a frame =>
    simp only [RelayWorld.step] at hstep
    split at hstep
    · cases hstep
    · next hother =>
      cases hstep
      exact h.other hother frame
  | relay act =>
    obtain ⟨r, hrelay, rfl, hsent⟩ := relay_of_step hstep
    exact h.relay_step hc hrelay hsent
  | deliver a frame sent =>
    simp only [RelayWorld.step] at hstep
    split at hstep
    · cases hstep
    · next p hp =>
      split at hstep
      · next hwrote =>
        cases hstep
        exact h.deliver hp hwrote
      · cases hstep

end

/-! ## Whole runs -/

/-- **Relayed traffic reaches the right peer**, in every state of every run in which the
    receiver of a packet is bound, when the packet is routed, by the proxy for its sender. -/
theorem right_peer_of_bound (verify : Verify) (me : UUID) (own : Addr → Bool)
    (idleTimeout maxSessions : Int) (acts : List (WorldAction Addr LAddr))
    (hbound : Along (step verify me own) BoundForSender (init idleTimeout maxSessions) acts) :
    Throughout (step verify me own) (RightPeer verify me) (init idleTimeout maxSessions) acts := by
  have hinv := hbound.throughout (fun _ _ _ (h : Inv verify me own _) => h.step)
    (init_inv idleTimeout maxSessions)
  exact hinv.mono fun _ h => h.right

/-- Device 1 opens proxies at 11, for device 2, and at 12, for device 3; their BIND
    frames arrive in the given order.  Then device 2, at 21, binds and sends one
    byte to device 1. -/
def twoProxies (first second : Nat) : List (WorldAction Nat Nat) :=
  let call : WorldAction Nat Nat := .relay (.reader ⟨5, true⟩)
  [.openProxy 11 ⟨[1], sampleDevice 1, sampleDevice 2⟩ true,
   .openProxy 12 ⟨[1], sampleDevice 1, sampleDevice 3⟩ true,
   .wireGuard second 7 [0] true,
   .relay (.recv first (encodeBind (sampleDevice 1) [1])), call, call, call,
   .relay (.recv second (encodeBind (sampleDevice 1) [1])), call, call, call,
   .other 21 (encodeBind (sampleDevice 2) [2]),
   .relay (.recv 21 (encodeBind (sampleDevice 2) [2])), call, call, call,
   .other 21 (encodeData (sampleDevice 1) [9]),
   .relay (.recv 21 (encodeData (sampleDevice 1) [9])), call, call, call]

/-- The relay's answer arrives at the proxy that bound last. -/
def delivery (second : Nat) : WorldAction Nat Nat :=
  .deliver second (encodeData (sampleDevice 2) [9]) true

/-- The addresses of device 1's proxies. -/
def ownAddr (a : Nat) : Bool := a < 20

theorem right_peer_of_bound_delivery :
    ∃ w, run (step sampleVerify (sampleDevice 1) ownAddr) (init 0 0)
        (twoProxies 12 11 ++ [delivery 11]) = some w ∧ (sampleDevice 2, [9]) ∈ w.handed ∧
      Throughout (step sampleVerify (sampleDevice 1) ownAddr)
        (RightPeer sampleVerify (sampleDevice 1)) (init 0 0)
        (twoProxies 12 11 ++ [delivery 11]) := by
  refine ⟨_, rfl, by decide, ?_⟩
  apply right_peer_of_bound
  iterate 2 refine along_cons rfl nofun ?_
  iterate 17 refine along_cons rfl trivial ?_
  -- Device 1 is bound at 11 when the packet is routed, by the proxy for device 2.
  refine along_cons rfl ?_ ?_
  · intro b hb p hp
    cases hb
    cases hp
    rfl
  · iterate 2 refine along_cons rfl trivial ?_
    trivial

/-- The proxy for device 3 bound last and hands WireGuard what device 2 sent. -/
theorem misdelivered_to_other_proxy :
    ∃ w, run (step sampleVerify (sampleDevice 1) ownAddr) (init 0 0)
        (twoProxies 11 12 ++ [delivery 12]) = some w ∧
      ¬ w.RightPeer sampleVerify (sampleDevice 1) := by
  refine ⟨_, rfl, ?_⟩
  intro h
  obtain ⟨newer, older, ev, n, bs, cs, hlog, -, hbs, hacc⟩ := h (sampleDevice 3) [9] (by decide)
  obtain ⟨tok, hframe, -⟩ := hacc.frame
  -- No BIND frame for device 3 has ever reached the relay.
  have hmem := mem_append_right newer (mem_cons_of_mem ev (mem_of_find?_eq_some hbs))
  rw [← hlog] at hmem
  have hno := all_eq_true.mp (show List.all _ (fun e : Event Nat =>
    decide (e.tag.2.take 17 ≠ frameBind :: (sampleDevice 3).bytes)) = true by decide) bs hmem
  rw [hframe] at hno
  exact absurd rfl (of_decide_eq_true hno)

end RelayWorld

/-! ## Large payloads -/

section

variable {Addr LAddr : Type} [DecidableEq Addr]

/-- The frames that the relay writes to `b` for a datagram from `a`. -/
def forwardedTo (verify : Verify) (t : SessionTable Addr) (w : Nat → RelayInput)
    (a b : Addr) (datagram : Bytes) : List Bytes :=
  let frame := datagram.take maxPacketSize
  (Prog.exec (Prog.logged relayHandler (a, frame)) (handlePacket verify frame a) w
    (t, [])).2.2.filterMap fun
    | ⟨_, .writeToUDP f d, _, true⟩ => if d = b then some f else none
    | _ => none

/-- What a proxy hands to WireGuard of a frame, with the sender's id that it has decoded. -/
def handedOn (q : Proxy LAddr) (sent : Bool) (frame : Bytes) : List (UUID × Bytes) :=
  (q.pumpRelayToLocal frame sent).2.filterMap fun
    | .toWireGuard payload _ =>
      (decodeData (frame.take maxPacketSize)).toOption.map fun x => (x.1, payload)
    | .toRelay _ => none

/-- What comes of a datagram on its way from WireGuard through the proxy `p` at `a`, the relay
    and the proxy `q` at `b`.  The last arguments say which writes of the proxies succeed. -/
def carried (verify : Verify) (t : SessionTable Addr) (w : Nat → RelayInput)
    (a b : Addr) (p q : Proxy LAddr) (src : LAddr) (datagram : Bytes) (sent sent' : Bool) :
    List (UUID × Bytes) :=
  (p.pumpLocalToRelay src datagram sent).2.flatMap fun
    | .toRelay frame => (forwardedTo verify t w a b frame).flatMap (handedOn q sent')
    | .toWireGuard _ _ => []

variable {verify : Verify} {t : SessionTable Addr} {w : Nat → RelayInput}
  {a b : Addr} {n : String} {s peer : UUID} {payload : Bytes}

theorem forwardedTo_encodeData (hlook : t.lookup a = some ⟨n, s⟩)
    (hroute : (t.route (w 1).now n s peer).1 = some b) :
    forwardedTo verify t w a b (encodeData peer payload) =
      if (w 2).sent then [encodeData s (payload.take 1500)] else [] := by
  have hhandle : handlePacket verify (encodeData peer (payload.take 1500)) a =
      handleData (encodeData peer (payload.take 1500)) a := rfl
  rw [forwardedTo, take_encodeData, hhandle]
  cases hsent : (w 2).sent <;>
    simp [handleData, Prog.exec, Prog.logged, relayHandler, hlook, hroute, hsent, recordDropped,
      Prog.ask]

theorem handedOn_encodeData (q : Proxy LAddr) (sent : Bool) (hlen : payload.length ≤ 1500) :
    handedOn q sent (encodeData s payload) =
      if sent ∧ q.wgAddr.isSome = true then [(s, payload)] else [] := by
  have htake := take_encodeData s payload
  rw [take_of_length_le hlen] at htake
  have hhead : (encodeData s payload).head? = some frameData := rfl
  cases hwg : q.wgAddr <;> cases sent <;>
    simp [handedOn, pumpRelayToLocal, htake, hhead, hwg, frameData, frameBindAck, Except.toOption]

/-- Between devices that are bound, WireGuard gets what the other WireGuard has sent or nothing
    if it is of no more than 1500 bytes, or some write fails, or the receiving proxy does not
    know where its WireGuard is. -/
theorem payload_intact_iff {p q : Proxy LAddr} (hlook : t.lookup a = some ⟨n, s⟩)
    (hroute : (t.route (w 1).now n s p.opts.peerDeviceID).1 = some b) (src : LAddr)
    (sent sent' : Bool) {datagram : Bytes} (hpos : 1 ≤ datagram.length)
    (hmax : datagram.length ≤ maxPacketSize) :
    (∀ x ∈ carried verify t w a b p q src datagram sent sent', x = (s, datagram)) ↔
      datagram.length ≤ 1500 ∨
        ¬ (sent = true ∧ (w 2).sent = true ∧ sent' = true ∧ q.wgAddr.isSome = true) := by
  have hcarry : carried verify t w a b p q src datagram sent sent' =
      if sent = true ∧ (w 2).sent = true ∧ sent' = true ∧ q.wgAddr.isSome = true then
        [(s, datagram.take 1500)] else [] := by
    have hne : datagram ≠ [] := ne_nil_of_length_pos hpos
    have hfits : (datagram.take 1500).length ≤ 1500 := length_take_le _ _
    cases sent with
    | false => simp [carried, pumpLocalToRelay, take_of_length_le hmax, hne]
    | true =>
      simp only [carried, pumpLocalToRelay, take_of_length_le hmax, if_neg hne, if_true,
        flatMap_singleton, forwardedTo_encodeData hlook hroute]
      cases (w 2).sent <;> simp [handedOn_encodeData q sent' hfits]
  have htake : datagram.take 1500 = datagram ↔ datagram.length ≤ 1500 :=
    ⟨fun h => h ▸ length_take_le _ _, take_of_length_le⟩
  rw [hcarry]
  split
  · next hall => simp [hall, htake]
  · next hsome => simp [hsome]

/-- Two devices, bound at the addresses 10 and 20. -/
def pairTable : SessionTable Nat :=
  (((SessionTable.new 0 0).bind 0 "home" (sampleDevice 1) 10 0).2.bind 0 "home" (sampleDevice 2)
    20 0).2

/-- The proxy of device `k` for the other one. -/
def pairProxy (k other : UInt8) : Proxy Nat :=
  ⟨⟨[k], sampleDevice k, sampleDevice other⟩, some 51820, 0, 0, true⟩

theorem payload_intact_iff_pair :
    let out := carried sampleVerify pairTable (fun _ => ⟨0, true⟩) 10 20 (pairProxy 1 2)
      (pairProxy 2 1) 51820 [7] true true
    out ≠ [] ∧ ∀ x ∈ out, x = (sampleDevice 1, [7]) :=
  ⟨by decide,
    (payload_intact_iff rfl rfl 51820 true true (by decide) (by decide)).mpr (.inl (by decide))⟩

/-- A datagram of 1501 bytes arrives without its last byte. -/
theorem payload_cut :
    ¬ ∀ x ∈ carried sampleVerify pairTable (fun _ => ⟨0, true⟩) 10 20 (pairProxy 1 2)
      (pairProxy 2 1) 51820 (replicate 1501 0) true true,
      x = (sampleDevice 1, replicate 1501 0) := by
  decide +kernel

end

end NexusVPN.Relay
