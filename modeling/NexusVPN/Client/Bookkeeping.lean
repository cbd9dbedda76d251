import NexusVPN.Client.Peer
import NexusVPN.Lib.Debts

/-! # What the tunnel has to put away

    Is every WireGuard entry and every open relay proxy accounted for?  An entry is accounted
    for by a peer in `t.peers` or by a goroutine that still has to drop it, a proxy by the peer
    that holds it or by a goroutine that still has to close it.

    * `Books`, `Books.step`: what the steps of the tunnel do to what is listed, held, open and
      installed; `handler_books` says that this is what they do. -/

namespace NexusVPN.Client

open List Option Function GoMap TunnelState WGDevice

/-! ## Debts -/

/-- What a goroutine of the tunnel can owe. -/
inductive Debt where
  /-- Close a proxy, or hand it to its peer. -/
  | close (x : ProxyRef)
  /-- Take the proxy from a peer that is no longer listed. -/
  | empty (pr : PeerRef)
  /-- Remove the entry of a peer that is no longer listed. -/
  | drop (publicKey : String)

/-- What the answer to a call leaves the caller with. -/
def Debt.incurred : (c : TunnelCall) → tunnelIface.Ans c → List Debt
  | .deletePeer _, some pr => [.empty pr, .drop pr.publicKey]
  | .newProxy _ _, some x => [.close x]
  | .establishDirect _, some x => [.close x]
  | .adoptProxy _ _, some x => [.close x]
  | .takeProxy _, some x => [.close x]
  | _, _ => []

def Debt.settled : TunnelCall → List Debt
  | .closeProxy x => [.close x]
  | .adoptProxy _ x => [.close x]
  | .takeProxy pr => [.empty pr]
  | .removeWGPeer publicKey => [.drop publicKey]
  | _ => []

variable {c : TunnelCall}

theorem eq_of_close_mem_settled {x : ProxyRef} (h : .close x ∈ Debt.settled c) :
    c = .closeProxy x ∨ ∃ pr, c = .adoptProxy pr x := by
  cases c <;> simp_all [Debt.settled]

variable {pr : PeerRef}

theorem eq_of_empty_mem_settled (h : .empty pr ∈ Debt.settled c) : c = .takeProxy pr := by
  cases c <;> simp_all [Debt.settled]

theorem eq_of_drop_mem_settled {publicKey : String} (h : .drop publicKey ∈ Debt.settled c) :
    c = .removeWGPeer publicKey := by
  cases c <;> simp_all [Debt.settled]

def ledger : Ledger tunnelIface Debt where
  may
    | .newProxy d _, some x => x.peerDeviceID = d
    | _, _ => True
  fine
    -- A proxy goes to the peer it was opened for, and a new peer comes without one.
    | .adoptProxy pr x => x.peerDeviceID = pr.deviceID
    | .insertPeer _ _ _ vars => vars.proxy = none
    | _ => True
  incurs := Debt.incurred
  settles := Debt.settled

/-! ## Books -/

structure Books where
  peers : GoMap UUID PeerRef
  nextRef : Nat
  proxyOf : PeerRef → Option ProxyRef
  openProxies : List ProxyRef
  nextProxy : Nat
  wg : WGDevice

def TunnelState.books (s : TunnelState) : Books :=
  ⟨s.peers, s.nextRef, fun pr => (s.heap pr).proxy, s.openProxies, s.nextProxy, s.wg⟩

namespace Books

variable (lib : ClientLib)

/-- The books after a step. -/
def step : TunnelCall → TunnelInput → Books → Books
  | .insertPeer d publicKey virtualIP vars, _, b =>
    match b.peers.lookup d with
    | some _ => b
    | none =>
      let pr : PeerRef := ⟨b.nextRef, d, publicKey, virtualIP⟩
      { b with
        peers := b.peers.insert d pr, nextRef := b.nextRef + 1
        proxyOf := update b.proxyOf pr vars.proxy }
  | .deletePeer d, _, b =>
    match b.peers.lookup d with
    | some _ => { b with peers := b.peers.erase d }
    | none => b
  | .establishDirect pr, _, b => { b with proxyOf := update b.proxyOf pr none }
  | .takeProxy pr, _, b => { b with proxyOf := update b.proxyOf pr none }
  | .adoptProxy pr x, _, b => { b with proxyOf := update b.proxyOf pr (some x) }
  | .upsertPeer cfg, i, b =>
    { b with wg := (upsertPeer lib.decodeKey i.fault cfg b.wg).2 }
  | .updateEndpoint publicKey ep, i, b =>
    { b with wg := (updateEndpoint lib.decodeKey i.fault publicKey ep b.wg).2 }
  | .removeWGPeer publicKey, i, b =>
    { b with wg := (WGDevice.removePeer lib.decodeKey i.fault publicKey b.wg).2 }
  | .newProxy d relayAddr, i, b =>
    match i.loopback with
    | none => b
    | some addr =>
      { b with
        openProxies := ⟨b.nextProxy, d, addr, relayAddr⟩ :: b.openProxies
        nextProxy := b.nextProxy + 1 }
  | .closeProxy x, _, b => { b with openProxies := b.openProxies.filter (· ≠ x) }
  | _, _, b => b

/-- What a step leaves its caller with. -/
def incurred : TunnelCall → TunnelInput → Books → List Debt
  | .deletePeer d, _, b =>
    match b.peers.lookup d with
    | some pr => [.empty pr, .drop pr.publicKey]
    | none => []
  | .newProxy d relayAddr, i, b =>
    match i.loopback with
    | none => []
    | some addr => [.close ⟨b.nextProxy, d, addr, relayAddr⟩]
  | .establishDirect pr, _, b => (b.proxyOf pr).toList.map .close
  | .adoptProxy pr _, _, b => (b.proxyOf pr).toList.map .close
  | .takeProxy pr, _, b => (b.proxyOf pr).toList.map .close
  | _, _, _ => []

end Books

/-! ## The tunnel keeps these books -/

open Books

section

variable (lib : ClientLib) (c : TunnelCall) (i : TunnelInput) (s : TunnelState)

theorem books_setVars (pr : PeerRef) (vars : PeerVars) :
    (s.setVars pr vars).books =
      { s.books with proxyOf := update s.books.proxyOf pr vars.proxy } := by
  simp only [books, setVars, Books.mk.injEq, true_and, and_true]
  funext q
  by_cases heq : q = pr
  · subst heq
    simp
  · simp [heq]

variable {s} in
theorem books_setVars_of_proxy {vars : PeerVars} (h : vars.proxy = (s.heap pr).proxy) :
    (s.setVars pr vars).books = s.books := by
  rw [books_setVars, h]
  show { s.books with proxyOf := update s.books.proxyOf pr (s.books.proxyOf pr) } = s.books
  rw [update_eq_self]

theorem observe_proxy (vars : PeerVars) (rxBytes : UInt64) (now : Time) :
    (vars.observe rxBytes now).proxy = vars.proxy := by
  have hreceived : (vars.received rxBytes now).proxy = vars.proxy := by
    unfold PeerVars.received
    split <;> rfl
  unfold PeerVars.observe
  dsimp only
  split
  · exact hreceived
  · split <;> exact hreceived

@[simp] theorem books_peers : s.books.peers = s.peers := rfl

/-- `Books.step` says what the tunnel does to what is listed, held, open and installed. -/
theorem handler_books : (handler lib c i s).2.books = Books.step lib c i s.books := by
  cases c with
  | insertPeer d publicKey virtualIP vars =>
    simp only [handler, insertPeer, Books.step, books_peers]
    cases s.peers.lookup d with
    | some pr => rfl
    | none =>
      -- The new peer's variables bring their proxy along.
      have hvars := books_setVars s ⟨s.nextRef, d, publicKey, virtualIP⟩ vars
      have hproxy := congrArg proxyOf hvars
      simp only [books, Books.mk.injEq, true_and] at hproxy ⊢
      exact ⟨hproxy, rfl, rfl, rfl⟩
  | deletePeer d =>
    simp only [handler, deletePeer, Books.step, books_peers]
    cases s.peers.lookup d <;> rfl
  | establishDirect pr | takeProxy pr | adoptProxy pr x => exact books_setVars s pr _
  | newProxy d relayAddr =>
    simp only [handler, Books.step]
    cases i.loopback <;> rfl
  | beginStart =>
    simp only [handler]
    split <;> rfl
  -- Sections over one peer's variables that leave its proxy where it is.
  | refreshPeer | clearAttempt | setLocalCandidate | setMode => exact books_setVars_of_proxy rfl
  | observe pr rxBytes now => exact books_setVars_of_proxy (observe_proxy _ _ _)
  | beginAttempt pr interval =>
    simp only [handler]
    split
    · rfl
    · exact books_setVars_of_proxy rfl
  | moveEndpoint pr ep =>
    simp only [handler]
    split
    · exact books_setVars_of_proxy rfl
    · rfl
  | _ => rfl

variable {lib c i s} in
theorem listed_of_handler {d : UUID}
    (h : (handler lib c i s).2.peers.lookup d = some pr) :
    s.peers.lookup d = some pr ∨
      ∃ publicKey virtualIP vars, c = .insertPeer d publicKey virtualIP vars ∧
        s.peers.lookup d = none ∧ pr = ⟨s.nextRef, d, publicKey, virtualIP⟩ := by
  have hbooks : (handler lib c i s).2.peers = _ := congrArg Books.peers (handler_books lib c i s)
  rw [hbooks] at h
  cases c with
  | insertPeer d' publicKey virtualIP vars =>
    simp only [Books.step, books_peers] at h
    split at h
    · exact .inl h
    · next hlook =>
      rw [lookup_insert_if] at h
      split at h
      · next hd =>
        subst hd
        exact .inr ⟨publicKey, virtualIP, vars, rfl, hlook, (some.inj h).symm⟩
      · exact .inl h
  | deletePeer d' =>
    simp only [Books.step, books_peers] at h
    split at h
    · rw [lookup_erase_if] at h
      split at h
      · cases h
      · exact .inl h
    · exact .inl h
  | newProxy d' relayAddr =>
    simp only [Books.step] at h
    split at h <;> exact .inl h
  | _ => exact .inl h

theorem handler_incurred : Debt.incurred c (handler lib c i s).1 = incurred c i s.books := by
  cases c with
  | deletePeer d =>
    simp only [handler, deletePeer, incurred, books_peers]
    cases s.peers.lookup d <;> rfl
  | establishDirect pr | adoptProxy pr x | takeProxy pr =>
    simp only [handler, incurred, books]
    cases (s.heap pr).proxy <;> rfl
  | newProxy d relayAddr =>
    simp only [handler, incurred]
    cases i.loopback <;> rfl
  | _ => rfl

theorem handler_may : ledger.may c (handler lib c i s).1 := by
  cases c with
  | newProxy d relayAddr =>
    simp only [handler]
    cases i.loopback with
    | none => trivial
    | some addr => rfl
  | _ => trivial

end

/-! ## Everything is accounted for -/

section

variable (lib : ClientLib) (d : UUID) (key : Bytes) (b : Books) (owed : Debt → Prop)

/-- The device is listed with the key, or somebody still has to drop the key. -/
def InPlay : Prop :=
  (∃ pr, b.peers.lookup d = some pr ∧ lib.decodeKey pr.publicKey = some key) ∨
    ∃ publicKey, lib.decodeKey publicKey = some key ∧ owed (.drop publicKey)

/-- The peer is the one that is listed for the device, or somebody still has to take
    its proxy. -/
def InHand (pr : PeerRef) : Prop := b.peers.lookup d = some pr ∨ owed (.empty pr)

/-- What a step has to observe if nothing of the device is to be left behind. -/
def Timely (i : TunnelInput) : TunnelCall → Prop
  | .upsertPeer cfg => lib.decodeKey cfg.publicKey = some key → InPlay lib d key b owed
  | .updateEndpoint publicKey _ => lib.decodeKey publicKey = some key → InPlay lib d key b owed
  | .adoptProxy pr _ => pr.deviceID = d → pr.ref < b.nextRef ∧ InHand d b owed pr
  | .removeWGPeer publicKey => lib.decodeKey publicKey = some key → i.fault = none
  | _ => True

/-- Every open proxy of the device and the entry under the key are accounted for. -/
structure Balanced : Prop where
  fits : ∀ pr x, b.proxyOf pr = some x → x.peerDeviceID = pr.deviceID
  listed_made : ∀ d' pr, b.peers.lookup d' = some pr → pr.ref < b.nextRef
  holder_made : ∀ pr x, pr.deviceID = d → b.proxyOf pr = some x → pr.ref < b.nextRef
  proxies : ∀ x ∈ b.openProxies, x.peerDeviceID = d →
    owed (.close x) ∨ ∃ pr, b.proxyOf pr = some x ∧ InHand d b owed pr
  keys : (b.wg.lookup key).isSome → InPlay lib d key b owed

end

namespace Balanced

variable {lib : ClientLib} {d : UUID} {key : Bytes} {b : Books} {owed owed' : Debt → Prop}

theorem inHand_mono (h : InHand d b owed pr) (howed : owed (.empty pr) → owed' (.empty pr)) :
    InHand d b owed' pr :=
  h.imp_right howed

theorem inPlay_mono (h : InPlay lib d key b owed)
    (howed : ∀ publicKey, lib.decodeKey publicKey = some key → owed (.drop publicKey) →
      owed' (.drop publicKey)) : InPlay lib d key b owed' := by
  rcases h with hlist | ⟨publicKey, hkey, hdrop⟩
  · exact .inl hlist
  · exact .inr ⟨publicKey, hkey, howed publicKey hkey hdrop⟩

variable {pr₀ : PeerRef}

/-- Who has which proxy when one peer's has been replaced. -/
theorem proxyOf_of_update {x : ProxyRef} {y : Option ProxyRef}
    (h : update b.proxyOf pr₀ y pr = some x) : b.proxyOf pr = some x ∨ pr = pr₀ ∧ y = some x := by
  by_cases heq : pr = pr₀
  · rw [heq, update_self] at h
    exact .inr ⟨heq, h⟩
  · rw [update_of_ne heq] at h
    exact .inl h

theorem proxyOf_of_update_none {x : ProxyRef} (h : update b.proxyOf pr₀ none pr = some x) :
    b.proxyOf pr = some x :=
  (proxyOf_of_update h).resolve_right fun hnew => nomatch hnew.2

variable (h : Balanced lib d key b owed)
include h

section

variable (howed : ∀ x, owed x → owed' x)
include howed

theorem mono : Balanced lib d key b owed' where
  fits := h.fits
  listed_made := h.listed_made
  holder_made := h.holder_made
  proxies := by
    intro x hx hxd
    rcases h.proxies x hx hxd with hclose | ⟨pr, hpr, hhand⟩
    · exact .inl (howed _ hclose)
    · exact .inr ⟨pr, hpr, inHand_mono hhand (howed _)⟩
  keys := fun hk => inPlay_mono (h.keys hk) fun _ _ => howed _

/-- A peer that is new, and holds no proxy. -/
theorem insert {d' : UUID}
    (hnone : b.peers.lookup d' = none) (publicKey virtualIP : String) :
    Balanced lib d key { b with
      peers := b.peers.insert d' ⟨b.nextRef, d', publicKey, virtualIP⟩, nextRef := b.nextRef + 1
      proxyOf := update b.proxyOf ⟨b.nextRef, d', publicKey, virtualIP⟩ none } owed' := by
  have hlist : ∀ pr, b.peers.lookup d = some pr →
      (b.peers.insert d' ⟨b.nextRef, d', publicKey, virtualIP⟩).lookup d = some pr := by
    intro pr hpr
    have hne : d ≠ d' := by
      rintro rfl
      rw [hnone] at hpr
      cases hpr
    rw [AList.lookup_insert_ne hne]
    exact hpr
  refine ⟨fun pr x hx => h.fits pr x (proxyOf_of_update_none hx), ?_, ?_, ?_, ?_⟩
  · intro d'' pr hpr
    rw [lookup_insert_if] at hpr
    split at hpr
    · rw [← some.inj hpr]
      exact Nat.lt_succ_self _
    · exact Nat.lt_succ_of_lt (h.listed_made d'' pr hpr)
  · intro pr x hd hx
    exact Nat.lt_succ_of_lt (h.holder_made pr x hd (proxyOf_of_update_none hx))
  · intro x hx hxd
    rcases h.proxies x hx hxd with hclose | ⟨pr, hpr, hhand⟩
    · exact .inl (howed _ hclose)
    · -- Whoever holds the proxy was made before, so it is not the new peer.
      have hmade := h.holder_made pr x ((h.fits pr x hpr).symm.trans hxd) hpr
      have hne : pr ≠ ⟨b.nextRef, d', publicKey, virtualIP⟩ := by
        rintro rfl
        exact Nat.lt_irrefl _ hmade
      exact .inr ⟨pr, (update_of_ne hne _ _).trans hpr, hhand.imp (hlist pr) (howed _)⟩
  · intro hk
    rcases h.keys hk with ⟨pr, hpr, hdec⟩ | ⟨pk, hdec, hdrop⟩
    · exact .inl ⟨pr, hlist pr hpr, hdec⟩
    · exact .inr ⟨pk, hdec, howed _ hdrop⟩

theorem delete {d' : UUID} (hpr₀ : b.peers.lookup d' = some pr₀)
    (hempty : owed' (.empty pr₀)) (hdrop : owed' (.drop pr₀.publicKey)) :
    Balanced lib d key { b with peers := b.peers.erase d' } owed' := by
  have hlisted : ∀ pr, b.peers.lookup d = some pr →
      pr = pr₀ ∨ (b.peers.erase d').lookup d = some pr := by
    intro pr hpr
    by_cases heq : d = d'
    · subst heq
      exact .inl (some.inj (hpr.symm.trans hpr₀))
    · rw [AList.lookup_erase_ne heq]
      exact .inr hpr
  refine ⟨h.fits, ?_, h.holder_made, ?_, ?_⟩
  · intro d'' pr hpr
    rw [lookup_erase_if] at hpr
    split at hpr
    · cases hpr
    · exact h.listed_made d'' pr hpr
  · intro x hx hxd
    rcases h.proxies x hx hxd with hclose | ⟨pr, hpr, hlist | howe⟩
    · exact .inl (howed _ hclose)
    · rcases hlisted pr hlist with rfl | hstill
      · -- Its holder is the peer that is removed: the remover has to take the proxy.
        exact .inr ⟨pr, hpr, .inr hempty⟩
      · exact .inr ⟨pr, hpr, .inl hstill⟩
    · exact .inr ⟨pr, hpr, .inr (howed _ howe)⟩
  · intro hk
    rcases h.keys hk with ⟨pr, hpr, hdec⟩ | ⟨pk, hdec, howe⟩
    · rcases hlisted pr hpr with rfl | hstill
      · exact .inr ⟨pr.publicKey, hdec, hdrop⟩
      · exact .inl ⟨pr, hstill, hdec⟩
    · exact .inr ⟨pk, hdec, howed _ howe⟩

end

theorem release (pr₀ : PeerRef) (howed : ∀ x, owed x → x ≠ .empty pr₀ → owed' x)
    (hclose : ∀ x, b.proxyOf pr₀ = some x → owed' (.close x)) :
    Balanced lib d key { b with proxyOf := update b.proxyOf pr₀ none } owed' := by
  refine ⟨fun pr x hx => h.fits pr x (proxyOf_of_update_none hx), h.listed_made,
    fun pr x hd hx => h.holder_made pr x hd (proxyOf_of_update_none hx), ?_, ?_⟩
  · intro x hx hxd
    rcases h.proxies x hx hxd with howe | ⟨pr, hpr, hhand⟩
    · exact .inl (howed _ howe (by simp))
    · by_cases heq : pr = pr₀
      · -- What was owed for the peer is now owed for the proxy itself.
        subst heq
        exact .inl (hclose x hpr)
      · exact .inr ⟨pr, (update_of_ne heq _ _).trans hpr,
          hhand.imp_right fun howe => howed _ howe (by simp [heq])⟩
  · exact fun hk => inPlay_mono (h.keys hk) fun _ _ howe => howed _ howe (by simp)

/-- A peer that is in hand takes a proxy over from the caller. -/
theorem adopt {x₀ : ProxyRef} (hfits : x₀.peerDeviceID = pr₀.deviceID)
    (hhand₀ : pr₀.deviceID = d → pr₀.ref < b.nextRef ∧ InHand d b owed pr₀)
    (howed : ∀ x, owed x → x ≠ .close x₀ → owed' x)
    (hclose : ∀ x, b.proxyOf pr₀ = some x → owed' (.close x)) :
    Balanced lib d key { b with proxyOf := update b.proxyOf pr₀ (some x₀) } owed' := by
  refine ⟨?_, h.listed_made, ?_, ?_, ?_⟩
  · intro pr x hx
    rcases proxyOf_of_update hx with hold | ⟨rfl, ⟨⟩⟩
    · exact h.fits pr x hold
    · exact hfits
  · intro pr x hd hx
    rcases proxyOf_of_update hx with hold | ⟨rfl, -⟩
    · exact h.holder_made pr x hd hold
    · exact (hhand₀ hd).1
  · intro x hx hxd
    by_cases heq : x = x₀
    · -- The proxy that is handed over is now held by a peer in hand.
      subst heq
      have hhand := (hhand₀ (hfits.symm.trans hxd)).2
      exact .inr ⟨pr₀, update_self _ _ _, hhand.imp_right fun howe => howed _ howe (by simp)⟩
    · rcases h.proxies x hx hxd with howe | ⟨pr, hpr, hhand⟩
      · exact .inl (howed _ howe (by simp [heq]))
      · by_cases hpr₀ : pr = pr₀
        · -- The proxy that is displaced goes back to the caller.
          subst hpr₀
          exact .inl (hclose x hpr)
        · exact .inr ⟨pr, (update_of_ne hpr₀ _ _).trans hpr,
            hhand.imp_right fun howe => howed _ howe (by simp)⟩
  · exact fun hk => inPlay_mono (h.keys hk) fun _ _ howe => howed _ howe (by simp)

theorem install (howed : ∀ x, owed x → owed' x) {wg : WGDevice}
    (hwg : (wg.lookup key).isSome = (b.wg.lookup key).isSome ∨ InPlay lib d key b owed) :
    Balanced lib d key { b with wg := wg } owed' := by
  have hmono := h.mono howed
  refine ⟨hmono.fits, hmono.listed_made, hmono.holder_made, hmono.proxies, ?_⟩
  intro hk
  rcases hwg with hsame | hplay
  · apply hmono.keys
    rw [← hsame]
    exact hk
  · exact inPlay_mono hplay fun _ _ => howed _

theorem upsert (howed : ∀ x, owed x → owed' x) (fault : Option String) (cfg : PeerConfig)
    (htime : lib.decodeKey cfg.publicKey = some key → InPlay lib d key b owed) :
    Balanced lib d key { b with wg := (upsertPeer lib.decodeKey fault cfg b.wg).2 } owed' := by
  apply h.install howed
  by_cases hkey : lib.decodeKey cfg.publicKey = some key
  · exact .inr (htime hkey)
  · exact .inl (isSome_lookup_upsertPeer_ne hkey)

theorem remove (fault : Option String) (publicKey : String)
    (howed : ∀ x, owed x → x ≠ .drop publicKey → owed' x)
    (htime : lib.decodeKey publicKey = some key → fault = none) :
    Balanced lib d key
      { b with wg := (WGDevice.removePeer lib.decodeKey fault publicKey b.wg).2 } owed' := by
  refine ⟨h.fits, h.listed_made, h.holder_made, ?_, ?_⟩
  · intro x hx hxd
    rcases h.proxies x hx hxd with howe | ⟨pr, hpr, hhand⟩
    · exact .inl (howed _ howe (by simp))
    · exact .inr ⟨pr, hpr, hhand.imp_right fun howe => howed _ howe (by simp)⟩
  · intro hk
    by_cases hkey : lib.decodeKey publicKey = some key
    · -- The engine did not fail, so the entry is gone.
      have hgone :
          (WGDevice.removePeer lib.decodeKey fault publicKey b.wg).2.lookup key = none := by
        apply WGDevice.lookup_removePeer hkey
        rw [htime hkey]
        simp [WGDevice.removePeer, hkey]
      rw [hgone] at hk
      cases hk
    · -- The entry of another key: whoever had to drop this one still has to.
      have hstill : (b.wg.lookup key).isSome := by
        cases hlook : b.wg.lookup key with
        | some e => rfl
        | none =>
          rw [lookup_removePeer_of_none hlook] at hk
          cases hk
      refine inPlay_mono (h.keys hstill) ?_
      intro pk hpk howe
      apply howed _ howe
      intro heq
      rw [Debt.drop.inj heq] at hpk
      exact hkey hpk

theorem openProxy (howed : ∀ x, owed x → owed' x) {x₀ : ProxyRef}
    (hclose : owed' (.close x₀)) (nextProxy : Nat) :
    Balanced lib d key
      { b with openProxies := x₀ :: b.openProxies, nextProxy := nextProxy } owed' := by
  have hmono := h.mono howed
  refine ⟨hmono.fits, hmono.listed_made, hmono.holder_made, ?_, hmono.keys⟩
  exact forall_mem_cons.mpr ⟨fun _ => .inl hclose, hmono.proxies⟩

theorem closeProxy (x₀ : ProxyRef) (howed : ∀ x, owed x → x ≠ .close x₀ → owed' x) :
    Balanced lib d key { b with openProxies := b.openProxies.filter (· ≠ x₀) } owed' := by
  refine ⟨h.fits, h.listed_made, h.holder_made, ?_, ?_⟩
  · intro x hx hxd
    obtain ⟨hopen, hne⟩ := mem_filter.mp hx
    rcases h.proxies x hopen hxd with howe | ⟨pr, hpr, hhand⟩
    · exact .inl (howed _ howe (by simpa using hne))
    · exact .inr ⟨pr, hpr, hhand.imp_right fun howe => howed _ howe (by simp)⟩
  · exact fun hk => inPlay_mono (h.keys hk) fun _ _ howe => howed _ howe (by simp)

theorem step {i : TunnelInput} (hfine : ledger.fine c)
    (htime : Timely lib d key b owed i c) (hkeep : ∀ x, owed x → x ∉ Debt.settled c → owed' x)
    (hnew : ∀ x ∈ incurred c i b, owed' x) :
    Balanced lib d key (Books.step lib c i b) owed' := by
  have hall : Debt.settled c = [] → ∀ x, owed x → owed' x :=
    fun hc x hx => hkeep x hx (hc ▸ not_mem_nil)
  have hrest : ∀ y, Debt.settled c = [y] → ∀ x, owed x → x ≠ y → owed' x :=
    fun y hc x hx hne => hkeep x hx (hc ▸ fun hxy => hne (mem_singleton.mp hxy))
  cases c with
  | insertPeer d' publicKey virtualIP vars =>
    simp only [Books.step]
    cases hlook : b.peers.lookup d' with
    | some pr => exact h.mono (hall rfl)
    | none =>
      -- A peer is listed without a proxy.
      have hproxy : vars.proxy = none := hfine
      rw [hproxy]
      exact h.insert (hall rfl) hlook publicKey virtualIP
  | deletePeer d' =>
    simp only [Books.step, incurred] at hnew ⊢
    cases hlook : b.peers.lookup d' with
    | none => exact h.mono (hall rfl)
    | some pr =>
      rw [hlook] at hnew
      exact h.delete (hall rfl) hlook (hnew _ (by simp)) (hnew _ (by simp))
  | establishDirect pr =>
    refine h.release pr (fun x hx _ => hall rfl x hx) fun x hx => ?_
    exact hnew _ (by simp [incurred, hx])
  | takeProxy pr =>
    refine h.release pr (hrest _ rfl) fun x hx => ?_
    exact hnew _ (by simp [incurred, hx])
  | adoptProxy pr x₀ =>
    refine h.adopt hfine htime (hrest _ rfl) fun x hx => ?_
    exact hnew _ (by simp [incurred, hx])
  | upsertPeer cfg => exact h.upsert (hall rfl) i.fault cfg htime
  | updateEndpoint publicKey ep =>
    exact h.upsert (hall rfl) i.fault ⟨publicKey, some ep, [], 0⟩ htime
  | removeWGPeer publicKey => exact h.remove i.fault publicKey (hrest _ rfl) htime
  | newProxy d' relayAddr =>
    simp only [Books.step, incurred] at hnew ⊢
    cases hloop : i.loopback with
    | none => exact h.mono (hall rfl)
    | some addr =>
      rw [hloop] at hnew
      exact h.openProxy (hall rfl) (hnew _ (by simp)) (b.nextProxy + 1)
  | closeProxy x₀ => exact h.closeProxy x₀ (hrest _ rfl)
  | _ => exact h.mono (hall rfl)

end Balanced

end NexusVPN.Client
