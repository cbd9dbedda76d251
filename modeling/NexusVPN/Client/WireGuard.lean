import NexusVPN.Lib.GoMap
import NexusVPN.Net

/-! # The WireGuard device

    `client/internal/wireguard`: the peers of the interface, as the UAPI set protocol keeps
    them.  A `set` that names a peer which does not exist creates it.  Allowed IPs double as
    the interface's routing table: giving a range to a peer takes it away from the one that
    had it. -/

namespace NexusVPN.Client

open Option

structure PeerConfig where
  publicKey : String
  endpoint : Option UDPAddr
  allowedIPs : List IPRange
  persistentKeepaliveSeconds : Nat

/-- A peer of the interface. -/
structure WGPeer where
  endpoint : Option UDPAddr
  allowedIPs : List IPRange
  persistentKeepalive : Nat

/-- The peers of the interface, by key. -/
abbrev WGDevice := GoMap Bytes WGPeer

/-- What can go wrong with a `set`. -/
inductive WGError where
  | invalidKey
  | ipc (text : String)

/-- The entry without those ranges. -/
def WGPeer.without (e : WGPeer) (ranges : List IPRange) : WGPeer :=
  { e with allowedIPs := e.allowedIPs.filter (· ∉ ranges) }

namespace WGDevice

/-- The entry after `buildPeerUAPI`'s lines have been applied to it: the endpoint only
    if there is one, the keepalive always, the allowed IPs only if there are any. -/
def apply (old : Option WGPeer) (p : PeerConfig) : WGPeer where
  endpoint := p.endpoint <|> old.bind (·.endpoint)
  allowedIPs := if p.allowedIPs.isEmpty then (old.map (·.allowedIPs)).getD [] else p.allowedIPs
  persistentKeepalive := p.persistentKeepaliveSeconds

/-- Every other peer loses the ranges that the peer under `key` is given. -/
def cede (key : Bytes) (ranges : List IPRange) (wg : WGDevice) : WGDevice :=
  GoMap.mapValues (fun key' e => if key' = key then e else e.without ranges) wg

/-- `UpsertPeer`.  `decode` is `base64KeyToHex`, and `fault` what `IpcSet` complains
    about, if it does. -/
def upsertPeer (decode : String → Option Bytes) (fault : Option String) (p : PeerConfig)
    (wg : WGDevice) : Except WGError Unit × WGDevice :=
  match decode p.publicKey with
  | none => (.error .invalidKey, wg)
  | some key =>
    match fault with
    | some text => (.error (.ipc text), wg)
    | none => (.ok (), (cede key p.allowedIPs wg).insert key (apply (wg.lookup key) p))

/-- `UpdateEndpoint`: an upsert that says nothing about allowed IPs. -/
def updateEndpoint (decode : String → Option Bytes) (fault : Option String) (publicKey : String)
    (endpoint : UDPAddr) (wg : WGDevice) : Except WGError Unit × WGDevice :=
  upsertPeer decode fault ⟨publicKey, some endpoint, [], 0⟩ wg

def removePeer (decode : String → Option Bytes) (fault : Option String) (publicKey : String)
    (wg : WGDevice) : Except WGError Unit × WGDevice :=
  match decode publicKey with
  | none => (.error .invalidKey, wg)
  | some key =>
    match fault with
    | some text => (.error (.ipc text), wg)
    | none => (.ok (), wg.erase key)

variable {decode : String → Option Bytes} {fault : Option String} {wg : WGDevice} {key : Bytes}
  {p : PeerConfig}

/-- The peer takes the new settings, and the others lose the ranges that it takes. -/
theorem lookup_upsertPeer (hkey : decode p.publicKey = some key) (key' : Bytes) :
    (upsertPeer decode none p wg).2.lookup key' =
      if key' = key then some (apply (wg.lookup key) p)
      else (wg.lookup key').map (·.without p.allowedIPs) := by
  simp only [upsertPeer, hkey]
  rw [GoMap.lookup_insert_if]
  by_cases heq : key' = key
  · rw [if_pos heq, if_pos heq]
  · rw [if_neg heq, if_neg heq, cede, GoMap.lookup_mapValues]
    simp only [if_neg heq]

theorem allowedIPs_upsertPeer (hkey : decode p.publicKey = some key) (hrng : p.allowedIPs ≠ [])
    (key' : Bytes) :
    ((upsertPeer decode none p wg).2.lookup key').map (·.allowedIPs) =
      if key' = key then some p.allowedIPs
      else ((wg.lookup key').map (·.allowedIPs)).map (·.filter (· ∉ p.allowedIPs)) := by
  rw [lookup_upsertPeer hkey]
  by_cases heq : key' = key
  · rw [if_pos heq, if_pos heq]
    simp [apply, hrng]
  · rw [if_neg heq, if_neg heq, map_map, map_map]
    rfl

theorem isSome_lookup_upsertPeer_ne (h : decode p.publicKey ≠ some key) :
    ((upsertPeer decode fault p wg).2.lookup key).isSome = (wg.lookup key).isSome := by
  cases hdec : decode p.publicKey with
  | none => simp only [upsertPeer, hdec]
  | some k =>
    have hne : key ≠ k := by
      intro heq
      exact h (heq ▸ hdec)
    cases fault with
    | some text => simp only [upsertPeer, hdec]
    | none => rw [lookup_upsertPeer hdec, if_neg hne, isSome_map]

theorem isSome_lookup_upsertPeer (hkey : decode p.publicKey = some key) (key' : Bytes) :
    ((upsertPeer decode none p wg).2.lookup key').isSome ↔
      key' = key ∨ (wg.lookup key').isSome := by
  rw [lookup_upsertPeer hkey]
  by_cases heq : key' = key <;> simp [heq]

theorem lookup_removePeer {publicKey : String} (hkey : decode publicKey = some key)
    (h : (removePeer decode fault publicKey wg).1 = .ok ()) :
    (removePeer decode fault publicKey wg).2.lookup key = none := by
  unfold removePeer at h ⊢
  rw [hkey] at h ⊢
  cases fault with
  | none => exact AList.lookup_erase _ _
  | some text => cases h

theorem lookup_removePeer_of_none {publicKey : String} (h : wg.lookup key = none) :
    (removePeer decode fault publicKey wg).2.lookup key = none := by
  unfold removePeer
  split
  · exact h
  · split
    · exact h
    · rw [GoMap.lookup_erase_if, h]
      split <;> rfl

end WGDevice

end NexusVPN.Client
