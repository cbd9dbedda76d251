import NexusVPN.Backend.Allocation
import NexusVPN.Client.KeyStrings

/-! # What tells keys apart

    The control plane compares key strings, WireGuard the bytes that they are decoded to.
    Base64 as Go reads it takes several strings for the same bytes. -/

namespace NexusVPN

open List Backend Client Machine WGDevice UAPI Requests

/-! ## The property and the condition -/

/-- The endpoint and the keepalive of a peer, which no other peer shares with it. -/
def Client.WGPeer.own (e : WGPeer) : Option UDPAddr × Nat := (e.endpoint, e.persistentKeepalive)

/-- No two devices have strings for the same key, so installing one of them as a peer does
    not touch what the other is installed with. -/
structure KeysIdentify (p : Requests) : Prop where
  apart : ∀ id id' d d', p.shared.store.devices.get id = some d →
    p.shared.store.devices.get id' = some d' → id ≠ id' →
    ∀ hexKey, base64KeyToHex d.publicKey = .ok hexKey → base64KeyToHex d'.publicKey ≠ .ok hexKey
  untouched : ∀ id id' d d', p.shared.store.devices.get id = some d →
    p.shared.store.devices.get id' = some d' → id ≠ id' →
    ∀ fault cfg wg key', cfg.publicKey = d.publicKey → keyBytes d'.publicKey = some key' →
      ((upsertPeer keyBytes fault cfg wg).2.lookup key').map WGPeer.own =
        (wg.lookup key').map WGPeer.own

/-- If the string is a key at all, then it is spelled as base64 writes it. -/
def CanonicalKey (s : String) : Prop := Base64.Canonical s ∨ keyBytes s = none

instance (s : String) : Decidable (CanonicalKey s) := inferInstanceAs (Decidable (_ ∨ _))

def RegistersCanonical (_ : Requests) : RestStep → Prop
  | .spawn t => ∀ x ∈ t.registers, CanonicalKey x.2.2
  | .advance _ _ => True

instance (p : Requests) : (a : RestStep) → Decidable (RegistersCanonical p a)
  | .spawn t => inferInstanceAs (Decidable (∀ x ∈ t.registers, CanonicalKey x.2.2))
  | .advance _ _ => .isTrue trivial

/-! ## Strings and keys -/

theorem eq_of_keyBytes {s s' : String} (hs : CanonicalKey s) (hs' : CanonicalKey s') {key : Bytes}
    (hkey : keyBytes s = some key) (hkey' : keyBytes s' = some key) : s = s' := by
  have hspelled : ∀ {s}, CanonicalKey s → keyBytes s = some key →
      Base64.encodeToString key = s := by
    intro s hs hkey
    rcases hs with hcanonical | hnone
    · exact (Base64.encodeToString_eq_iff (decodeString_of_keyBytes hkey)).mpr hcanonical
    · rw [hnone] at hkey
      cases hkey
  exact (hspelled hs hkey).symm.trans (hspelled hs' hkey')

theorem own_upsertPeer_ne {fault : Option String} {cfg : PeerConfig} {wg : WGDevice} {key' : Bytes}
    (h : keyBytes cfg.publicKey ≠ some key') :
    ((upsertPeer keyBytes fault cfg wg).2.lookup key').map WGPeer.own =
      (wg.lookup key').map WGPeer.own := by
  cases hkey : keyBytes cfg.publicKey with
  | none => simp only [upsertPeer, hkey]
  | some key =>
    have hne : key' ≠ key := by
      intro heq
      exact h (heq ▸ hkey)
    cases fault with
    | some text => simp only [upsertPeer, hkey]
    | none =>
      rw [lookup_upsertPeer hkey, if_neg hne, Option.map_map]
      rfl

/-! ## Steps -/

theorem create_key_new {lib : StdLib} {i : RepoInput} {s : Store} {d : Device} {id : UUID}
    (h : id ∈ Archive.issuedBy (.devices (.create d))
      (Store.method lib (.devices (.create d)) i s).1) {id' : UUID} {d' : Device}
    (hd' : s.devices.get id' = some d') : d'.publicKey ≠ d.publicKey := by
  rw [Store.method, Store.deviceMethod, DeviceRepo.create] at h
  split at h
  · cases h
  · next hnone =>
    intro heq
    have hkey : d'.id = id' := Table.key_of_get hd'
    have hmem : d' ∈ s.devices.values i.order := by
      rw [Table.mem_values, hkey]
      exact hd'
    exact hnone (any_eq_true.mpr ⟨d', hmem, beq_iff_eq.mpr heq⟩)

/-- No two devices have the same key string. -/
def Backend.Store.KeysUnique (s : Store) : Prop :=
  ∀ id id' d d', s.devices.get id = some d → s.devices.get id' = some d' →
    d.publicKey = d'.publicKey → id = id'

namespace Backend.JournaledRequests

variable {lib : StdLib} {p p' : JournaledRequests} {n : Nat} {i : RepoInput} {t : RestCall}
  {log : Journal repoIface} {c : RepoCall} {k : repoIface.Ans c → RestProg} {a : RestStep}

theorem Move.key_before (h : Move lib p n i t log c k) (hp : p.Sound) {id : UUID} {d' : Device}
    (hd' : (Archive.handler lib c i p.shared).2.store.devices.get id = some d') :
    (∃ d, p.shared.store.devices.get id = some d ∧ d'.publicKey = d.publicKey) ∨
    ∃ d, c = .devices (.create d) ∧ orFresh d.id i.fresh = id ∧ d'.publicKey = d.publicKey ∧
      (∃ x ∈ t.registers, x.2.2 = d.publicKey) ∧
      ∀ id₀ d₀, p.shared.store.devices.get id₀ = some d₀ → d₀.publicKey ≠ d.publicKey := by
  rcases devices_method hd' with ⟨d, hold, hplace⟩ | ⟨d, -, -, hold, -⟩ |
    ⟨d, rfl, hid, hnew, hplace⟩
  · exact .inl ⟨d, hold, Device.publicKey_of_placement hplace⟩
  · obtain ⟨d₀, hd₀⟩ := Option.isSome_iff_exists.mp hold
    obtain ⟨d, hd, hplace⟩ := h.evolves.device (hp.shared.device_issued hd₀) hd'
    exact .inl ⟨d, hd, Device.publicKey_of_placement hplace⟩
  · obtain ⟨hreg, -⟩ := h.fits.2
    exact .inr ⟨d, rfl, hid, Device.publicKey_of_placement hplace, ⟨d.owned, hreg, rfl⟩,
      fun id₀ d₀ hd₀ => create_key_new hnew hd₀⟩

theorem Move.keys_unique (h : Move lib p n i t log c k) (hp : p.Sound)
    (hunique : p.shared.store.KeysUnique) :
    (Archive.handler lib c i p.shared).2.store.KeysUnique := by
  intro id id' d d' hd hd' hsame
  rcases h.key_before hp hd with ⟨e, he, hkey⟩ | ⟨e, hc, hid, hkey, -, hnew⟩
  · rcases h.key_before hp hd' with ⟨e', he', hkey'⟩ | ⟨e', -, -, hkey', -, hnew'⟩
    · exact hunique id id' e e' he he' (by rw [← hkey, ← hkey', hsame])
    · exact absurd (by rw [← hkey, ← hkey', hsame]) (hnew' id e he)
  · rcases h.key_before hp hd' with ⟨e', he', hkey'⟩ | ⟨e', hc', hid', -⟩
    · exact absurd (by rw [← hkey, ← hkey', hsame]) (hnew id' e' he')
    · cases hc.symm.trans hc'
      exact hid.symm.trans hid'

/-- Strings are unique, and all are spelled as base64 writes them. -/
structure Keyed (p : JournaledRequests) : Prop extends p.Sound where
  unique : p.shared.store.KeysUnique
  stored : ∀ id d, p.shared.store.devices.get id = some d → CanonicalKey d.publicKey
  asked : ∀ th ∈ p.threads, ∀ x ∈ th.1.registers, CanonicalKey x.2.2

theorem keyed_idle : Keyed ⟨⟨.empty, [], []⟩, []⟩ where
  toSound := sound_idle
  unique _ _ _ _ h := nomatch h
  stored _ _ h := nomatch h
  asked _ hth := nomatch hth

theorem Keyed.identify (h : p.Keyed) : KeysIdentify p.erase := by
  have hapart : ∀ id id' d d', p.shared.store.devices.get id = some d →
      p.shared.store.devices.get id' = some d' → id ≠ id' →
      ∀ key, keyBytes d.publicKey = some key → keyBytes d'.publicKey ≠ some key := by
    intro id id' d d' hd hd' hne key hkey hkey'
    exact hne (h.unique id id' d d' hd hd' (eq_of_keyBytes (h.stored id d hd) (h.stored id' d' hd')
      hkey hkey'))
  constructor
  · intro id id' d d' hd hd' hne hexKey hhex hhex'
    obtain ⟨key, -, rfl⟩ := base64KeyToHex_ok hhex
    refine hapart id id' d d' hd hd' hne key ?_ ?_
    · rw [keyBytes_of_ok hhex, String.toList_ofList, UUID.unhex_hex]
    · rw [keyBytes_of_ok hhex', String.toList_ofList, UUID.unhex_hex]
  · intro id id' d d' hd hd' hne fault cfg wg key' hcfg hkey'
    refine own_upsertPeer_ne ?_
    intro hkey
    rw [hcfg] at hkey
    exact hapart id id' d d' hd hd' hne key' hkey hkey'

theorem Keyed.step (h : p.Keyed) (hserv : p.AsServed)
    (hunused : Requests.DrawsUnused p.erase a) (hcond : RegistersCanonical p.erase a)
    (hstep : step lib p a = some p') : p'.Keyed := by
  have hsound := h.toSound
  refine ⟨hsound.step hserv hunused hstep, ?_, ?_, ?_⟩
  · exact hsound.shared_step (G := (·.store.KeysUnique)) hserv hunused hstep h.unique
      fun _ _ _ _ _ _ _ hmove => hmove.keys_unique hsound h.unique
  · refine hsound.shared_step (G := fun s => ∀ id d, s.store.devices.get id = some d →
      CanonicalKey d.publicKey) hserv hunused hstep h.stored ?_
    intro n i t log c k _ hmove id d' hd'
    rcases hmove.key_before hsound hd' with ⟨d, hd, hkey⟩ | ⟨d, -, -, hkey, ⟨x, hx, hasked⟩, -⟩
    · rw [hkey]
      exact h.stored id d hd
    · rw [hkey, ← hasked]
      exact h.asked _ (mem_of_getElem? hmove.moving) x hx
  · refine Tracked.each_thread_step hstep h.asked ?_ fun n i t log c k _ _ hth => hth
    rintro t rfl
    exact hcond

end Backend.JournaledRequests

/-- Keys that are spelled as base64 writes them tell the devices apart.  A peer that has been
    installed is found in the device's dump exactly under that spelling. -/
theorem key_strings_identify (lib : StdLib) (as : List RestStep)
    (h : Along (step lib) RegistersCanonical idle as)
    {fault : Option String} {cfg : PeerConfig} {wg : WGDevice} {d : Dump}
    (hok : (upsertPeer keyBytes fault cfg wg).1 = .ok ())
    (hd : d.Reports (upsertPeer keyBytes fault cfg wg).2) :
    Throughout (step lib) KeysIdentify idle as ∧
      (Finds d cfg.publicKey ↔ Base64.Canonical cfg.publicKey) := by
  refine ⟨?_, finds_iff hok hd⟩
  exact throughout JournaledRequests.keyed_idle (fun _ _ _ hq => hq.step) h
    fun _ _ hq => hq.identify

section

open Requests (comesIn goesOn)

/-- The key of 32 zeros, as base64 writes it. -/
def zeroKey : String := "AAAAAAAAAAAAAAAAAAAAAAAAAAAAAAAAAAAAAAAAAAA="

/-- The same key, with a bit set that belongs to no byte. -/
def zeroKeyAgain : String := "AAAAAAAAAAAAAAAAAAAAAAAAAAAAAAAAAAAAAAAAAAB="

/-- The key of 32 ones. -/
def oneKey : String := "AQEBAQEBAQEBAQEBAQEBAQEBAQEBAQEBAQEBAQEBAQE="

theorem base64KeyToHex_zeroKeys {s : String} (h : s = zeroKey ∨ s = zeroKeyAgain) :
    base64KeyToHex s = .ok (String.ofList (UUID.hex (List.replicate 32 0))) := by
  refine base64KeyToHex_of_decode ?_ (length_replicate ..)
  rcases h with rfl | rfl <;> decide +kernel

theorem keyBytes_zeroKeys {s : String} (h : s = zeroKey ∨ s = zeroKeyAgain) :
    keyBytes s = some (List.replicate 32 0) := by
  rw [keyBytes_of_ok (base64KeyToHex_zeroKeys h), String.toList_ofList, UUID.unhex_hex]

/-- A peer to be installed. -/
def peerConfig (key : String) : PeerConfig := ⟨key, none, [], 25⟩

theorem upsertPeer_zeroKeys {s : String} (h : s = zeroKey ∨ s = zeroKeyAgain) :
    (upsertPeer keyBytes none (peerConfig s) ∅).1 = .ok () := by
  simp only [upsertPeer, peerConfig, keyBytes_zeroKeys h]

/-- What the engine says when the key of zeros is its only peer. -/
def zeroKeyDump : Dump where
  interface := []
  interface_other _ h := nomatch h
  peers := [⟨List.replicate 32 0, [], nofun⟩]

theorem zeroKeyDump_reports {s : String} (h : s = zeroKey ∨ s = zeroKeyAgain) :
    zeroKeyDump.Reports (upsertPeer keyBytes none (peerConfig s) ∅).2 := by
  intro key
  rw [isSome_lookup_upsertPeer (p := peerConfig s) (keyBytes_zeroKeys h)]
  simp [zeroKeyDump, eq_comm]

/-- Two devices are registered, one with each string. -/
def twoKeys (key key' : String) : List RestStep :=
  homeCreated ++ comesIn 1 (deviceRegistered key) 6 (deviceDraw 8) ++
    comesIn 2 (deviceCoordinated key') 9 (deviceDraw 9)

theorem key_strings_identify_home :
    Throughout (step homeLib) KeysIdentify idle (twoKeys zeroKey oneKey) ∧
    Finds zeroKeyDump zeroKey := by
  have hboth := key_strings_identify homeLib (twoKeys zeroKey oneKey) (by decide +kernel)
    (upsertPeer_zeroKeys (s := zeroKey) (.inl rfl)) (zeroKeyDump_reports (.inl rfl))
  have hcanonical : Base64.Canonical zeroKey := by decide +kernel
  exact ⟨hboth.1, hboth.2.mpr hcanonical⟩

/-- Both strings are registered, and a peer installed under the second is not found. -/
theorem one_key_two_devices :
    (∃ p, run (step homeLib) idle (twoKeys zeroKey zeroKeyAgain) =
      some p ∧ ¬ KeysIdentify p) ∧
    ∃ (cfg : PeerConfig) (d : Dump),
      (upsertPeer keyBytes none cfg ∅).1 = .ok () ∧
      d.Reports (upsertPeer keyBytes none cfg ∅).2 ∧ ¬ Finds d cfg.publicKey := by
  constructor
  · refine ⟨_, rfl, ?_⟩
    intro h
    exact h.apart (.ofBytes [8]) (.ofBytes [9]) _ _ rfl rfl (by decide) _
      (base64KeyToHex_zeroKeys (.inl rfl)) (base64KeyToHex_zeroKeys (.inr rfl))
  · have hok := upsertPeer_zeroKeys (s := zeroKeyAgain) (.inr rfl)
    have hreports := zeroKeyDump_reports (s := zeroKeyAgain) (.inr rfl)
    refine ⟨peerConfig zeroKeyAgain, zeroKeyDump, hok, hreports, ?_⟩
    rw [finds_iff hok hreports]
    decide +kernel

end

end NexusVPN
