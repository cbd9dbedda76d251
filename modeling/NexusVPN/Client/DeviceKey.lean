import NexusVPN.Lib.GoMap
import NexusVPN.Proto

/-! # The machine's keys

    `client/internal/config` and `client/agent/devicekey.go`: one key for the
    installation and one for each network, in a file that is read, changed and written
    back under a lock.  Whatever draws a key takes it as an argument; no key means that
    drawing it failed. -/

namespace NexusVPN.Client

open List Option GoMap

/-- `config.Keypair`. -/
structure Keypair where
  privateKey : String
  publicKey : String
deriving DecidableEq

/-- `Keypair.IsZero`. -/
def Keypair.isZero (kp : Keypair) : Bool := kp.privateKey = "" ∨ kp.publicKey = ""

/-- `config.CachedRegistration`.  The response is kept as protojson, which reads back as
    what was written. -/
structure CachedRegistration where
  response : Proto.RegisterDeviceResponse
  savedAt : Time

/-- `config.NetworkState`, as far as keys and registrations go. -/
structure NetworkState where
  networkID : String
  deviceID : String
  virtualIP : String
  keypair : Keypair
  cidr : String
  dnsServers : List String
  cached : Option CachedRegistration

/-- `&config.NetworkState{NetworkID: networkID}`. -/
def NetworkState.blank (networkID : String) : NetworkState :=
  ⟨networkID, "", "", ⟨"", ""⟩, "", [], none⟩

/-- `config.Config`. -/
structure Config where
  keypair : Keypair
  networks : GoMap String NetworkState

inductive KeyError where
  | generateKey
  | save
  | notJoined (networkID : String)
deriving DecidableEq

/-- `GenerateKeypair`. -/
def generate (drawn : Option Keypair) : Except KeyError Keypair :=
  match drawn with
  | none => .error .generateKey
  | some kp => .ok kp

/-! ## The file -/

/-- `loadLocked`: a file that is missing, or has no key in it, is given one. -/
def loadConfig (drawn : Option Keypair) (file : Option Config) : Except KeyError Config := do
  match file with
  | none => return ⟨← generate drawn, ∅⟩
  | some c => if c.keypair.isZero then return { c with keypair := ← generate drawn } else return c

/-- What an update meets with: the key that is drawn if the file has none, and whether the
    file can be written. -/
structure Access where
  load : Option Keypair
  saves : Bool

/-- `Store.Update`: the file is written only if the change goes through. -/
def updateConfig {α : Type} (access : Access)
    (change : Config → Except KeyError (α × Config)) (file : Option Config) :
    Except KeyError α × Option Config :=
  match loadConfig access.load file >>= change with
  | .error e => (.error e, file)
  | .ok (a, c) => if access.saves then (.ok a, some c) else (.error .save, file)

/-! ## Keys -/

/-- An update for which the caller draws a key as well. -/
structure Draws extends Access where
  key : Option Keypair

/-- The file has a key, and can be written. -/
def Draws.only (key : Option Keypair) : Draws := ⟨⟨none, true⟩, key⟩

/-- The public keys that are drawn. -/
def Draws.keys (draws : Draws) : List String :=
  (draws.load.toList ++ draws.key.toList).map (·.publicKey)

/-- Keys are drawn that have not been drawn before, and no two the same. -/
def Draws.Fresh (made : List String) (draws : Draws) : Prop :=
  (∀ k ∈ draws.keys, k ∉ made) ∧ draws.keys.Nodup

instance (made : List String) (draws : Draws) : Decidable (draws.Fresh made) :=
  inferInstanceAs (Decidable (_ ∧ _))

namespace Config

def keyTaken (c : Config) (publicKey : String) : Bool :=
  c.networks.entries.any fun e => e.2.keypair.publicKey == publicKey

/-- The entry of a network, made if it is not there. -/
def entry (c : Config) (networkID : String) : NetworkState :=
  (c.networks.lookup networkID).getD (.blank networkID)

def setEntry (c : Config) (networkID : String) (st : NetworkState) : Config :=
  { c with networks := c.networks.insert networkID st }

/-- What `deviceKey` does to the configuration: the network's own key, or else the
    installation's if no network has it, or else a new one. -/
def deviceKey (networkID : String) (drawn : Option Keypair) (c : Config) :
    Except KeyError (Keypair × Config) := do
  let st := c.entry networkID
  let c := c.setEntry networkID st
  if !st.keypair.isZero then return (st.keypair, c)
  else if !c.keypair.isZero && !c.keyTaken c.keypair.publicKey then
    return (c.keypair, c.setEntry networkID { st with keypair := c.keypair })
  else
    let kp ← generate drawn
    return (kp, c.setEntry networkID { st with keypair := kp })

/-- What `resetDeviceKey` does to the configuration. -/
def resetDeviceKey (networkID : String) (kp : Keypair) (c : Config) : Config :=
  -- The address came with the old identity and does not survive it.
  c.setEntry networkID { c.entry networkID with keypair := kp, virtualIP := "", deviceID := "" }

/-- What `RotateDeviceKey` does to the configuration. -/
def rotateDeviceKey (kp : Keypair) (c : Config) : Config where
  keypair := kp
  -- Registrations made with the old key are now stale.
  networks := GoMap.mapValues (fun _ st => { st with deviceID := "" }) c.networks

end Config

/-- `Agent.deviceKey`. -/
def deviceKey (networkID : String) (draws : Draws) (file : Option Config) :
    Except KeyError Keypair × Option Config :=
  updateConfig draws.toAccess (Config.deviceKey networkID draws.key) file

/-- `Agent.resetDeviceKey`. -/
def resetDeviceKey (networkID : String) (draws : Draws) (file : Option Config) :
    Except KeyError Unit × Option Config :=
  match generate draws.key with
  | .error e => (.error e, file)
  | .ok kp =>
    updateConfig draws.toAccess (fun c => return ((), c.resetDeviceKey networkID kp)) file

/-- `Agent.ForgetNetwork`. -/
def forgetNetwork (networkID : String) (draws : Draws) (file : Option Config) :
    Except KeyError Unit × Option Config :=
  updateConfig draws.toAccess (fun c =>
    if (c.networks.lookup networkID).isNone then throw (.notJoined networkID)
    else return ((), { c with networks := c.networks.erase networkID })) file

/-- `Agent.RotateDeviceKey`, once the tunnel is down. -/
def rotateDeviceKey (draws : Draws) (file : Option Config) :
    Except KeyError String × Option Config :=
  match generate draws.key with
  | .error e => (.error e, file)
  | .ok kp =>
    updateConfig draws.toAccess (fun c => return (kp.publicKey, c.rotateDeviceKey kp)) file

/-! ## Where keys come from -/

/-- The keys of all networks are in `ok`. -/
def Config.NetworkKeysIn (ok : String → Prop) (c : Config) : Prop :=
  ∀ n st, c.networks.lookup n = some st → ok st.keypair.publicKey

/-- All keys in the file are in `ok`. -/
def FileIn (ok : String → Prop) (file : Option Config) : Prop :=
  ∀ c, file = some c → ok c.keypair.publicKey ∧ c.NetworkKeysIn ok

/-- The keys that are drawn are in `ok`. -/
def Draws.In (ok : String → Prop) (draws : Draws) : Prop :=
  ∀ kp, draws.load = some kp ∨ draws.key = some kp → ok kp.publicKey

open Config

section

variable {ok : String → Prop} {c c' : Config} {n : String} {draws : Draws} {file : Option Config}

theorem FileIn.mono {ok ok' : String → Prop} {file : Option Config} (h : FileIn ok file)
    (himp : ∀ k, ok k → ok' k) : FileIn ok' file :=
  fun c hc => ⟨himp _ (h c hc).1, fun n st hst => himp _ ((h c hc).2 n st hst)⟩

variable {kp : Keypair} {drawn : Option Keypair}

theorem Draws.mem_keys (h : draws.load = some kp ∨ draws.key = some kp) :
    kp.publicKey ∈ draws.keys := by
  refine mem_map_of_mem (mem_append.mpr ?_)
  simpa using h

theorem Draws.in_made (draws : Draws) (made : List String) : draws.In (· ∈ draws.keys ++ made) :=
  fun _ hkp => mem_append_left _ (draws.mem_keys hkp)

theorem Config.NetworkKeysIn.setEntry (h : c.NetworkKeysIn ok) {st : NetworkState}
    (hst : ok st.keypair.publicKey) : (c.setEntry n st).NetworkKeysIn ok := by
  intro n' st' hlook
  simp only [Config.setEntry] at hlook
  rw [lookup_insert_if] at hlook
  split at hlook
  · rw [← some.inj hlook]
    exact hst
  · exact h n' st' hlook

theorem Config.setEntry_setEntry (c : Config) (n : String) (st st' : NetworkState) (n' : String) :
    ((c.setEntry n st).setEntry n st').networks.lookup n' =
      (c.setEntry n st').networks.lookup n' := by
  simp only [Config.setEntry, lookup_insert_if]
  split <;> rfl

theorem Config.not_keyTaken {key : String} (h : c.keyTaken key = false) {st : NetworkState}
    (hst : c.networks.lookup n = some st) : st.keypair.publicKey ≠ key := by
  have hnone := any_eq_false.mp h
  have hmem := AList.mem_lookup_iff.mp (mem_def.mpr hst)
  simpa using hnone _ hmem

theorem Config.deviceKey_cases (h : c.deviceKey n drawn = .ok (kp, c')) :
    ((∃ st, c.networks.lookup n = some st ∧ kp = st.keypair ∧ kp.isZero = false) ∨
      ((c.entry n).keypair.isZero = true ∧ kp = c.keypair ∧ kp.isZero = false ∧
        ∀ n' st, n' ≠ n → c.networks.lookup n' = some st → st.keypair.publicKey ≠ kp.publicKey) ∨
      ((c.entry n).keypair.isZero = true ∧ drawn = some kp)) ∧
    c'.keypair = c.keypair ∧
    ∃ st, st = { c.entry n with keypair := kp } ∧
      ∀ n', c'.networks.lookup n' = (c.setEntry n st).networks.lookup n' := by
  simp only [Config.deviceKey] at h
  split at h
  · next hown =>
    cases h
    refine ⟨.inl ?_, rfl, c.entry n, rfl, fun _ => rfl⟩
    -- A blank entry has no key.
    cases hlook : c.networks.lookup n with
    | none =>
      rw [entry, hlook] at hown
      cases hown
    | some st =>
      rw [entry, hlook] at hown ⊢
      exact ⟨st, rfl, rfl, by simpa using hown⟩
  · next hown =>
    have hblank : (c.entry n).keypair.isZero = true := by simpa using hown
    split at h
    · next hadopt =>
      cases h
      simp only [Bool.and_eq_true, Bool.not_eq_true'] at hadopt
      refine ⟨.inr (.inl ⟨hblank, rfl, hadopt.1, ?_⟩), rfl, _, rfl, setEntry_setEntry c n _ _⟩
      intro n' st hne hst
      refine not_keyTaken (n := n') hadopt.2 ?_
      rw [Config.setEntry, lookup_insert_if, if_neg hne]
      exact hst
    · cases drawn with
      | none => cases h
      | some kp' =>
        cases h
        exact ⟨.inr (.inr ⟨hblank, rfl⟩), rfl, _, rfl, setEntry_setEntry c n _ _⟩

theorem loadConfig_cases (h : loadConfig drawn file = .ok c) :
    (file = none ∧ c.networks = ∅ ∧ drawn = some c.keypair) ∨
    ∃ c₀, file = some c₀ ∧ c.networks = c₀.networks ∧
      (c.keypair = c₀.keypair ∨ drawn = some c.keypair) := by
  cases file with
  | none =>
    cases drawn with
    | none => cases h
    | some kp =>
      cases h
      exact .inl ⟨rfl, rfl, rfl⟩
  | some c₀ =>
    refine .inr ⟨c₀, rfl, ?_⟩
    simp only [loadConfig] at h
    split at h
    · cases drawn with
      | none => cases h
      | some kp =>
        cases h
        exact ⟨rfl, .inr rfl⟩
    · cases h
      exact ⟨rfl, .inl rfl⟩

theorem loadConfig_networks (hfile : ∀ c, file = some c → c.NetworkKeysIn ok)
    (h : loadConfig drawn file = .ok c) : c.NetworkKeysIn ok := by
  intro n st hst
  rcases loadConfig_cases h with ⟨-, hnone, -⟩ | ⟨c₀, rfl, hsame, -⟩
  · rw [hnone] at hst
    cases hst
  · exact hfile c₀ rfl n st (hsame ▸ hst)

theorem loadConfig_in (hfile : FileIn ok file) (hdraws : draws.In ok)
    (h : loadConfig draws.load file = .ok c) : ok c.keypair.publicKey ∧ c.NetworkKeysIn ok := by
  refine ⟨?_, loadConfig_networks (fun c hc => (hfile c hc).2) h⟩
  rcases loadConfig_cases h with ⟨-, -, hdrawn⟩ | ⟨c₀, hc₀, -, hkept | hdrawn⟩
  · exact hdraws _ (.inl hdrawn)
  · exact hkept ▸ (hfile c₀ hc₀).1
  · exact hdraws _ (.inl hdrawn)

/-- The file stays as it is if anything fails. -/
theorem updateConfig_cases {α : Type} (access : Access)
    (change : Config → Except KeyError (α × Config)) (file : Option Config) :
    (∃ e, updateConfig access change file = (.error e, file)) ∨
    ∃ c a c', loadConfig access.load file = .ok c ∧ change c = .ok (a, c') ∧
      updateConfig access change file = (.ok a, some c') := by
  cases hload : loadConfig access.load file with
  | error e => exact .inl ⟨e, by rw [updateConfig, hload]; rfl⟩
  | ok c =>
    have heq : updateConfig access change file = match change c with
        | .error e => (.error e, file)
        | .ok (a, c) => if access.saves then (.ok a, some c) else (.error .save, file) := by
      rw [updateConfig, hload]
      rfl
    rw [heq]
    cases hres : change c with
    | error e => exact .inl ⟨e, rfl⟩
    | ok r =>
      cases access.saves with
      | false => exact .inl ⟨.save, rfl⟩
      | true => exact .inr ⟨c, r.1, r.2, rfl, hres, rfl⟩

theorem deviceKey_cases (n : String) (draws : Draws) (file : Option Config) :
    (∃ e, deviceKey n draws file = (.error e, file)) ∨
    ∃ c kp c', loadConfig draws.load file = .ok c ∧ c.deviceKey n draws.key = .ok (kp, c') ∧
      deviceKey n draws file = (.ok kp, some c') :=
  updateConfig_cases draws.toAccess (Config.deviceKey n draws.key) file

theorem deviceKey_in (hfile : FileIn ok file) (hdraws : draws.In ok) :
    FileIn ok (deviceKey n draws file).2 := by
  rcases deviceKey_cases n draws file with ⟨e, hfails⟩ | ⟨c, kp, c', hload, hres, hdone⟩
  · rw [hfails]
    exact hfile
  · rw [hdone]
    obtain ⟨hinst, hnets⟩ := loadConfig_in hfile hdraws hload
    obtain ⟨hsrc, hsame, st, rfl, hlook⟩ := Config.deviceKey_cases hres
    have hkp : ok kp.publicKey := by
      rcases hsrc with ⟨st', hst', heq, -⟩ | ⟨-, heq, -⟩ | ⟨-, hdrawn⟩
      · exact heq ▸ hnets n st' hst'
      · exact heq ▸ hinst
      · exact hdraws _ (.inr hdrawn)
    rintro _ ⟨⟩
    refine ⟨hsame ▸ hinst, ?_⟩
    intro n' st' hst'
    rw [hlook] at hst'
    exact hnets.setEntry hkp n' st' hst'

theorem deviceKey_entry {file' : Option Config} (h : deviceKey n draws file = (.ok kp, file')) :
    ∃ c c', loadConfig draws.load file = .ok c ∧ file' = some c' ∧
      (∀ m, c'.networks.lookup m =
        if m = n then some { c.entry n with keypair := kp } else c.networks.lookup m) ∧
      ((c.entry n).keypair.isZero = false → kp = (c.entry n).keypair) ∧
      (kp.isZero = false ∨ draws.key = some kp) := by
  rcases deviceKey_cases n draws file with ⟨e, hfails⟩ | ⟨c, kp', c', hload, hkey, hdone⟩
  · rw [hfails] at h
    cases h
  · rw [hdone] at h
    obtain ⟨hok, rfl⟩ := Prod.mk.inj h
    cases hok
    obtain ⟨hsrc, -, st, rfl, hlook⟩ := Config.deviceKey_cases hkey
    refine ⟨c, c', hload, rfl, ?_, ?_, ?_⟩
    · intro m
      rw [hlook, Config.setEntry, lookup_insert_if]
    · intro hown
      -- An entry that has a key keeps it; only a blank one adopts or draws.
      rcases hsrc with ⟨st, hst, heq, -⟩ | ⟨hblank, -⟩ | ⟨hblank, -⟩
      · rw [entry, hst, getD_some]
        exact heq
      · rw [hblank] at hown
        cases hown
      · rw [hblank] at hown
        cases hown
    · rcases hsrc with ⟨-, -, -, hown⟩ | ⟨-, -, hown, -⟩ | ⟨-, hdrawn⟩
      · exact .inl hown
      · exact .inl hown
      · exact .inr hdrawn

theorem deviceKey_stored (h : (deviceKey n draws file).1 = .ok kp) :
    ∃ c st, (deviceKey n draws file).2 = some c ∧ c.networks.lookup n = some st ∧
      st.keypair = kp := by
  obtain ⟨c, c', -, hc', hlook, -⟩ := deviceKey_entry (Prod.ext h rfl)
  exact ⟨c', _, hc', (hlook n).trans (if_pos rfl), rfl⟩

theorem deviceKey_returns (hfile : FileIn ok file) (hdraws : draws.In ok)
    (h : (deviceKey n draws file).1 = .ok kp) : ok kp.publicKey := by
  obtain ⟨c, st, hc, hst, rfl⟩ := deviceKey_stored h
  exact (deviceKey_in hfile hdraws c hc).2 n st hst

theorem resetDeviceKey_cases (n : String) (draws : Draws) (file : Option Config) :
    (∃ e, resetDeviceKey n draws file = (.error e, file)) ∨
    ∃ kp c, draws.key = some kp ∧ loadConfig draws.load file = .ok c ∧
      resetDeviceKey n draws file = (.ok (), some (c.resetDeviceKey n kp)) := by
  unfold resetDeviceKey
  cases hkey : draws.key with
  | none => exact .inl ⟨_, rfl⟩
  | some kp =>
    rcases updateConfig_cases draws.toAccess
      (fun c => return ((), c.resetDeviceKey n kp)) file with
      ⟨e, hfails⟩ | ⟨c, k, c', hload, hres, hdone⟩
    · exact .inl ⟨e, hfails⟩
    · cases hres
      exact .inr ⟨kp, c, rfl, hload, hdone⟩

theorem resetDeviceKey_in (hfile : FileIn ok file) (hdraws : draws.In ok) :
    FileIn ok (resetDeviceKey n draws file).2 := by
  rcases resetDeviceKey_cases n draws file with ⟨e, hfails⟩ | ⟨kp, c, hkey, hload, hdone⟩
  · rw [hfails]
    exact hfile
  · rw [hdone]
    obtain ⟨hinst, hnets⟩ := loadConfig_in hfile hdraws hload
    rintro _ ⟨⟩
    exact ⟨hinst, hnets.setEntry (hdraws kp (.inr hkey))⟩

theorem forgetNetwork_cases (n : String) (draws : Draws) (file : Option Config) :
    (∃ e, forgetNetwork n draws file = (.error e, file)) ∨
    ∃ c, loadConfig draws.load file = .ok c ∧
      forgetNetwork n draws file = (.ok (), some { c with networks := c.networks.erase n }) := by
  rcases updateConfig_cases draws.toAccess _ file with ⟨e, hfails⟩ | ⟨c, k, c', hload, hres, hdone⟩
  · exact .inl ⟨e, hfails⟩
  · split at hres
    · cases hres
    · cases hres
      exact .inr ⟨c, hload, hdone⟩

theorem forgetNetwork_in (hfile : FileIn ok file) (hdraws : draws.In ok) :
    FileIn ok (forgetNetwork n draws file).2 := by
  rcases forgetNetwork_cases n draws file with ⟨e, hfails⟩ | ⟨c, hload, hdone⟩
  · rw [hfails]
    exact hfile
  · rw [hdone]
    obtain ⟨hinst, hnets⟩ := loadConfig_in hfile hdraws hload
    rintro _ ⟨⟩
    refine ⟨hinst, ?_⟩
    intro n' st hst
    rw [lookup_erase_if] at hst
    split at hst
    · cases hst
    · exact hnets n' st hst

theorem rotateDeviceKey_cases (draws : Draws) (file : Option Config) :
    (∃ e, rotateDeviceKey draws file = (.error e, file)) ∨
    ∃ kp c, draws.key = some kp ∧ loadConfig draws.load file = .ok c ∧
      rotateDeviceKey draws file = (.ok kp.publicKey, some (c.rotateDeviceKey kp)) := by
  unfold rotateDeviceKey
  cases hkey : draws.key with
  | none => exact .inl ⟨_, rfl⟩
  | some kp =>
    rcases updateConfig_cases draws.toAccess
      (fun c => return (kp.publicKey, c.rotateDeviceKey kp)) file with
      ⟨e, hfails⟩ | ⟨c, k, c', hload, hres, hdone⟩
    · exact .inl ⟨e, hfails⟩
    · cases hres
      exact .inr ⟨kp, c, rfl, hload, hdone⟩

theorem rotateDeviceKey_in (hfile : ∀ c, file = some c → c.NetworkKeysIn ok)
    (hdraws : draws.In ok) {k : String} (h : (rotateDeviceKey draws file).1 = .ok k) :
    FileIn ok (rotateDeviceKey draws file).2 := by
  rcases rotateDeviceKey_cases draws file with ⟨e, hfails⟩ | ⟨kp, c, hkey, hload, hdone⟩
  · rw [hfails] at h
    cases h
  · rw [hdone]
    rintro _ ⟨⟩
    refine ⟨hdraws kp (.inr hkey), ?_⟩
    intro n st hst
    simp only [Config.rotateDeviceKey, lookup_mapValues] at hst
    obtain ⟨st₀, hst₀, rfl⟩ := map_eq_some_iff.mp hst
    exact loadConfig_networks hfile hload n st₀ hst₀

end

end NexusVPN.Client
