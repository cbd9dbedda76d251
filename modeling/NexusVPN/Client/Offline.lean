import NexusVPN.Client.Connect
import NexusVPN.Lib.Machine

/-! # Connecting without the control plane

    A tunnel that comes up on a remembered registration is as good as that registration:
    it should have been made with the key that the tunnel uses, and the control plane
    should not have said no since.  The cache, the key and the handling of refusals are in
    three different functions, so this is a matter of whole histories of attempts. -/

namespace NexusVPN.Client

open List Option GoMap Machine Client

/-! ## The system -/

/-- An agent, and the registrations that it has attempted, newest first. -/
structure Journey where
  agent : Agent
  asked : List Asked

inductive JourneyStep where
  | connect (networkID : String) (first : Attempt) (reset : Draws) (second : Attempt)
  | disconnect
  | rotateDeviceKey (draws : Draws)
  | forgetNetwork (networkID : String) (draws : Draws)

/-- A key that `GenerateKeypair` draws is not zero. -/
def Draws.Proper (draws : Draws) : Prop := ∀ kp ∈ draws.key, kp.isZero = false

instance (draws : Draws) : Decidable draws.Proper := inferInstanceAs (Decidable (∀ kp ∈ _, _))

def Journey.step (s : Journey) : JourneyStep → Option Journey
  | .connect n first reset second =>
    if first.draws.Proper ∧ reset.Proper ∧ second.draws.Proper then
      let o := connect n first reset second s.agent
      some ⟨o.agent, o.asked ++ s.asked⟩
    else none
  | .disconnect => some { s with agent := { s.agent with tun := none } }
  -- `RotateDeviceKey` disconnects first.
  | .rotateDeviceKey draws =>
    some { s with agent := ⟨(rotateDeviceKey draws s.agent.config).2, none⟩ }
  | .forgetNetwork n draws =>
    some { s with
      agent := { s.agent with config := (forgetNetwork n draws s.agent.config).2 } }

/-! ## The property, and when it holds -/

/-- The registration was obtained with this key, and the network has not been refused
    since. -/
def Current (asked : List Asked) (n : String) (kp : Keypair)
    (resp : Proto.RegisterDeviceResponse) : Prop :=
  ∃ later earlier, asked = later ++ ⟨n, kp, .accepted resp⟩ :: earlier ∧
    ∀ a ∈ later, a.networkID = n → a.answer.refused = false

variable {resp : Proto.RegisterDeviceResponse} {kp : Keypair} {asked : List Asked}

theorem current_cons {a : Asked} {n : String} :
    Current (a :: asked) n kp resp ↔ a = ⟨n, kp, .accepted resp⟩ ∨
      ((a.networkID = n → a.answer.refused = false) ∧ Current asked n kp resp) := by
  constructor
  · rintro ⟨later, earlier, heq, hlater⟩
    cases later with
    | nil => exact .inl (List.cons.inj heq).1
    | cons b later =>
      obtain ⟨rfl, rfl⟩ := List.cons.inj heq
      exact .inr ⟨hlater _ mem_cons_self, later, earlier, rfl,
        fun c hc => hlater c (mem_cons_of_mem _ hc)⟩
  · rintro (rfl | ⟨ha, later, earlier, rfl, hlater⟩)
    · exact ⟨[], asked, rfl, fun c hc => nomatch hc⟩
    · refine ⟨a :: later, earlier, rfl, ?_⟩
      exact forall_mem_cons.mpr ⟨ha, hlater⟩

theorem not_current_nil {n : String} : ¬ Current [] n kp resp := by
  rintro ⟨later, earlier, heq, -⟩
  simp at heq

instance decidableCurrent (n : String) (kp : Keypair) (resp : Proto.RegisterDeviceResponse) :
    (asked : List Asked) → Decidable (Current asked n kp resp)
  | [] => isFalse not_current_nil
  | _ :: asked =>
    have := decidableCurrent n kp resp asked
    decidable_of_iff _ current_cons.symm

/-- A tunnel that came up on a remembered registration came up on a current one. -/
def UpOnCurrentAnswer (s : Journey) : Prop :=
  ∀ conn ∈ s.agent.tun, conn.fromCache = true →
    Current s.asked conn.networkID conn.keypair conn.response

instance (s : Journey) : Decidable (UpOnCurrentAnswer s) :=
  inferInstanceAs (Decidable (∀ conn ∈ _, _))

/-- If the step connects to a network for which a registration is remembered, it is not
    refused. -/
def NotRefused (s : Journey) : JourneyStep → Prop
  | .connect n first _ _ =>
    ∀ c ∈ s.agent.config, ∀ st ∈ c.networks.lookup n, st.cached.isSome = true →
      (first.answer st.keypair.publicKey).refused = false
  | _ => True

instance (s : Journey) (a : JourneyStep) : Decidable (NotRefused s a) := by
  unfold NotRefused
  split <;> infer_instance

/-! ## What is remembered -/

/-- What the entry remembers is current for the key that it has. -/
def Sound (asked : List Asked) (n : String) (st : NetworkState) : Prop :=
  ∀ cached ∈ st.cached, st.keypair.isZero = false ∧ Current asked n st.keypair cached.response

def FileSound (asked : List Asked) (file : Option Config) : Prop :=
  ∀ c ∈ file, ∀ n, ∀ st ∈ c.networks.lookup n, Sound asked n st

section

variable {file file' : Option Config} {c : Config} {n : String} {drawn : Option Keypair}

section

variable (h : FileSound asked file)
include h

theorem FileSound.load (hload : loadConfig drawn file = .ok c)
    {st : NetworkState} (hst : st ∈ c.networks.lookup n) : Sound asked n st := by
  rcases loadConfig_cases hload with ⟨-, hnone, -⟩ | ⟨c₀, hc₀, hsame, -⟩
  · rw [hnone] at hst
    cases hst
  · exact h c₀ hc₀ n st (hsame ▸ hst)

theorem FileSound.entry (hload : loadConfig drawn file = .ok c)
    (n : String) : Sound asked n (c.entry n) := by
  unfold Config.entry
  cases hst : c.networks.lookup n with
  | none => exact nofun
  | some st => exact h.load hload hst

theorem FileSound.edit {f : NetworkState → NetworkState} {access : Access}
    (hf : ∀ c, loadConfig access.load file = .ok c → Sound asked n (f (c.entry n))) :
    FileSound asked (updateConfig access
      (fun c => return ((), c.setEntry n (f (c.entry n)))) file).2 := by
  rcases updateConfig_cases access (fun c => return ((), c.setEntry n (f (c.entry n)))) file with
    ⟨e, hfails⟩ | ⟨c, a, c', hload, hres, hdone⟩
  · rw [hfails]
    exact h
  · rw [hdone]
    obtain ⟨-, rfl⟩ := Prod.mk.inj (Except.ok.inj hres)
    intro c₁ hc₁ m st hst
    cases hc₁
    rw [Config.setEntry, lookup_insert_if] at hst
    split at hst
    · next hm =>
      rw [hm, ← some.inj hst]
      exact hf c hload
    · exact h.load hload hst

theorem FileSound.cons {a : Asked}
    (ha : ∀ c ∈ file, ∀ st ∈ c.networks.lookup a.networkID, st.cached.isSome = true →
      a.answer.refused = false) : FileSound (a :: asked) file := by
  intro c hc m st hst cached hcach
  obtain ⟨hzero, hcur⟩ := h c hc m st hst cached hcach
  refine ⟨hzero, current_cons.mpr (.inr ⟨?_, hcur⟩)⟩
  rintro rfl
  exact ha c hc st hst (isSome_iff_exists.mpr ⟨cached, hcach⟩)

end

variable {draws : Draws}

theorem FileSound.deviceKey (h : FileSound asked file)
    (hkey : deviceKey n draws file = (.ok kp, file')) : FileSound asked file' := by
  obtain ⟨c, c', hload, rfl, hlook, hsame, -⟩ := deviceKey_entry hkey
  intro c₁ hc₁ m st hst
  cases hc₁
  rw [hlook] at hst
  split at hst
  · next hm =>
    subst hm
    rw [← some.inj hst]
    intro cached hcach
    obtain ⟨hzero, hcur⟩ := h.entry hload m cached hcach
    rw [hsame hzero]
    exact ⟨hzero, hcur⟩
  · exact h.load hload hst

theorem FileSound.remember {now : Time} {access : Access}
    (h : FileSound (⟨n, kp, .accepted resp⟩ :: asked) file') (hzero : kp.isZero = false)
    (hkey : Client.deviceKey n draws file = (.ok kp, file')) :
    FileSound (⟨n, kp, .accepted resp⟩ :: asked)
      (rememberRegistration n resp now access file') := by
  refine h.edit (f := fun st => { st with cached := some ⟨resp, now⟩ }) ?_
  intro c₁ hload
  obtain ⟨c, c', -, rfl, hlook, -⟩ := deviceKey_entry hkey
  have hkeypair : (c₁.entry n).keypair = kp := by
    rcases loadConfig_cases hload with ⟨hnone, -⟩ | ⟨c₀, hc₀, hsame, -⟩
    · cases hnone
    · cases hc₀
      rw [Config.entry, hsame, hlook, if_pos rfl, getD_some]
  intro cached hcach
  cases hcach
  rw [hkeypair]
  exact ⟨hzero, current_cons.mpr (.inl rfl)⟩

theorem FileSound.comeUp (h : FileSound asked file) (t : Attempt) (conn : Connection) :
    FileSound asked (comeUp t conn file).2.config := by
  rcases comeUp_cases t conn file with hup | hfails
  · rw [hup]
    -- The key and what is remembered stay as they are.
    exact h.edit (f := fun st => { st with
        deviceID := conn.response.deviceId, virtualIP := conn.response.assignedVirtualIp
        cidr := conn.response.networkCidr, dnsServers := conn.response.dnsServers })
      fun c hload => h.entry hload conn.networkID
  · rw [hfails]
    exact h

theorem FileSound.cached_of_deviceKey (h : FileSound asked file)
    (hkey : Client.deviceKey n draws file = (.ok kp, file')) {st : NetworkState}
    (hst : ∃ c ∈ file', st ∈ c.networks.lookup n) (hcach : st.cached.isSome = true) :
    ∃ c ∈ file, ∃ st ∈ c.networks.lookup n, st.cached.isSome = true ∧ st.keypair = kp := by
  obtain ⟨c, c', hload, rfl, hlook, hsame, -⟩ := deviceKey_entry hkey
  obtain ⟨c₁, hc₁, hst⟩ := hst
  cases hc₁
  rw [hlook, if_pos rfl] at hst
  cases hst
  obtain ⟨cached, hmem⟩ := isSome_iff_exists.mp hcach
  have hzero := (h.entry hload n cached hmem).1
  rcases loadConfig_cases hload with ⟨-, hnone, -⟩ | ⟨c₀, hc₀, hsame₀, -⟩
  · -- A file that did not exist remembers nothing.
    rw [Config.entry, hnone] at hmem
    cases hmem
  · refine ⟨c₀, hc₀, c.entry n, ?_, hcach, (hsame hzero).symm⟩
    cases hentry : c.networks.lookup n with
    | none =>
      rw [Config.entry, hentry] at hmem
      cases hmem
    | some st =>
      rw [Config.entry, hentry, getD_some, ← hsame₀]
      exact hentry

end

/-! ## Attempts -/

open Journey

section

variable {s s' : Journey} {n : String} {t : Attempt}

/-- What holds at all times. -/
structure Journey.Safe (s : Journey) : Prop where
  file : FileSound s.asked s.agent.config
  up : UpOnCurrentAnswer s

variable {file : Option Config}

theorem Journey.Safe.down (h : FileSound asked file) : Safe ⟨⟨file, none⟩, asked⟩ := ⟨h, nofun⟩

theorem Journey.Safe.comeUp (h : FileSound asked file) {conn : Connection}
    (hconn : conn.fromCache = true → Current asked conn.networkID conn.keypair conn.response) :
    Safe ⟨(comeUp t conn file).2, asked⟩ := by
  refine ⟨h.comeUp t conn, ?_⟩
  rcases comeUp_cases t conn file with hup | hfails
  · intro conn' hconn'
    rw [hup] at hconn'
    cases hconn'
    exact hconn
  · intro conn' hconn'
    rw [hfails] at hconn'
    cases hconn'

/-- The answer to a registration, where what is remembered is not refused. -/
theorem Journey.Safe.answered {file' : Option Config} {cfg : Config} (h : FileSound asked file)
    (hload : loadConfig t.authed file = .ok cfg)
    (hkey : Client.deviceKey n t.draws file = (.ok kp, file')) (hprop : t.draws.Proper)
    (hnot : ∀ c ∈ file, ∀ st ∈ c.networks.lookup n, st.cached.isSome = true →
      (t.answer st.keypair.publicKey).refused = false) :
    Safe ⟨(Client.answered n t cfg kp file').2, ⟨n, kp, t.answer kp.publicKey⟩ :: asked⟩ := by
  have hasked : FileSound (⟨n, kp, t.answer kp.publicKey⟩ :: asked) file' := by
    refine (h.deviceKey hkey).cons ?_
    intro c hc st hst hcach
    obtain ⟨c₀, hc₀, st₀, hst₀, hcached₀, rfl⟩ := h.cached_of_deviceKey hkey ⟨c, hc, hst⟩ hcach
    exact hnot c₀ hc₀ st₀ hst₀ hcached₀
  rcases answered_cases n t cfg kp file' with
    ⟨resp, hans, hres⟩ | ⟨err, hans, ⟨-, hres⟩ | ⟨cached, hsil, hcach, hres⟩ | ⟨-, hres⟩⟩
  · rw [hres]
    rw [hans] at hasked ⊢
    obtain ⟨c, c', -, -, -, -, hzero⟩ := deviceKey_entry hkey
    have hown : kp.isZero = false := hzero.elim id fun hdrawn => hprop kp hdrawn
    exact Journey.Safe.comeUp (hasked.remember hown hkey) nofun
  · rw [hres]
    exact Journey.Safe.down hasked
  · -- The key is the one that the entry had when the registration was remembered.
    rw [hres]
    obtain ⟨hmem, -⟩ := filter_eq_some_iff.mp hcach
    obtain ⟨st, hst, hcached'⟩ := bind_eq_some_iff.mp hmem
    obtain ⟨hzero, hcur⟩ := h.load hload hst cached hcached'
    have hsame : kp = st.keypair := by
      obtain ⟨c, c', hload', -, -, hsame, -⟩ := deviceKey_entry hkey
      have hentry : c.entry n = st := by
        have hnets : c.networks = cfg.networks := by
          rcases loadConfig_cases hload with ⟨rfl, hnone, -⟩ | ⟨c₀, rfl, heq, -⟩
          · rw [hnone] at hst
            cases hst
          · rcases loadConfig_cases hload' with ⟨hnone, -⟩ | ⟨c₁, hc₁, heq', -⟩
            · cases hnone
            · cases hc₁
              rw [heq, heq']
        rw [Config.entry, hnets, hst, getD_some]
      rw [← hentry]
      exact hsame (hentry ▸ hzero)
    refine Journey.Safe.comeUp hasked fun _ => ?_
    rw [hsame] at hsil ⊢
    exact current_cons.mpr (.inr ⟨fun _ => hsil, hcur⟩)
  · rw [hres]
    exact Journey.Safe.down hasked

theorem Journey.Safe.connectOnce (h : s.Safe) (hprop : t.draws.Proper)
    (hnot : ∀ c ∈ s.agent.config, ∀ st ∈ c.networks.lookup n, st.cached.isSome = true →
      (t.answer st.keypair.publicKey).refused = false) :
    Safe ⟨(connectOnce n t s.agent).agent,
      (connectOnce n t s.agent).asked ++ s.asked⟩ := by
  rcases connectOnce_cases n t s.agent with
    ⟨-, e, -, hres⟩ | ⟨cfg, kp, file, -, hload, hkey, ⟨-, hres⟩ | ⟨-, hres⟩⟩
  · rw [hres]
    exact ⟨h.file, h.up⟩
  · rw [hres]
    exact Journey.Safe.down (h.file.deviceKey hkey)
  · rw [hres]
    exact Journey.Safe.answered h.file hload hkey hprop hnot

/-- If the key is refused, then nothing was remembered for the network, and nothing is. -/
theorem Journey.Safe.stale (h : s.Safe)
    (hnot : ∀ c ∈ s.agent.config, ∀ st ∈ c.networks.lookup n, st.cached.isSome = true →
      (t.answer st.keypair.publicKey).refused = false)
    (hstale : (Client.connectOnce n t s.agent).result = .error .staleDeviceKey) :
    ∀ c ∈ (Client.connectOnce n t s.agent).agent.config, ∀ st ∈ c.networks.lookup n,
      st.cached = none := by
  rcases connectOnce_cases n t s.agent with
    ⟨-, e, hne, hres⟩ | ⟨cfg, kp, file, -, hload, hkey, ⟨-, hres⟩ | ⟨-, hres⟩⟩
  · rw [hres] at hstale
    exact absurd (Except.error.inj hstale) hne
  · rw [hres] at hstale
    cases hstale
  · have href : (t.answer kp.publicKey).refused = true ∧
        (Client.answered n t cfg kp file).2.config = file := by
      have hcomeUp : ∀ conn file', (Client.comeUp t conn file').1 ≠ .error .staleDeviceKey := by
        intro conn file'
        rcases comeUp_cases t conn file' with hup | hfails
        · rw [hup]
          simp
        · rw [hfails]
          simp
      rw [hres] at hstale
      rcases answered_cases n t cfg kp file with
        ⟨resp, hans, hres'⟩ | ⟨err, hans, ⟨herr, hres'⟩ | ⟨c, -, -, hres'⟩ | ⟨-, hres'⟩⟩
      · rw [hres'] at hstale
        exact absurd hstale (hcomeUp _ _)
      · rw [hans, hres']
        exact ⟨by simp [Answer.refused, herr], rfl⟩
      · rw [hres'] at hstale
        exact absurd hstale (hcomeUp _ _)
      · rw [hres'] at hstale
        cases hstale
    intro c hc st hst
    rw [hres, show _ = file from href.2] at hc
    by_contra hcach
    obtain ⟨c₀, hc₀, st₀, hst₀, hcached₀, rfl⟩ := h.file.cached_of_deviceKey hkey
      ⟨c, hc, hst⟩ (isSome_iff_ne_none.mpr hcach)
    rw [hnot c₀ hc₀ st₀ hst₀ hcached₀] at href
    cases href.1

/-- A network for which nothing is remembered gets a fresh key. -/
theorem FileSound.reset (h : FileSound asked file)
    (hnone : ∀ c ∈ file, ∀ st ∈ c.networks.lookup n, st.cached = none) (draws : Draws) :
    FileSound asked (resetDeviceKey n draws file).2 ∧
    ∀ c ∈ (resetDeviceKey n draws file).2, ∀ st ∈ c.networks.lookup n, st.cached = none := by
  rcases resetDeviceKey_cases n draws file with ⟨e, hfails⟩ | ⟨kp, c, -, hload, hdone⟩
  · rw [hfails]
    exact ⟨h, hnone⟩
  · rw [hdone]
    have hentry : (c.entry n).cached = none := by
      unfold Config.entry
      cases hst : c.networks.lookup n with
      | none => rfl
      | some st =>
        rcases loadConfig_cases hload with ⟨-, hempty, -⟩ | ⟨c₀, hc₀, hsame, -⟩
        · rw [hempty] at hst
          cases hst
        · exact hnone c₀ hc₀ st (hsame ▸ hst)
    have hlook : ∀ m, (c.resetDeviceKey n kp).networks.lookup m =
        if m = n then some { c.entry n with keypair := kp, virtualIP := "", deviceID := "" }
        else c.networks.lookup m := fun m => lookup_insert_if ..
    refine ⟨?_, ?_⟩
    · intro c₁ hc₁ m st hst
      cases hc₁
      rw [hlook] at hst
      split at hst
      · rw [← some.inj hst]
        intro cached hcach
        rw [hentry] at hcach
        cases hcach
      · exact h.load hload hst
    · intro c₁ hc₁ st hst
      cases hc₁
      rw [hlook, if_pos rfl] at hst
      rw [← some.inj hst]
      exact hentry

theorem Journey.Safe.connect {first second : Attempt} {reset : Draws} (h : s.Safe)
    (hprop : first.draws.Proper ∧ reset.Proper ∧ second.draws.Proper)
    (hnot : NotRefused s (.connect n first reset second)) :
    Safe ⟨(connect n first reset second s.agent).agent,
      (connect n first reset second s.agent).asked ++ s.asked⟩ := by
  have hfirst := h.connectOnce hprop.1 hnot
  unfold Client.connect
  dsimp only
  split
  · next hstale =>
    have hreset := hfirst.file.reset (h.stale hnot hstale) reset
    cases hres : resetDeviceKey n reset (Client.connectOnce n first s.agent).agent.config with
    | mk r file =>
      rw [hres] at hreset
      have hagain : Safe ⟨⟨file, (Client.connectOnce n first s.agent).agent.tun⟩,
          (Client.connectOnce n first s.agent).asked ++ s.asked⟩ := ⟨hreset.1, hfirst.up⟩
      cases r with
      | error e => exact hagain
      | ok u =>
        -- Nothing is remembered that could be refused the second time.
        have hsnd := hagain.connectOnce (n := n) (t := second) hprop.2.2 ?_
        · rw [append_assoc]
          exact hsnd
        · intro c hc st hst hcach
          rw [hreset.2 c hc st hst] at hcach
          cases hcach
  · exact hfirst

theorem Journey.Safe.step {a : JourneyStep} (h : s.Safe) (hnot : NotRefused s a)
    (hstep : s.step a = some s') : s'.Safe := by
  cases a with
  | connect n first reset second =>
    obtain ⟨hprop, ⟨⟩⟩ := ite_none_right_eq_some.mp hstep
    exact h.connect hprop hnot
  | disconnect =>
    cases hstep
    exact Journey.Safe.down h.file
  | rotateDeviceKey draws =>
    cases hstep
    refine Journey.Safe.down ?_
    rcases rotateDeviceKey_cases draws s.agent.config with ⟨e, hfails⟩ | ⟨kp, c, -, hload, hdone⟩
    · rw [hfails]
      exact h.file
    · -- The networks keep their keys.
      rw [hdone]
      intro c₁ hc₁ m st hst
      cases hc₁
      rw [Config.rotateDeviceKey, lookup_mapValues] at hst
      obtain ⟨st₀, hst₀, rfl⟩ := map_eq_some_iff.mp hst
      have hsound := h.file.load hload hst₀
      exact hsound
  | forgetNetwork n draws =>
    cases hstep
    refine ⟨?_, h.up⟩
    rcases forgetNetwork_cases n draws s.agent.config with ⟨e, hfails⟩ | ⟨c, hload, hdone⟩
    · rw [hfails]
      exact h.file
    · rw [hdone]
      intro c₁ hc₁ m st hst
      cases hc₁
      rw [lookup_erase_if] at hst
      split at hst
      · cases hst
      · exact h.file.load hload hst

end

/-! ## Whole runs -/

/-- As long as no network is refused for which a registration is remembered, the tunnel
    comes up only on registrations that are current. -/
theorem up_on_current_answer (file : Option Config)
    (hfile : ∀ c ∈ file, ∀ n, ∀ st ∈ c.networks.lookup n, st.cached = none)
    (as : List JourneyStep)
    (hnot : Along step NotRefused ⟨⟨file, none⟩, []⟩ as) :
    Throughout step UpOnCurrentAnswer ⟨⟨file, none⟩, []⟩ as := by
  have hstart : Safe ⟨⟨file, none⟩, []⟩ := by
    refine Journey.Safe.down ?_
    intro c hc n st hst cached hcach
    rw [hfile c hc n st hst] at hcach
    cases hcach
  have hkept := Along.throughout (fun s a s' h hc hstep => Journey.Safe.step h hc hstep) hstart hnot
  exact hkept.mono fun s h => h.up

/-- An attempt on which everything depends on the answer. -/
def attempt (answer : Answer) : Attempt where
  authed := some ⟨"secret", "old key"⟩
  ready := true
  draws := ⟨⟨some ⟨"secret", "old key"⟩, true⟩, none⟩
  opens := true
  answer := fun _ => answer
  now := 1
  remember := ⟨none, true⟩
  configures := fun _ => true
  persist := ⟨none, true⟩

def registration : Proto.RegisterDeviceResponse := ⟨"device", "10.77.0.2", "10.77.0.0/24", [], []⟩

def silence : Answer := .failed ⟨.unavailable, false⟩

/-- The phone connects to `home`, and disconnects. -/
def connectedOnce : List JourneyStep :=
  [.connect "home" (attempt (.accepted registration)) (.only none) (attempt silence), .disconnect]

/-- Away from home, nothing answers. -/
def awayFromHome : JourneyStep := .connect "home" (attempt silence) (.only none) (attempt silence)

theorem up_on_current_answer_away :
    Throughout step UpOnCurrentAnswer ⟨⟨none, none⟩, []⟩ (connectedOnce ++ [awayFromHome]) :=
  up_on_current_answer none (by simp) _ (by decide +kernel)

/-- The control plane says that the session has expired, and is out of reach the next
    time. -/
def refusedThenAway : List JourneyStep :=
  connectedOnce ++ [.connect "home" (attempt (.failed ⟨.unauthenticated, false⟩)) (.only none)
    (attempt silence), awayFromHome]

/-- The key is refused, and nothing answers when the fresh one is tried. -/
def resetThenSilent : List JourneyStep :=
  connectedOnce ++ [.connect "home" (attempt (.failed ⟨.permissionDenied, false⟩))
    (.only (some ⟨"new secret", "new key"⟩)) (attempt silence)]

/-- The first tunnel comes up although the control plane has said no, the second one with a
    key for which nothing was ever accepted. -/
theorem up_on_refused_answer :
    (∃ s, run step ⟨⟨none, none⟩, []⟩ refusedThenAway = some s ∧ ¬ UpOnCurrentAnswer s) ∧
    ∃ s, run step ⟨⟨none, none⟩, []⟩ resetThenSilent = some s ∧
      ¬ UpOnCurrentAnswer s ∧
      s.agent.tun = some ⟨"home", ⟨"new secret", "new key"⟩, registration, true⟩ := by
  refine ⟨⟨_, rfl, ?_⟩, ⟨_, rfl, ?_, rfl⟩⟩
  · decide +kernel
  · decide +kernel

end NexusVPN.Client
