import NexusVPN.Backend.AccessControl
import NexusVPN.Client.DeviceKey

/-! # Rotating the device key

    The client keeps one key for the installation and one for each network, and the
    control plane knows a device by its key.  `RotateDeviceKey` replaces the first of
    these, so what a rotation comes to depends on the other two. -/

namespace NexusVPN

open List Backend Client Prog Option Machine CoordinationService DeviceRepo

/-! ## The system -/

/-- An installation and the control plane, with the history of its keys. -/
structure Installation where
  config : Option Config
  store : Store
  /-- The public keys that have been drawn. -/
  made : List String
  /-- What `deviceKey` has returned, with the network it was asked for. -/
  handed : List (String × String)
  /-- What it had returned when the key was last rotated. -/
  retired : List (String × String)
  /-- The networks on which the device has registered since then. -/
  rejoined : List UUID

/-- An installation without a file yet. -/
def Installation.new (store : Store) : Installation := ⟨none, store, [], [], [], []⟩

inductive KeyStep where
  | deviceKey (networkID : String) (draws : Draws)
  | resetDeviceKey (networkID : String) (draws : Draws)
  | forgetNetwork (networkID : String) (draws : Draws)
  | rotateDeviceKey (draws : Draws)
  /-- `RegisterDevice` with the key of the network, as the user who is logged in. -/
  | register (u n : UUID) (draws : Draws) (input : RegisterDeviceInput)
      (w : Nat → RepoInput)
  /-- Any call on the control plane by anybody else. -/
  | elsewhere (c : RestCall) (w : Nat → RepoInput)

/-- The key that the call registers is not one of this installation. -/
def RestCall.Foreign (made : List String) (c : RestCall) : Prop := ∀ r ∈ c.registers, r.2.2 ∉ made

instance (made : List String) (c : RestCall) : Decidable (RestCall.Foreign made c) :=
  inferInstanceAs (Decidable (∀ r ∈ c.registers, _))

namespace Installation

variable (lib : StdLib)

/-- The file has been rewritten, with keys drawn on the way. -/
def rewritten (s : Installation) (draws : Draws) (config : Option Config) : Installation :=
  { s with config := config, made := draws.keys ++ s.made }

/-- `deviceKey` has been asked. -/
def asked (s : Installation) (networkID : String) (draws : Draws) : Installation :=
  let r := deviceKey networkID draws s.config
  { s.rewritten draws r.2 with
    handed := (r.1.toOption.toList.map fun kp => (networkID, kp.publicKey)) ++ s.handed }

/-- The device registers with the key of the network. -/
def registered (s : Installation) (u n : UUID) (draws : Draws)
    (input : RegisterDeviceInput) (w : Nat → RepoInput) : Installation :=
  match (deviceKey n.string draws s.config).1 with
  | .error _ => s.asked n.string draws
  | .ok kp =>
    let r := (registerDevice u n
      { input with publicKey := kp.publicKey }).run.exec (Store.handler lib) w s.store
    { s.asked n.string draws with
      store := r.2, rejoined := if r.1.toOption.isSome then n :: s.rejoined else s.rejoined }

/-- The key of the installation is rotated. -/
def rotated (s : Installation) (draws : Draws) : Installation :=
  let r := rotateDeviceKey draws s.config
  match r.1 with
  | .error _ => s.rewritten draws r.2
  | .ok _ => { s.rewritten draws r.2 with retired := s.handed, rejoined := [] }

def step (s : Installation) : KeyStep → Option Installation
  | .deviceKey n draws => if draws.Fresh s.made then some (s.asked n draws) else none
  | .resetDeviceKey n draws =>
    if draws.Fresh s.made then
      some (s.rewritten draws (resetDeviceKey n draws s.config).2)
    else none
  | .forgetNetwork n draws =>
    if draws.Fresh s.made then
      some (s.rewritten draws (forgetNetwork n draws s.config).2)
    else none
  | .rotateDeviceKey draws => if draws.Fresh s.made then some (s.rotated draws) else none
  | .register u n draws input w =>
    if draws.Fresh s.made then some (s.registered lib u n draws input w) else none
  | .elsewhere c w =>
    if RestCall.Foreign s.made c then
      some { s with store := ((c.serve lib).run.exec (Store.handler lib) w s.store).2 }
    else none

end Installation

/-! ## The property, and when it holds -/

/-- The keys from before the last rotation are out of use. -/
structure KeysRotated (s : Installation) : Prop where
  /-- `deviceKey` returns none of them, for any network. -/
  renewed : ∀ n draws kp, draws.Fresh s.made → (deviceKey n draws s.config).1 = .ok kp →
    ∀ m, (m, kp.publicKey) ∉ s.retired
  /-- Where the device has registered again, other devices are not told of the one it had. -/
  forgotten : ∀ n ∈ s.rejoined, ∀ id e, s.store.devices.get id = some e → e.networkID = n →
    e.publicKey ∉ s.made → ∀ i peers, (listPeers id i s.store).1 = .ok peers →
    ∀ p ∈ peers, (n.string, p.publicKey) ∉ s.retired

/-- If the step is a rotation: no network of the file has a key that was handed out, and
    no device of the control plane has one that was handed out for its network. -/
def NothingHoldsOldKeys (s : Installation) : KeyStep → Prop
  | .rotateDeviceKey _ =>
    (∀ c, s.config = some c → c.NetworkKeysIn fun k => ∀ m, (m, k) ∉ s.handed) ∧
    ∀ id d, s.store.devices.get id = some d → (d.networkID.string, d.publicKey) ∉ s.handed
  | _ => True

/-! ## Devices and their keys -/

/-- The network and the key of every device are in `ok`. -/
def RowsIn (ok : UUID → String → Prop) (s : Store) : Prop :=
  ∀ id d, s.devices.get id = some d → ok d.networkID d.publicKey

section

variable {lib : StdLib} {ok : UUID → String → Prop}

theorem rowsIn_robust : Robust lib (RowsIn ok) := by
  intro c hc i s hs id d hd
  have howned := (mild_method lib hc i s).1 id
  rw [hd] at howned
  obtain ⟨d₀, hd₀, heq⟩ := map_eq_some_iff.mp howned.symm
  have hrow := hs id d₀ hd₀
  rw [show d₀.networkID = d.networkID from congrArg (·.2.1) heq,
    show d₀.publicKey = d.publicKey from congrArg (·.2.2) heq] at hrow
  exact hrow

theorem rowsIn_admits {u n : UUID} {key : String} (hok : ok n key) :
    Admits lib (RowsIn ok) u n key := by
  intro c d i s hs _ hplace howned id d' hd'
  rcases (placed_method lib hplace i s).2 id d' hd' with hnew | hold
  · rw [howned] at hnew
    rw [show d'.networkID = n from congrArg (·.2.1) hnew,
      show d'.publicKey = key from congrArg (·.2.2) hnew]
    exact hok
  · exact hs id d' hold

theorem rowsIn_serve {s : Store} (hs : RowsIn ok s) (c : RestCall)
    (hc : ∀ u n key, c.registers = some (u, n, key) → ok n key) (w : Nat → RepoInput) :
    RowsIn ok ((c.serve lib).run.exec (Store.handler lib) w s).2 :=
  serve_keeps lib rowsIn_robust c (fun u n key hreg => rowsIn_admits (hc u n key hreg))
    (fun _ hr i s hs id d hd => hs id d (removes_method hr i s hd)) hs w

end

theorem mem_listPeers {s : Store} {id : UUID} {e p : Device} {i : RepoInput} {peers : List Device}
    (he : s.devices.get id = some e) (hpeers : (listPeers id i s).1 = .ok peers)
    (hp : p ∈ peers) : s.devices.get p.id = some p ∧ p.networkID = e.networkID := by
  simp only [listPeers, he] at hpeers
  cases hpeers
  have hmem := (perm_insertionSort _ _).mem_iff.mp hp
  obtain ⟨hvalue, hsame⟩ := mem_filter.mp hmem
  simp only [Bool.and_eq_true, beq_iff_eq] at hsame
  exact ⟨Table.mem_values.mp hvalue, hsame.1⟩

/-! ## The invariant -/

/-- Handed-out keys have been drawn, and those from before the last rotation are held
    neither by the file nor by the control plane. -/
structure KeysTracked (s : Installation) : Prop where
  file_made : FileIn (· ∈ s.made) s.config
  handed_made : ∀ m k, (m, k) ∈ s.handed → k ∈ s.made
  retired_handed : ∀ x ∈ s.retired, x ∈ s.handed
  file : FileIn (fun k => ∀ m, (m, k) ∉ s.retired) s.config
  rows : RowsIn (fun n k => (n.string, k) ∉ s.retired) s.store

section

variable {lib : StdLib} {s : Installation} {draws : Draws}

theorem not_handed (hfresh : draws.Fresh s.made)
    (hmade : ∀ m k, (m, k) ∈ s.handed → k ∈ s.made) :
    draws.In fun k => ∀ m, (m, k) ∉ s.handed :=
  fun _ hkp m hm => hfresh.1 _ (draws.mem_keys hkp) (hmade m _ hm)

section

variable (h : KeysTracked s) (hfresh : draws.Fresh s.made)
include h hfresh

theorem KeysTracked.not_retired : draws.In fun k => ∀ m, (m, k) ∉ s.retired :=
  fun kp hkp m hm => not_handed hfresh h.handed_made kp hkp m (h.retired_handed _ hm)

theorem KeysTracked.rewritten {config : Option Config}
    (hcfg : ∀ ok, FileIn ok s.config → draws.In ok → FileIn ok config) :
    KeysTracked (s.rewritten draws config) := by
  have hgrow : ∀ k, k ∈ s.made → k ∈ draws.keys ++ s.made :=
    fun k hk => mem_append_right _ hk
  exact {
    file_made := hcfg _ (h.file_made.mono hgrow) (draws.in_made s.made)
    handed_made := fun m k hk => hgrow k (h.handed_made m k hk)
    retired_handed := h.retired_handed
    file := hcfg _ h.file (h.not_retired hfresh)
    rows := h.rows }

theorem KeysTracked.returns {n : String}
    {kp : Keypair} (hkp : (deviceKey n draws s.config).1 = .ok kp) :
    kp.publicKey ∈ draws.keys ++ s.made ∧ ∀ m, (m, kp.publicKey) ∉ s.retired := by
  have hgrow := h.file_made.mono fun k hk => mem_append_right draws.keys hk
  exact ⟨deviceKey_returns hgrow (draws.in_made s.made) hkp,
    deviceKey_returns h.file (h.not_retired hfresh) hkp⟩

theorem KeysTracked.asked (n : String) : KeysTracked (s.asked n draws) := by
  have hfile : KeysTracked (s.rewritten draws (deviceKey n draws s.config).2) :=
    h.rewritten hfresh fun ok hok hdraws => deviceKey_in hok hdraws
  refine { hfile with handed_made := ?_, retired_handed := ?_ }
  · intro m k hk
    rcases mem_append.mp hk with hnew | hold
    · obtain ⟨kp, hmem, heq⟩ := mem_map.mp hnew
      cases heq
      have hkp : (deviceKey n draws s.config).1 = .ok kp := by
        cases hres : (deviceKey n draws s.config).1 with
        | error e =>
          rw [hres] at hmem
          cases hmem
        | ok kp' =>
          rw [hres] at hmem
          rw [mem_singleton.mp hmem]
      exact (h.returns hfresh hkp).1
    · exact hfile.handed_made m k hold
  · exact fun x hx => mem_append_right _ (h.retired_handed x hx)

theorem KeysTracked.registered (u n : UUID)
    (input : RegisterDeviceInput) (w : Nat → RepoInput) :
    KeysTracked (s.registered lib u n draws input w) := by
  have hasked := h.asked hfresh n.string
  unfold Installation.registered
  split
  · exact hasked
  · next kp hkp =>
    refine { hasked with rows := ?_ }
    -- The row is filed under the key that `deviceKey` returned.
    refine rowsIn_serve h.rows (.coordinate u n { input with publicKey := kp.publicKey }) ?_ w
    intro u' n' key hreg
    obtain ⟨rfl, rfl, rfl⟩ : u = u' ∧ n = n' ∧ kp.publicKey = key := by
      simpa [RestCall.registers] using hreg
    exact (h.returns hfresh hkp).2 _

theorem KeysTracked.rotated
    (hclean : NothingHoldsOldKeys s (.rotateDeviceKey draws)) : KeysTracked (s.rotated draws) := by
  have hgrow : ∀ k, k ∈ s.made → k ∈ draws.keys ++ s.made :=
    fun k hk => mem_append_right _ hk
  unfold Installation.rotated
  dsimp only
  split
  · next e he =>
    -- A rotation that fails leaves the file as it was.
    refine h.rewritten hfresh ?_
    intro ok hok _
    rcases rotateDeviceKey_cases draws s.config with ⟨e', hfails⟩ | ⟨kp, c, -, -, hdone⟩
    · rw [hfails]
      exact hok
    · rw [hdone] at he
      cases he
  · next k hk =>
    have hmade : FileIn (· ∈ draws.keys ++ s.made) (rotateDeviceKey draws s.config).2 :=
      rotateDeviceKey_in (fun c hc => ((h.file_made.mono hgrow) c hc).2) (draws.in_made s.made) hk
    have hnew := rotateDeviceKey_in hclean.1 (not_handed hfresh h.handed_made) hk
    exact {
      file_made := hmade
      handed_made := fun m k hk => hgrow k (h.handed_made m k hk)
      retired_handed := fun _ hx => hx
      file := hnew
      rows := hclean.2 }

end

/-- As long as nothing else holds an old key, none comes back. -/
theorem KeysTracked.step {s' : Installation} {a : KeyStep} (h : KeysTracked s)
    (hclean : NothingHoldsOldKeys s a) (hstep : s.step lib a = some s') : KeysTracked s' := by
  cases a with
  | deviceKey n draws =>
    obtain ⟨hfresh, ⟨⟩⟩ := ite_none_right_eq_some.mp hstep
    exact h.asked hfresh n
  | resetDeviceKey n draws =>
    obtain ⟨hfresh, ⟨⟩⟩ := ite_none_right_eq_some.mp hstep
    exact h.rewritten hfresh fun ok hok hdraws => resetDeviceKey_in hok hdraws
  | forgetNetwork n draws =>
    obtain ⟨hfresh, ⟨⟩⟩ := ite_none_right_eq_some.mp hstep
    exact h.rewritten hfresh fun ok hok hdraws => forgetNetwork_in hok hdraws
  | rotateDeviceKey draws =>
    obtain ⟨hfresh, ⟨⟩⟩ := ite_none_right_eq_some.mp hstep
    exact h.rotated hfresh hclean
  | register u n draws input w =>
    obtain ⟨hfresh, ⟨⟩⟩ := ite_none_right_eq_some.mp hstep
    exact h.registered hfresh u n input w
  | elsewhere c w =>
    obtain ⟨hforeign, ⟨⟩⟩ := ite_none_right_eq_some.mp hstep
    refine { h with rows := rowsIn_serve h.rows c ?_ w }
    intro u n key hreg hret
    exact hforeign (u, n, key) hreg (h.handed_made _ _ (h.retired_handed _ hret))

theorem KeysTracked.keysRotated (h : KeysTracked s) : KeysRotated s where
  renewed n draws kp hfresh hkp := (h.returns hfresh hkp).2
  forgotten n _ id e he hn _ i peers hpeers p hp := by
    obtain ⟨hrow, hsame⟩ := mem_listPeers he hpeers hp
    have hnot := h.rows p.id p hrow
    rwa [hsame, hn] at hnot

end

/-! ## Whole runs -/

open Installation

/-- As long as no rotation finds an old key still in use, the keys from before the last
    rotation are out of use at all times. -/
theorem rotation_retires_keys (lib : StdLib) (store : Store) (as : List KeyStep)
    (hclean : Along (step lib) NothingHoldsOldKeys (.new store) as) :
    Throughout (step lib) KeysRotated (.new store) as := by
  have hstart : KeysTracked (.new store) := {
    file_made := by intro c hc; cases hc
    handed_made := by intro m k hk; cases hk
    retired_handed := by intro x hx; cases hx
    file := by intro c hc; cases hc
    rows := by intro id d _ hret; cases hret }
  have hkept := Along.throughout (fun s a s' h hc hstep => h.step hc hstep) hstart hclean
  exact hkept.mono fun s h => h.keysRotated

/-- A network with a desktop of somebody else's on it, and a user who is about to join
    with a laptop. -/
def deskStore : Store :=
  { Store.empty with
    networks := Table.empty.put ⟨.ofBytes [7], "home", "", "10.77.0.0/24", [], .ofBytes [2], "code",
      none, true, true, 0, 0, 0, 0, .unset⟩
    members := (Table.empty.put ⟨.nil, .ofBytes [7], .ofBytes [2], .owner, 0⟩).put
      ⟨.nil, .ofBytes [7], .ofBytes [1], .member, 0⟩
    devices := Table.empty.put (newDevice (.ofBytes [9]) (.ofBytes [2]) (.ofBytes [7]) "desktop"
      "linux" "" "desk key" "10.77.0.9" false) }

/-- The laptop is taken off the network, on both sides, before its key is rotated. -/
def retiringRun : List KeyStep :=
  [.register (.ofBytes [1]) (.ofBytes [7]) ⟨⟨some ⟨"secret", "old key"⟩, true⟩, none⟩
    ⟨"", "laptop", "linux", "", false⟩ (fun _ => default),
   .forgetNetwork (UUID.ofBytes [7]).string (.only none),
   .elsewhere (.deleteDevice .nil (.ofBytes [1])) (fun _ => default),
   .rotateDeviceKey (.only (some ⟨"new secret", "new key"⟩)),
   .register (.ofBytes [1]) (.ofBytes [7]) (.only none) ⟨"", "laptop", "linux", "", false⟩
    (fun _ => default)]

theorem rotation_retires_keys_laptop :
    Throughout (step lenientLib) KeysRotated (.new deskStore) retiringRun := by
  refine rotation_retires_keys lenientLib deskStore retiringRun ?_
  refine along_cons rfl trivial (along_cons rfl trivial
    (along_cons rfl trivial (along_cons rfl ⟨?_, ?_⟩ (along_cons rfl trivial trivial))))
  · intro c hc n st hst
    cases hc
    cases hst
  · -- Only the desktop is left.
    intro id d hd
    have hentry := AList.mem_lookup_iff.mp (mem_def.mpr hd)
    obtain ⟨rfl, hdesk⟩ := Sigma.mk.inj (mem_singleton.mp hentry)
    obtain rfl := eq_of_heq hdesk
    decide

/-- The laptop registers, rotates its key, and registers again. -/
def rotatingRun : List KeyStep :=
  [.register (.ofBytes [1]) (.ofBytes [7]) ⟨⟨some ⟨"secret", "old key"⟩, true⟩, none⟩
    ⟨"", "laptop", "linux", "", false⟩ (fun _ => default),
   .rotateDeviceKey (.only (some ⟨"new secret", "new key"⟩)),
   .register (.ofBytes [1]) (.ofBytes [7]) (.only none) ⟨"", "laptop", "linux", "", false⟩
    (fun _ => default)]

/-- After the rotation the network still has the old key, and the desktop is still told
    of it. -/
theorem rotation_keeps_network_key :
    ∃ s, run (step lenientLib) (.new deskStore) rotatingRun = some s ∧
      ¬ KeysRotated s ∧
      (deviceKey (UUID.ofBytes [7]).string (.only none) s.config).1 =
        .ok ⟨"secret", "old key"⟩ ∧
      ((UUID.ofBytes [7]).string, "old key") ∈ s.retired ∧
      ∃ peers, (listPeers (.ofBytes [9]) default s.store).1 = .ok peers ∧
        "old key" ∈ peers.map (·.publicKey) := by
  refine ⟨_, rfl, ?_, rfl, ?_, _, rfl, ?_⟩
  · intro h
    exact h.renewed (UUID.ofBytes [7]).string (.only none) ⟨"secret", "old key"⟩ (by decide) rfl
      (UUID.ofBytes [7]).string (by decide)
  · decide
  · decide

end NexusVPN
