import NexusVPN.KeyRotation

/-! # One network for each key

    The control plane files a device under its key and on one network, so a key that was
    ever presented on one network is no good on another.  `deviceKey` sees to that by what
    the file still says: the installation's key is handed to a network if no other network
    has it now. -/

namespace NexusVPN

open List Backend Client Option Machine Installation

/-! ## The property, and when it holds -/

/-- The network has this key in the file. -/
def Client.Config.Holds (c : Config) (n k : String) : Prop :=
  ∃ st ∈ c.networks.lookup n, st.keypair.isZero = false ∧ st.keypair.publicKey = k

instance (c : Config) (n k : String) : Decidable (c.Holds n k) :=
  inferInstanceAs (Decidable (∃ st ∈ _, _))

/-- An installation that starts with this file, whose keys have been drawn before. -/
def Installation.opened (file : Option Config) (store : Store) : Installation :=
  { new store with
    config := file
    made := file.toList.flatMap fun c =>
      c.keypair.publicKey :: c.networks.entries.map (·.2.keypair.publicKey) }

/-- No two networks have one key in the file. -/
def KeysDistinct (file : Option Config) : Prop :=
  ∀ c ∈ file, ∀ n n' k, c.Holds n k → c.Holds n' k → n = n'

/-- What `deviceKey` has returned for one network it has returned for no other. -/
def OneNetworkPerKey (s : Installation) : Prop :=
  ∀ n n' k, (n, k) ∈ s.handed → (n', k) ∈ s.handed → n = n'

/-- If the step resets or forgets a network, it is not one that has the installation's
    key. -/
def SparesAdopted (s : Installation) : KeyStep → Prop
  | .resetDeviceKey n _ | .forgetNetwork n _ =>
    ∀ c ∈ s.config, ¬ c.Holds n c.keypair.publicKey
  | _ => True

instance (s : Installation) (a : KeyStep) : Decidable (SparesAdopted s a) := by
  unfold SparesAdopted
  split <;> infer_instance

/-! ## The invariant -/

/-- The key was handed out for the network, or the file has it there. -/
def Installation.Uses (s : Installation) (n k : String) : Prop :=
  (n, k) ∈ s.handed ∨ ∃ c ∈ s.config, c.Holds n k

/-- Every key belongs to one network, and the installation's key is still with the network
    that it was handed out for. -/
structure KeysApart (s : Installation) : Prop where
  file_made : FileIn (· ∈ s.made) s.config
  handed_made : ∀ m k, (m, k) ∈ s.handed → k ∈ s.made
  distinct : ∀ n n' k, s.Uses n k → s.Uses n' k → n = n'
  adopted : ∀ c ∈ s.config, c.keypair.isZero = false →
    ∀ m, (m, c.keypair.publicKey) ∈ s.handed → c.Holds m c.keypair.publicKey

section

variable {lib : StdLib} {s s' : Installation} {draws : Draws} {c c' : Config} {n k : String}

theorem Client.Config.Holds.made {ok : String → Prop} (h : c.Holds n k) (hc : c.NetworkKeysIn ok) :
    ok k := by
  obtain ⟨st, hst, -, rfl⟩ := h
  exact hc n st hst

theorem KeysApart.uses_made (h : KeysApart s) (huses : s.Uses n k) : k ∈ s.made := by
  rcases huses with hhand | ⟨c, hc, hholds⟩
  · exact h.handed_made n k hhand
  · exact hholds.made (h.file_made c hc).2

/-- The file as it is read has the same networks, and a key of the installation that was
    drawn on the way has not been handed out. -/
theorem KeysApart.load (h : KeysApart s) (hfresh : draws.Fresh s.made)
    (hload : loadConfig draws.load s.config = .ok c) :
    (∀ m k, c.Holds m k ↔ ∃ c₀ ∈ s.config, c₀.Holds m k) ∧
    (c.keypair.isZero = false → ∀ m, (m, c.keypair.publicKey) ∈ s.handed →
      c.Holds m c.keypair.publicKey ∧ ∃ c₀ ∈ s.config, c₀.keypair = c.keypair) := by
  have hnew : draws.load = some c.keypair → ∀ m, (m, c.keypair.publicKey) ∉ s.handed :=
    fun hdrawn => not_handed hfresh h.handed_made _ (.inl hdrawn)
  rcases loadConfig_cases hload with ⟨hnone, hempty, hdrawn⟩ | ⟨c₀, hc₀, hsame, hkey⟩
  · refine ⟨?_, fun _ m hm => absurd hm (hnew hdrawn m)⟩
    intro m k
    simp [Client.Config.Holds, hnone, hempty]
  · refine ⟨?_, ?_⟩
    · intro m k
      simp [Client.Config.Holds, hc₀, hsame]
    · intro hzero m hm
      rcases hkey with hkept | hdrawn
      · have hheld := h.adopted c₀ hc₀ (hkept ▸ hzero) m (hkept ▸ hm)
        refine ⟨?_, c₀, hc₀, hkept.symm⟩
        rw [← hkept] at hheld
        simpa [Client.Config.Holds, hsame] using hheld
      · exact absurd hm (hnew hdrawn m)

/-- If every new use is by one network, of keys that no other uses, every key still belongs
    to one network. -/
theorem KeysApart.distinct_of_uses (h : KeysApart s)
    (huses : ∀ m k, s'.Uses m k → s.Uses m k ∨ m = n ∧ ∀ m', s.Uses m' k → m' = n) :
    ∀ m m' k, s'.Uses m k → s'.Uses m' k → m = m' := by
  intro m m' k hm hm'
  rcases huses m k hm with hold | ⟨rfl, honly⟩
  · rcases huses m' k hm' with hold' | ⟨rfl, honly'⟩
    · exact h.distinct m m' k hold hold'
    · exact honly' m hold
  · rcases huses m' k hm' with hold' | ⟨rfl, -⟩
    · exact (honly m' hold').symm
    · rfl

variable {m : String} {kp : Keypair}

theorem holds_setEntry {st : NetworkState} :
    (c.setEntry n st).Holds m k ↔
      if m = n then st.keypair.isZero = false ∧ st.keypair.publicKey = k else c.Holds m k := by
  simp only [Client.Config.Holds, Config.setEntry]
  rw [GoMap.lookup_insert_if]
  split <;> simp

theorem KeysApart.not_used (h : KeysApart s) (hfresh : draws.Fresh s.made)
    (hkp : draws.load = some kp ∨ draws.key = some kp) (m : String) : ¬ s.Uses m kp.publicKey :=
  fun huses => hfresh.1 _ (draws.mem_keys hkp) (h.uses_made huses)

theorem KeysApart.drawn (h : KeysApart s) (draws : Draws) :
    KeysApart (s.rewritten draws s.config) where
  file_made := h.file_made.mono fun _ hk => mem_append_right _ hk
  handed_made m k hk := mem_append_right _ (h.handed_made m k hk)
  distinct := h.distinct
  adopted := h.adopted

section

variable (h : KeysApart s) (hfresh : draws.Fresh s.made)
include h hfresh

/-- The file is written with what was read from it, and perhaps a new key for one network. -/
theorem KeysApart.rewritten (hload : loadConfig draws.load s.config = .ok c)
    (hmade : FileIn (· ∈ draws.keys ++ s.made) (some c'))
    (hholds : ∀ m k, c'.Holds m k → c.Holds m k ∨ m = n ∧ ∀ m', s.Uses m' k → m' = n)
    (hadopted : c'.keypair.isZero = false → ∀ m, (m, c'.keypair.publicKey) ∈ s.handed →
      c'.Holds m c'.keypair.publicKey) : KeysApart (s.rewritten draws (some c')) where
  file_made := hmade
  handed_made m k hk := mem_append_right _ (h.handed_made m k hk)
  distinct := by
    refine h.distinct_of_uses (n := n) ?_
    rintro m k (hhand | ⟨_, ⟨⟩, hheld⟩)
    · exact .inl (.inl hhand)
    · exact (hholds m k hheld).imp_left fun hold => .inr (((h.load hfresh hload).1 m k).mp hold)
  adopted := by
    rintro _ ⟨⟩
    exact hadopted

theorem KeysApart.load_spared (hload : loadConfig draws.load s.config = .ok c)
    (hspare : ∀ c ∈ s.config, ¬ c.Holds n c.keypair.publicKey) (hzero : c.keypair.isZero = false)
    (hm : (m, c.keypair.publicKey) ∈ s.handed) : m ≠ n ∧ c.Holds m c.keypair.publicKey := by
  obtain ⟨hsame, hinst⟩ := h.load hfresh hload
  obtain ⟨hheld, c₀, hc₀, heq⟩ := hinst hzero m hm
  refine ⟨?_, hheld⟩
  rintro rfl
  obtain ⟨c₀', hc₀', hheld'⟩ := (hsame _ _).mp hheld
  obtain rfl := mem_unique hc₀ hc₀'
  exact hspare c₀ hc₀ (heq ▸ hheld')

theorem KeysApart.reset (n : String)
    (hspare : SparesAdopted s (.resetDeviceKey n draws)) :
    KeysApart (s.rewritten draws (Client.resetDeviceKey n draws s.config).2) := by
  have hmade := resetDeviceKey_in (n := n)
    (h.file_made.mono fun k hk => mem_append_right draws.keys hk) (draws.in_made s.made)
  rcases resetDeviceKey_cases n draws s.config with ⟨e, hfails⟩ | ⟨kp, c, hkey, hload, hdone⟩
  · rw [hfails]
    exact h.drawn draws
  · rw [hdone] at hmade ⊢
    have hholds : ∀ m k, (c.resetDeviceKey n kp).Holds m k ↔
        if m = n then kp.isZero = false ∧ kp.publicKey = k else c.Holds m k :=
      fun m k => holds_setEntry
    refine h.rewritten hfresh hload hmade (n := n) (fun m k hheld => ?_) fun hzero m hm => ?_
    · -- The only key that is new to the file is the one just drawn.
      rw [hholds] at hheld
      split at hheld
      · next hm =>
        obtain ⟨-, rfl⟩ := hheld
        exact .inr ⟨hm, fun m' hm' => absurd hm' (h.not_used hfresh (.inr hkey) m')⟩
      · exact .inl hheld
    · obtain ⟨hne, hheld⟩ := h.load_spared hfresh hload hspare hzero hm
      rw [hholds, if_neg hne]
      exact hheld

theorem KeysApart.forget (n : String)
    (hspare : SparesAdopted s (.forgetNetwork n draws)) :
    KeysApart (s.rewritten draws (Client.forgetNetwork n draws s.config).2) := by
  have hmade := forgetNetwork_in (n := n)
    (h.file_made.mono fun k hk => mem_append_right draws.keys hk) (draws.in_made s.made)
  rcases forgetNetwork_cases n draws s.config with ⟨e, hfails⟩ | ⟨c, hload, hdone⟩
  · rw [hfails]
    exact h.drawn draws
  · rw [hdone] at hmade ⊢
    have hholds : ∀ m k, ({ c with networks := c.networks.erase n } : Config).Holds m k ↔
        m ≠ n ∧ c.Holds m k := by
      intro m k
      simp only [Client.Config.Holds]
      rw [GoMap.lookup_erase_if]
      split
      · next hm => simp [hm]
      · next hm => simp [hm]
    exact h.rewritten hfresh hload hmade (n := n)
      (fun m k hheld => .inl ((hholds m k).mp hheld).2) fun hzero m hm =>
        (hholds m _).mpr (h.load_spared hfresh hload hspare hzero hm)

theorem KeysApart.rotated : KeysApart (s.rotated draws) := by
  unfold Installation.rotated
  rcases rotateDeviceKey_cases draws s.config with ⟨e, hfails⟩ | ⟨kp, c, hkey, hload, hdone⟩
  · rw [hfails]
    exact h.drawn draws
  · have hmade := rotateDeviceKey_in (fun c hc => ((h.file_made.mono
      fun k hk => mem_append_right draws.keys hk) c hc).2) (draws.in_made s.made)
      (congrArg Prod.fst hdone)
    rw [hdone] at hmade ⊢
    have hholds : ∀ m k, (c.rotateDeviceKey kp).Holds m k ↔ c.Holds m k := by
      intro m k
      simp [Client.Config.Holds, Config.rotateDeviceKey, GoMap.lookup_mapValues]
    -- The key of the installation is new, and so has not been handed out.
    have hkept := h.rewritten hfresh hload hmade (n := "")
      (fun m k hheld => .inl ((hholds m k).mp hheld))
      fun _ m hm => absurd (.inl hm) (h.not_used hfresh (.inr hkey) m)
    exact ⟨hkept.file_made, hkept.handed_made, hkept.distinct, hkept.adopted⟩

/-- Whatever `deviceKey` returns, no other network uses. -/
theorem KeysApart.returned
    (hload : loadConfig draws.load s.config = .ok c) (hres : c.deviceKey n draws.key = .ok (kp, c'))
    (hm : s.Uses m kp.publicKey) : m = n := by
  obtain ⟨hsame, hinst⟩ := h.load hfresh hload
  rcases (Config.deviceKey_cases hres).1 with ⟨st, hst, rfl, hzero⟩ | ⟨-, rfl, hzero, hfree⟩ |
    ⟨-, hdrawn⟩
  · exact h.distinct m n _ hm (.inr ((hsame _ _).mp ⟨st, hst, hzero, rfl⟩))
  · -- Whoever was handed the installation's key still has it in the file.
    have hheld : c.Holds m c.keypair.publicKey := by
      rcases hm with hhand | hfile
      · exact (hinst hzero m hhand).1
      · exact (hsame _ _).mpr hfile
    by_contra hne
    obtain ⟨st, hst, -, hkey⟩ := hheld
    exact hfree m st hne hst hkey
  · exact absurd hm (h.not_used hfresh (.inr hdrawn) m)

theorem KeysApart.drawn_ne
    (hload : loadConfig draws.load s.config = .ok c) (hkp : draws.key = some kp) :
    kp.publicKey ≠ c.keypair.publicKey := by
  intro heq
  have hkept : ∀ c₀ ∈ s.config, c.keypair ≠ c₀.keypair := by
    intro c₀ hc₀ hsame
    refine hfresh.1 _ (draws.mem_keys (.inr hkp)) ?_
    rw [heq, hsame]
    exact (h.file_made c₀ hc₀).1
  have hloaded : draws.load = some c.keypair := by
    rcases loadConfig_cases hload with ⟨-, -, hdrawn⟩ | ⟨c₀, hc₀, -, hsame | hdrawn⟩
    · exact hdrawn
    · exact absurd hsame (hkept c₀ hc₀)
    · exact hdrawn
  have hnodup := hfresh.2
  simp [Draws.keys, hloaded, hkp, heq] at hnodup

theorem KeysApart.asked (n : String) : KeysApart (s.asked n draws) := by
  have hgrow := h.file_made.mono fun k hk => mem_append_right draws.keys hk
  have hmade := deviceKey_in (n := n) hgrow (draws.in_made s.made)
  unfold Installation.asked
  rcases deviceKey_cases n draws s.config with ⟨e, hfails⟩ | ⟨c, kp, c', hload, hres, hdone⟩
  · rw [hfails]
    exact h.drawn draws
  · obtain ⟨hsame, hinst⟩ := h.load hfresh hload
    have hret : ∀ m, s.Uses m kp.publicKey → m = n := fun m => h.returned hfresh hload hres
    have hkp := deviceKey_returns hgrow (draws.in_made s.made) (congrArg Prod.fst hdone)
    obtain ⟨hsrc, hkeypair, st, rfl, hlook⟩ := Config.deviceKey_cases hres
    rw [hdone] at hmade ⊢
    have hholds : ∀ m k, c'.Holds m k ↔
        if m = n then kp.isZero = false ∧ kp.publicKey = k else c.Holds m k := by
      intro m k
      simp only [Client.Config.Holds, hlook]
      exact holds_setEntry
    refine ⟨hmade, ?_, ?_, ?_⟩
    · intro m k hk
      rcases mem_cons.mp hk with heq | hold
      · cases heq
        exact hkp
      · exact mem_append_right _ (h.handed_made m k hold)
    · refine h.distinct_of_uses (n := n) ?_
      rintro m k (hhand | ⟨_, ⟨⟩, hheld⟩)
      · rcases mem_cons.mp hhand with heq | hold
        · cases heq
          exact .inr ⟨rfl, hret⟩
        · exact .inl (.inl hold)
      · rw [hholds] at hheld
        split at hheld
        · next hm =>
          obtain ⟨-, rfl⟩ := hheld
          exact .inr ⟨hm, hret⟩
        · exact .inl (.inr ((hsame m k).mp hheld))
    · intro c₁ hc₁ hzero m hm
      cases hc₁
      rw [hkeypair] at hzero hm ⊢
      rw [hholds]
      by_cases hmn : m = n
      · -- What the network has now is what it was handed.
        subst hmn
        rw [if_pos rfl]
        rcases hsrc with ⟨st, hst, rfl, hown⟩ | ⟨hblank, rfl, hown, -⟩ | ⟨hblank, hdrawn⟩
        · refine ⟨hown, ?_⟩
          rcases mem_cons.mp hm with heq | hold
          · exact (Prod.mk.inj heq).2.symm
          · obtain ⟨st', hst', -, hkey⟩ := (hinst hzero m hold).1
            rw [mem_unique hst hst']
            exact hkey
        · exact ⟨hown, rfl⟩
        · exfalso
          rcases mem_cons.mp hm with heq | hold
          · exact h.drawn_ne hfresh hload hdrawn (Prod.mk.inj heq).2.symm
          · obtain ⟨st, hst, hown, -⟩ := (hinst hzero m hold).1
            rw [Config.entry, mem_def.mp hst, getD_some, hown] at hblank
            cases hblank
      · rw [if_neg hmn]
        rcases mem_cons.mp hm with heq | hold
        · exact absurd (Prod.mk.inj heq).1 hmn
        · exact (hinst hzero m hold).1

end

theorem KeysApart.step {a : KeyStep} (h : KeysApart s) (hspare : SparesAdopted s a)
    (hstep : s.step lib a = some s') : KeysApart s' := by
  cases a with
  | deviceKey n draws =>
    obtain ⟨hfresh, ⟨⟩⟩ := ite_none_right_eq_some.mp hstep
    exact h.asked hfresh n
  | resetDeviceKey n draws =>
    obtain ⟨hfresh, ⟨⟩⟩ := ite_none_right_eq_some.mp hstep
    exact h.reset hfresh n hspare
  | forgetNetwork n draws =>
    obtain ⟨hfresh, ⟨⟩⟩ := ite_none_right_eq_some.mp hstep
    exact h.forget hfresh n hspare
  | rotateDeviceKey draws =>
    obtain ⟨hfresh, ⟨⟩⟩ := ite_none_right_eq_some.mp hstep
    exact h.rotated hfresh
  | register u n draws input w =>
    obtain ⟨hfresh, ⟨⟩⟩ := ite_none_right_eq_some.mp hstep
    have hasked := h.asked hfresh n.string
    unfold registered
    split
    · exact hasked
    · exact ⟨hasked.file_made, hasked.handed_made, hasked.distinct, hasked.adopted⟩
  | elsewhere c w =>
    obtain ⟨-, ⟨⟩⟩ := ite_none_right_eq_some.mp hstep
    exact ⟨h.file_made, h.handed_made, h.distinct, h.adopted⟩

theorem keysApart_opened {file : Option Config} (hfile : KeysDistinct file) (store : Store) :
    KeysApart (.opened file store) := by
  refine ⟨?_, (fun m k hk => nomatch hk), ?_, fun c _ _ m hm =>
    nomatch hm⟩
  · rintro c rfl
    refine ⟨by simp [opened], ?_⟩
    intro n st hst
    have hmem := AList.mem_lookup_iff.mp (mem_def.mpr hst)
    simp only [opened, toList_some, flatMap_cons, flatMap_nil, append_nil]
    exact mem_cons_of_mem _ (mem_map_of_mem (f := (·.2.keypair.publicKey)) hmem)
  · rintro n n' k (hhand | ⟨c, hc, hheld⟩) (hhanded' | ⟨c', hc', hheld'⟩)
    · cases hhand
    · cases hhand
    · exact absurd hhanded' not_mem_nil
    · obtain rfl := mem_unique hc hc'
      exact hfile c hc n n' k hheld hheld'

end

/-! ## Whole runs -/

/-- As long as the network that has the installation's key is neither reset nor forgotten,
    no key is handed out for two networks. -/
theorem one_network_per_key (lib : StdLib) (file : Option Config) (hfile : KeysDistinct file)
    (store : Store) (as : List KeyStep)
    (hspare : Along (step lib) SparesAdopted (.opened file store) as) :
    Throughout (step lib) OneNetworkPerKey (.opened file store) as := by
  have hkept := Along.throughout (fun s a s' h hc hstep => KeysApart.step h hc hstep)
    (keysApart_opened hfile store) hspare
  exact hkept.mono fun s h n n' k hn hn' => h.distinct n n' k (.inl hn) (.inl hn')

/-- The key of the installation is drawn with the file, and adopted by `home`. -/
def adoptingRun : List KeyStep := [.deviceKey "home" ⟨⟨some ⟨"secret", "old key"⟩, true⟩, none⟩]

/-- Rotated first, it can be given up. -/
theorem one_network_per_key_rotated :
    Throughout (step lenientLib) OneNetworkPerKey (.opened none deskStore)
      (adoptingRun ++ [.rotateDeviceKey (.only (some ⟨"new secret", "new key"⟩)),
        .forgetNetwork "home" (.only none), .deviceKey "work" (.only none)]) :=
  one_network_per_key lenientLib none (by intro c hc; cases hc) deskStore _ (by decide +kernel)

/-- Once `home` has been forgotten, or its key has been refused and reset, `work` is
    handed the key that `home` had. -/
theorem adopted_key_handed_out_twice :
    (∃ s, run (step lenientLib) (.opened none deskStore)
      (adoptingRun ++ [.forgetNetwork "home" (.only none), .deviceKey "work" (.only none)]) =
        some s ∧ ¬ OneNetworkPerKey s ∧ ("home", "old key") ∈ s.handed ∧
      ("work", "old key") ∈ s.handed) ∧
    ∃ s, run (step lenientLib) (.opened none deskStore)
      (adoptingRun ++ [.resetDeviceKey "home" (.only (some ⟨"new secret", "new key"⟩)),
        .deviceKey "work" (.only none)]) =
        some s ∧ ¬ OneNetworkPerKey s ∧ ("home", "old key") ∈ s.handed ∧
      ("work", "old key") ∈ s.handed := by
  have hboth : ∀ s : Installation, ("home", "old key") ∈ s.handed →
      ("work", "old key") ∈ s.handed → ¬ OneNetworkPerKey s := by
    intro s hhome hwork h
    exact absurd (h _ _ _ hhome hwork) (by decide)
  refine ⟨⟨_, rfl, hboth _ ?_ ?_, ?_, ?_⟩, ⟨_, rfl, hboth _ ?_ ?_, ?_, ?_⟩⟩ <;> decide

end NexusVPN
