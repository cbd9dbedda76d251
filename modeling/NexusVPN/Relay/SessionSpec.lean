import NexusVPN.Relay.Session

/-! # What the table operations do

    One specification for each operation of the session table.  They speak about
    the two flat views of a table, `holds` (what is bound where) and `lookup` (what
    an address is indexed as), and about the number of sessions, so that nothing
    else in the development opens the nested maps. -/

namespace NexusVPN.Relay

open Option Table

namespace SessionTable

variable {Addr : Type}

/-! ## The flat views

    `bindingOf` (or its part `holds`) and `lookup` are all that the rest of the
    development sees of a table: every operation is described by what it does to
    them. -/

/-- The address and the expiry of a binding: what routing decides by. -/
def holds (t : SessionTable Addr) (n : String) (d : UUID) : Option (Addr × Time) :=
  (t.bindingOf n d).map fun b => (b.addr, b.expiresAt)

variable {d : UUID} {n : String} {s : Session Addr} {b : Binding Addr} {D : String → UUID → Prop}
  {t t' t'' : SessionTable Addr}

theorem bindingOf_of_put (h : t'.sessions = t.sessions.put s) (n : String) (d : UUID) :
    t'.bindingOf n d = if n = s.networkID then s.bindings.get d else t.bindingOf n d := by
  unfold bindingOf
  rw [h, get_put]
  split <;> rfl

theorem bindingOf_eq_some :
    t.bindingOf n d = some b ↔ ∃ s, t.sessions.get n = some s ∧ s.bindings.get d = some b :=
  bind_eq_some_iff

theorem holds_of_bindingOf (h : t.bindingOf n d = some b) :
    t.holds n d = some (b.addr, b.expiresAt) := by
  simp [holds, h]

theorem bindingOf_of_put_at {bs last} {x : Option (Binding Addr)} {n' : String} {d' : UUID}
    (hs : t.sessions.get n = some s) (h : t'.sessions = t.sessions.put ⟨s.networkID, bs, last⟩)
    (hx : bs.get d' = if d' = d then x else s.bindings.get d') :
    t'.bindingOf n' d' = if n' = n ∧ d' = d then x else t.bindingOf n' d' := by
  rw [bindingOf_of_put h, hx, key_of_get hs]
  by_cases hn' : n' = n
  · simp [hn', bindingOf, hs]
  · simp [hn']

theorem bindingOf_refresh (hs : t.sessions.get n = some s) (hb : s.bindings.get d = some b)
    (now : Time) (n' : String) (d' : UUID) :
    (t.refresh s b now).bindingOf n' d' =
      if n' = n ∧ d' = d then some { b with lastSeen := now } else t.bindingOf n' d' := by
  have hd : b.deviceID = d := key_of_get hb
  exact bindingOf_of_put_at hs rfl (by rw [get_put, hd])

theorem bindingOf_dropEmpty (n : String) (acc : SessionTable Addr × Nat) (n' : String) (d : UUID) :
    (dropEmpty n acc).1.bindingOf n' d = acc.1.bindingOf n' d := by
  fun_cases dropEmpty n acc with
  | case1 | case3 => rfl
  | case2 s hs hlen =>
    unfold bindingOf
    rw [get_del]
    by_cases hn : n' = n
    · simp [hn, hs, get_of_len_eq_zero hlen]
    · simp [hn]

theorem not_stale_iff {b : Binding Addr} {now : Time} {timeout : Int} :
    ¬ b.stale now timeout = true ↔ now.sub b.lastSeen ≤ timeout ∧
      (b.expiresAt.isZero = true ∨ now.after b.expiresAt = false) := by
  cases hz : b.expiresAt.isZero <;> simp [Binding.stale, Binding.expired, lapsed, hz]

/-! ### Sessions -/

/-- The network has a session, or there is room for one more. -/
def Room (t : SessionTable Addr) (n : String) : Prop :=
  (t.sessions.get n).isSome ∨ t.maxSessions ≤ 0 ∨ (t.sessions.len : Int) < t.maxSessions

/-- The sessions are the same, whatever has become of their bindings. -/
structure SameSessions (t t' : SessionTable Addr) : Prop where
  present : ∀ n, (t'.sessions.get n).isSome = (t.sessions.get n).isSome
  len : t'.sessions.len = t.sessions.len
  max : t'.maxSessions = t.maxSessions

theorem SameSessions.refl (t : SessionTable Addr) : SameSessions t t := ⟨fun _ => rfl, rfl, rfl⟩

theorem SameSessions.trans (h : SameSessions t t') (h' : SameSessions t' t'') :
    SameSessions t t'' where
  present n := (h'.present n).trans (h.present n)
  len := h'.len.trans h.len
  max := h'.max.trans h.max

theorem SameSessions.room_iff (h : SameSessions t t') (n : String) : t'.Room n ↔ t.Room n := by
  unfold Room
  rw [h.present, h.len, h.max]

theorem SameSessions.of_put {s' : Session Addr} (hs : t.sessions.get n = some s)
    (hput : t'.sessions = t.sessions.put s') (hkey : s'.networkID = s.networkID)
    (hmax : t'.maxSessions = t.maxSessions) : SameSessions t t' := by
  rw [← key_of_get hs, ← hkey] at hs
  refine ⟨?_, ?_, hmax⟩
  · intro n
    rw [hput, get_put]
    split
    · next hn => rw [hn, hs]; rfl
    · rfl
  · rw [hput, len_put_present hs]

theorem refresh_sameSessions (hs : t.sessions.get n = some s) (b : Binding Addr) (now : Time) :
    SameSessions t (t.refresh s b now) :=
  .of_put hs rfl rfl rfl

theorem touch_sameSessions (t : SessionTable Addr) (now : Time) (n : String) (d : UUID) :
    SameSessions t (t.touch now n d) := by
  fun_cases touch t now n d with
  | case1 => exact .refl t
  | case2 s hs b hb => exact refresh_sameSessions hs b now
  | case3 s hs hb => exact .of_put hs rfl rfl rfl

/-! ### Bindings and index entries that go -/

variable [DecidableEq Addr]

theorem bindingOf_unbind (t : SessionTable Addr) (n n' : String) (d d' : UUID) (b : Binding Addr) :
    (t.unbind n d b).bindingOf n' d' = if n' = n ∧ d' = d then none else t.bindingOf n' d' := by
  unfold unbind
  split
  · next hnone =>
    -- No session: there is nothing to drop, and nothing was bound.
    split
    · next heq => rw [heq.1]; simp [bindingOf, hnone]
    · rfl
  · next s hs => exact bindingOf_of_put_at hs rfl (by rw [get_del])

theorem lookup_unbind (t : SessionTable Addr) (n : String) (d : UUID) (b : Binding Addr)
    (a : Addr) :
    (t.unbind n d b).lookup a = if a = b.addr then none else t.lookup a := by
  unfold unbind
  split <;> exact GoMap.lookup_erase_if _ _ _

@[simp] theorem idleTimeout_unbind (t : SessionTable Addr) (n : String) (d : UUID)
    (b : Binding Addr) : (t.unbind n d b).idleTimeout = t.idleTimeout := by
  unfold unbind; split <;> rfl

/-! ### `Bind` -/

/-- `Bind` finds no room, or attaches the device. -/
theorem bind_cases (t : SessionTable Addr) (now : Time) (n : String) (d : UUID) (a : Addr)
    (e : Time) :
    (t.sessions.get n = none ∧ t.bind now n d a e = (.error ⟨t.maxSessions⟩, t)) ∨
    ∃ s, s.networkID = n ∧ (∀ d', s.bindings.get d' = t.bindingOf n d') ∧
      t.bind now n d a e = (.ok (), t.attach s now d a e) := by
  unfold bind
  cases hs : t.sessions.get n with
  | some s =>
    exact Or.inr ⟨s, key_of_get hs, fun d' => by simp [bindingOf, hs], rfl⟩
  | none =>
    dsimp only
    split
    · exact Or.inl ⟨rfl, rfl⟩
    · exact Or.inr ⟨_, rfl, fun d' => by simp [bindingOf, hs], rfl⟩

theorem holds_attach (hs : ∀ d', s.bindings.get d' = t.bindingOf s.networkID d') (now : Time)
    (d : UUID) (a : Addr) (e : Time) (n' : String) (d' : UUID) :
    (t.attach s now d a e).holds n' d' =
      if n' = s.networkID ∧ d' = d then some (a, e) else t.holds n' d' := by
  unfold holds
  rw [bindingOf_of_put (t := t) rfl, get_put, hs]
  by_cases hn : n' = s.networkID
  · by_cases hd : d' = d
    · simp [hn, hd]
    · simp [hn, hd]
  · simp [hn]

theorem lookup_attach (hs : ∀ d', s.bindings.get d' = t.bindingOf s.networkID d') (now : Time)
    (d : UUID) (a a' : Addr) (e : Time) :
    (t.attach s now d a e).lookup a' =
      if a' = a then some ⟨s.networkID, d⟩
      else if (t.holds s.networkID d).map Prod.fst = some a' then none
      else t.lookup a' := by
  unfold attach lookup holds
  rw [GoMap.lookup_insert_if]
  by_cases ha : a' = a
  · simp [ha]
  · rw [if_neg ha, if_neg ha, ← hs d, map_map]
    cases hprev : s.bindings.get d with
    | none => simp
    | some prev =>
      by_cases hmoved : prev.addr = a
      · -- The device is bound again where it was: nothing is dropped from the index.
        simp [hmoved, Ne.symm ha]
      · simp only [ne_eq, hmoved, not_false_eq_true, if_true, map_some, Option.some.injEq,
          Function.comp_apply]
        rw [GoMap.lookup_erase_if]
        by_cases hp : a' = prev.addr
        · simp [hp]
        · rw [if_neg hp, if_neg (Ne.symm hp)]

/-! ### `Route` and `Touch` -/

/-- `t'` is `t` without the bindings in `D` and without the index entries of the
    addresses those bindings were at; liveness stamps and counters may differ.
    Every operation but `Bind` does this for some `D`. -/
structure Removes (D : String → UUID → Prop) (t t' : SessionTable Addr) : Prop where
  holds : ∀ n d v, t'.holds n d = some v ↔ t.holds n d = some v ∧ ¬ D n d
  lookup : ∀ a ab, t'.lookup a = some ab ↔
    t.lookup a = some ab ∧ ¬ ∃ n d x, D n d ∧ t.holds n d = some (a, x)

/-- Nothing is removed. -/
abbrev SameViews (t t' : SessionTable Addr) : Prop := Removes (fun _ _ => False) t t'

theorem SameViews.of_eq (hh : ∀ n d, t'.holds n d = t.holds n d)
    (hl : ∀ a, t'.lookup a = t.lookup a) : SameViews t t' := by
  refine ⟨?_, ?_⟩
  · intro n d v
    simp [hh]
  · intro a ab
    simp [hl]

theorem SameViews.refl (t : SessionTable Addr) : SameViews t t :=
  .of_eq (fun _ _ => rfl) (fun _ => rfl)

theorem SameViews.holds_eq (h : SameViews t t') (n : String) (d : UUID) :
    t'.holds n d = t.holds n d := by
  apply Option.ext
  intro v
  simpa using h.holds n d v

theorem Removes.congr {D' : String → UUID → Prop} (h : Removes D t t')
    (hD : ∀ n d v, t.holds n d = some v → (D n d ↔ D' n d)) : Removes D' t t' := by
  refine ⟨?_, ?_⟩
  · intro n d v
    rw [h.holds]
    exact and_congr_right fun hv => not_congr (hD n d v hv)
  · intro a ab
    rw [h.lookup]
    refine and_congr_right fun _ => not_congr ?_
    refine exists_congr fun n => exists_congr fun d => exists_congr fun x => ?_
    exact and_congr_left fun hx => hD n d _ hx

theorem SameViews.removes (h : SameViews t t') (h' : Removes D t' t'') : Removes D t t'' := by
  refine ⟨?_, ?_⟩
  · intro n d v
    rw [h'.holds, h.holds_eq]
  · intro a ab
    rw [h'.lookup, h.lookup]
    simp [h.holds_eq]

theorem Removes.sameViews (h : Removes D t t') (h' : SameViews t' t'') : Removes D t t'' := by
  refine ⟨?_, ?_⟩
  · intro n d v
    rw [h'.holds_eq, h.holds]
  · intro a ab
    rw [h'.lookup, h.lookup]
    simp

theorem unbind_removes (hb : t.bindingOf n d = some b) :
    Removes (fun n' d' => n' = n ∧ d' = d) t (t.unbind n d b) := by
  refine ⟨?_, ?_⟩
  · intro n' d' v
    unfold holds
    rw [bindingOf_unbind]
    split
    · next hkey => simp [hkey]
    · next hkey => simp [hkey]
  · intro a ab
    have hat : (∃ n' d' x, (n' = n ∧ d' = d) ∧ t.holds n' d' = some (a, x)) ↔ a = b.addr := by
      constructor
      · rintro ⟨n', d', x, ⟨rfl, rfl⟩, hx⟩
        simp only [holds, hb, map_some, Option.some.injEq, Prod.mk.injEq] at hx
        exact hx.1.symm
      · intro ha
        exact ⟨n, d, b.expiresAt, ⟨rfl, rfl⟩, by simp [holds, hb, ha]⟩
    rw [lookup_unbind, hat]
    split
    · next ha => simp [ha]
    · next ha => simp [ha]

theorem refresh_sameViews (hs : t.sessions.get n = some s) (hb : s.bindings.get d = some b)
    (now : Time) : SameViews t (t.refresh s b now) := by
  refine .of_eq ?_ (fun _ => rfl)
  intro n' d'
  unfold holds
  rw [bindingOf_refresh hs hb]
  by_cases hnd : n' = n ∧ d' = d
  · obtain ⟨rfl, rfl⟩ := hnd
    simp [bindingOf_eq_some.mpr ⟨s, hs, hb⟩]
  · rw [if_neg hnd]

theorem touch_sameViews (t : SessionTable Addr) (now : Time) (n : String) (d : UUID) :
    SameViews t (t.touch now n d) := by
  unfold touch
  split
  · exact SameViews.refl t
  · next s hs =>
    split
    · next b hb => exact refresh_sameViews hs hb now
    · next hb =>
      -- The device is not bound: only the session's own stamp moves.
      refine .of_eq ?_ (fun _ => rfl)
      intro n' d'
      unfold holds
      rw [bindingOf_of_put rfl]
      split
      · next hn =>
        have hkey : s.networkID = n := key_of_get hs
        simp [bindingOf, hn.trans hkey, hs]
      · rfl

theorem recordRelayed_sameViews (t : SessionTable Addr) (k : Nat) :
    SameViews t (t.recordRelayed k) := .of_eq (fun _ _ => rfl) (fun _ => rfl)

theorem recordDropped_sameViews (t : SessionTable Addr) : SameViews t t.recordDropped :=
  .of_eq (fun _ _ => rfl) (fun _ => rfl)

/-- `Route` finds the token behind the binding of `d` lapsed: the sender's, or
    the peer's once the sender's has been found good. -/
def RouteLapsed (t : SessionTable Addr) (now : Time) (n : String) (senderID peerID d : UUID) :
    Prop :=
  ∃ a x, t.holds n senderID = some (a, x) ∧
    ((lapsed x now = true ∧ d = senderID) ∨
      (lapsed x now = false ∧ d = peerID ∧
        ∃ a' x', t.holds n peerID = some (a', x') ∧ lapsed x' now = true))

/-- `Route` drops what has lapsed, and finds an address only if neither end has. -/
theorem route_spec (t : SessionTable Addr) (now : Time) (n : String) (senderID peerID : UUID) :
    Removes (fun n' d => n' = n ∧ RouteLapsed t now n senderID peerID d) t
      (t.route now n senderID peerID).2 ∧
    ∀ dest, (t.route now n senderID peerID).1 = some dest →
      ∃ a x x', t.holds n senderID = some (a, x) ∧ lapsed x now = false ∧
        t.holds n peerID = some (dest, x') ∧ lapsed x' now = false := by
  fun_cases route t now n senderID peerID with
  | case1 hnone =>
    -- The network has no session.
    have hsend : t.holds n senderID = none := by simp [holds, bindingOf, hnone]
    exact ⟨(SameViews.refl t).congr (by simp [RouteLapsed, hsend]), by simp⟩
  | case2 s hs hnone =>
    -- The sender is not bound in it.
    have hsend : t.holds n senderID = none := by simp [holds, bindingOf, hs, hnone]
    exact ⟨(SameViews.refl t).congr (by simp [RouteLapsed, hsend]), by simp⟩
  | case3 s hs sender hb hexp =>
    -- The sender's token has lapsed.
    have hbind := bindingOf_eq_some.mpr ⟨s, hs, hb⟩
    have hx : lapsed sender.expiresAt now = true := hexp
    refine ⟨(unbind_removes hbind).congr ?_, by simp⟩
    simp [RouteLapsed, holds_of_bindingOf hbind, hx]
  | case4 s hs sender hb hexp t' hp =>
    -- The sender is refreshed, and the peer is not bound.
    have hsame := refresh_sameViews hs hb now
    have hsend := holds_of_bindingOf (bindingOf_eq_some.mpr ⟨s, hs, hb⟩)
    have hpeer : t.holds n peerID = none := by
      rw [← hsame.holds_eq]; simp [holds, t', hp]
    have hx : lapsed sender.expiresAt now = false := Bool.eq_false_iff.mpr hexp
    exact ⟨hsame.congr (by simp [RouteLapsed, hsend, hpeer, hx]), by simp⟩
  | case5 s hs sender hb hexp t' peer hp hexp' =>
    -- The peer's token has lapsed.
    have hsame := refresh_sameViews hs hb now
    have hsend := holds_of_bindingOf (bindingOf_eq_some.mpr ⟨s, hs, hb⟩)
    have hpeer := (hsame.holds_eq n peerID).symm.trans (holds_of_bindingOf hp)
    have hx : lapsed sender.expiresAt now = false := Bool.eq_false_iff.mpr hexp
    have hx' : lapsed peer.expiresAt now = true := hexp'
    refine ⟨(hsame.removes (unbind_removes hp)).congr ?_, by simp⟩
    simp [RouteLapsed, hsend, hpeer, hx, hx']
  | case6 s hs sender hb hexp t' peer hp hexp' =>
    -- Both ends are in order.
    have hsame := refresh_sameViews hs hb now
    have hsend := holds_of_bindingOf (bindingOf_eq_some.mpr ⟨s, hs, hb⟩)
    have hpeer := (hsame.holds_eq n peerID).symm.trans (holds_of_bindingOf hp)
    have hx : lapsed sender.expiresAt now = false := Bool.eq_false_iff.mpr hexp
    have hx' : lapsed peer.expiresAt now = false := Bool.eq_false_iff.mpr hexp'
    refine ⟨hsame.congr (by simp [RouteLapsed, hsend, hpeer, hx, hx']), ?_⟩
    simp [hsend, hpeer, hx, hx']

/-! ### `EvictIdle` -/

/-- `t'` is `t` after a sweep over the keys in `P`: their stale bindings are gone,
    and so are the index entries of the addresses those bindings were at. -/
structure Sweeps (now : Time) (P : String → UUID → Prop) (t t' : SessionTable Addr) : Prop where
  idleTimeout : t'.idleTimeout = t.idleTimeout
  bindingOf : ∀ n d b, t'.bindingOf n d = some b ↔
    t.bindingOf n d = some b ∧ ¬ (P n d ∧ b.stale now t.idleTimeout = true)
  lookup : ∀ a ab, t'.lookup a = some ab ↔ t.lookup a = some ab ∧
    ¬ ∃ n d b, P n d ∧ t.bindingOf n d = some b ∧ b.stale now t.idleTimeout = true ∧ b.addr = a

namespace Sweeps

variable {now : Time} {P Q : String → UUID → Prop}

theorem trans (h : Sweeps now P t t') (h' : Sweeps now Q t' t'') :
    Sweeps now (fun n d => P n d ∨ Q n d) t t'' where
  idleTimeout := h'.idleTimeout.trans h.idleTimeout
  bindingOf n d b := by
    rw [h'.bindingOf, h.bindingOf, h.idleTimeout]
    tauto
  lookup a ab := by
    rw [h'.lookup, h.lookup, h.idleTimeout, and_assoc]
    refine and_congr_right fun _ => ?_
    constructor
    · rintro ⟨hP, hQ⟩ ⟨n, d, b, hPQ, hb, hstale, ha⟩
      by_cases hp : P n d
      · exact hP ⟨n, d, b, hp, hb, hstale, ha⟩
      · -- Not swept by the first loop, so the second one still finds it.
        refine hQ ⟨n, d, b, hPQ.resolve_left hp, (h.bindingOf n d b).mpr ⟨hb, ?_⟩, hstale, ha⟩
        exact fun hsw => hp hsw.1
    · intro hPQ
      refine ⟨?_, ?_⟩
      · rintro ⟨n, d, b, hp, hrest⟩
        exact hPQ ⟨n, d, b, .inl hp, hrest⟩
      · rintro ⟨n, d, b, hq, hb, hrest⟩
        exact hPQ ⟨n, d, b, .inr hq, ((h.bindingOf n d b).mp hb).1, hrest⟩

theorem congr (h : Sweeps now P t t')
    (hPQ : ∀ n d b, t.bindingOf n d = some b → (P n d ↔ Q n d)) : Sweeps now Q t t' where
  idleTimeout := h.idleTimeout
  bindingOf n d b := by
    rw [h.bindingOf]
    refine and_congr_right fun hb => ?_
    rw [hPQ n d b hb]
  lookup a ab := by
    rw [h.lookup]
    refine and_congr_right fun _ => not_congr ?_
    refine exists_congr fun n => exists_congr fun d => exists_congr fun b => ?_
    exact and_congr_left fun hrest => hPQ n d b hrest.1

theorem of_fresh
    (h : ∀ n d b, P n d → t.bindingOf n d = some b → ¬ b.stale now t.idleTimeout = true) :
    Sweeps now P t t where
  idleTimeout := rfl
  bindingOf n d b := (and_iff_left_of_imp fun hb hsw => h n d b hsw.1 hb hsw.2).symm
  lookup a ab := by
    refine (and_iff_left ?_).symm
    rintro ⟨n, d, b, hP, hb, hstale, -⟩
    exact h n d b hP hb hstale

theorem of_bindingOf_eq (h : Sweeps now P t t') (hi : t''.idleTimeout = t'.idleTimeout)
    (hb : ∀ n d, t''.bindingOf n d = t'.bindingOf n d) (hl : t''.addrIndex = t'.addrIndex) :
    Sweeps now P t t'' where
  idleTimeout := hi.trans h.idleTimeout
  bindingOf n d b := by rw [hb]; exact h.bindingOf n d b
  lookup a ab := by
    unfold SessionTable.lookup
    rw [hl]
    exact h.lookup a ab

/-- A loop sweeps the union of what its rounds sweep; `g` picks the table out
    of the loop's variables. -/
theorem foldl {β γ : Type} {f : γ → β → γ} {g : γ → SessionTable Addr}
    {P : β → String → UUID → Prop} (hf : ∀ acc x, Sweeps now (P x) (g acc) (g (f acc x)))
    (xs : List β) (acc : γ) :
    Sweeps now (fun n d => ∃ x ∈ xs, P x n d) (g acc) (g (xs.foldl f acc)) := by
  induction xs generalizing acc with
  | nil => exact ⟨rfl, by simp, by simp⟩
  | cons x xs ih =>
    -- The first round, and then what the others sweep of what it has left.
    refine ((hf acc x).trans (ih (f acc x))).congr fun n d b _ => ?_
    simp

end Sweeps

theorem evictBinding_sweeps (now : Time) (n : String) (t : SessionTable Addr) (d : UUID) :
    Sweeps now (fun n' d' => n' = n ∧ d' = d) t (evictBinding now n t d) := by
  fun_cases evictBinding now n t d with
  | case1 hnone =>
    refine .of_fresh ?_
    rintro n' d' b ⟨rfl, rfl⟩ hb
    simp [hnone] at hb
  | case2 b hb hstale =>
    refine ⟨idleTimeout_unbind t n d b, fun n' d' b' => ?_, fun a ab => ?_⟩
    · rw [bindingOf_unbind]
      by_cases hnd : n' = n ∧ d' = d
      · -- The binding itself: gone, as it is stale.
        obtain ⟨rfl, rfl⟩ := hnd
        simp only [and_self, if_true, hb]
        constructor
        · exact nofun
        · rintro ⟨heq, hns⟩
          exact absurd ⟨trivial, some.inj heq ▸ hstale⟩ hns
      · simp [hnd]
    · rw [lookup_unbind]
      by_cases ha : a = b.addr
      · rw [if_pos ha]
        constructor
        · exact nofun
        · rintro ⟨-, hno⟩
          exact absurd ⟨n, d, b, ⟨rfl, rfl⟩, hb, hstale, ha.symm⟩ hno
      · rw [if_neg ha]
        refine ⟨fun h => ⟨h, ?_⟩, And.left⟩
        rintro ⟨n', d', b', ⟨rfl, rfl⟩, hb', -, ha'⟩
        rw [hb] at hb'
        exact ha (some.inj hb' ▸ ha'.symm)
  | case3 b hb hfresh =>
    refine .of_fresh ?_
    rintro n' d' b' ⟨rfl, rfl⟩ hb'
    cases hb.symm.trans hb'
    exact hfresh

theorem evictSession_sweeps (now : Time) (devs : String → MapOrder UUID)
    (acc : SessionTable Addr × Nat) (n : String) :
    Sweeps now (fun n' _ => n' = n) acc.1 (evictSession now devs acc n).1 := by
  fun_cases evictSession now devs acc n with
  | case1 hnone =>
    refine .of_fresh ?_
    rintro n' d b rfl hb
    simp [bindingOf, hnone] at hb
  | case2 s hs =>
    have hloop := Sweeps.foldl (g := id) (fun t d => evictBinding_sweeps now n t d)
      ((devs n).list s.bindings.map.keys) acc.1
    -- The inner loop visits every device that is bound in this session.
    have hall := hloop.congr (Q := fun n' _ => n' = n) fun n' d b hb => by
      constructor
      · rintro ⟨_, -, hn, -⟩
        exact hn
      · rintro rfl
        obtain ⟨s', hs', hd⟩ := bindingOf_eq_some.mp hb
        rw [show s' = s from some.inj (hs'.symm.trans hs)] at hd
        refine ⟨d, ((devs n').perm _).mem_iff.mpr (mem_keys.mpr ?_), rfl, rfl⟩
        rw [hd]; rfl
    refine hall.of_bindingOf_eq ?_ (bindingOf_dropEmpty n _) ?_
    all_goals
      unfold dropEmpty
      split
      · rfl
      · split <;> rfl

/-- Everything is visited, whatever the order. -/
theorem evictIdle_sweeps (t : SessionTable Addr) (now : Time) (nets : MapOrder String)
    (devs : String → MapOrder UUID) :
    Sweeps now (fun _ _ => True) t (t.evictIdle now nets devs).1 := by
  -- The outer loop visits every network that has a session, so every bound key is swept.
  refine (Sweeps.foldl (g := Prod.fst) (evictSession_sweeps now devs)
    (nets.list t.sessions.map.keys) (t, 0)).congr fun n d b hb => ?_
  obtain ⟨s, hs, -⟩ := bindingOf_eq_some.mp hb
  have hmem : n ∈ t.sessions.map.keys := mem_keys.mpr (by rw [hs]; rfl)
  simp [(nets.perm _).mem_iff, hmem]

/-- A binding that a sweep at `now` would drop. -/
def IsStale (t : SessionTable Addr) (now : Time) (n : String) (d : UUID) : Prop :=
  ∃ b, t.bindingOf n d = some b ∧ b.stale now t.idleTimeout = true

theorem evictIdle_removes (t : SessionTable Addr) (now : Time) (nets : MapOrder String)
    (devs : String → MapOrder UUID) :
    Removes (t.IsStale now) t (t.evictIdle now nets devs).1 := by
  have hsweep := evictIdle_sweeps t now nets devs
  refine ⟨?_, ?_⟩
  · intro n d v
    unfold holds
    rw [map_eq_some_iff, map_eq_some_iff]
    constructor
    · rintro ⟨b, hb, hv⟩
      obtain ⟨hb', hfresh⟩ := (hsweep.bindingOf n d b).mp hb
      refine ⟨⟨b, hb', hv⟩, ?_⟩
      rintro ⟨b', hb'', hstale⟩
      rw [hb'] at hb''
      exact hfresh ⟨trivial, some.inj hb'' ▸ hstale⟩
    · rintro ⟨⟨b, hb, hv⟩, hfresh⟩
      exact ⟨b, (hsweep.bindingOf n d b).mpr ⟨hb, fun hs => hfresh ⟨b, hb, hs.2⟩⟩, hv⟩
  · intro a ab
    -- The index loses the addresses of what has gone, and nothing else.
    rw [hsweep.lookup]
    refine and_congr_right fun _ => not_congr ?_
    constructor
    · rintro ⟨n, d, b, -, hb, hstale, rfl⟩
      exact ⟨n, d, b.expiresAt, ⟨b, hb, hstale⟩, by simp [holds, hb]⟩
    · rintro ⟨n, d, x, ⟨b, hb, hstale⟩, hx⟩
      simp only [holds, hb, map_some, Option.some.injEq, Prod.mk.injEq] at hx
      exact ⟨n, d, b, trivial, hb, hstale, hx.1⟩

/-! ### The index points at bindings -/

/-- Every index entry names a device that is bound at that address. -/
def Indexed (t : SessionTable Addr) : Prop :=
  ∀ a ab, t.lookup a = some ab → ∃ x, t.holds ab.networkID ab.deviceID = some (a, x)

theorem Indexed.removes (h : t.Indexed) (hrem : Removes D t t') : t'.Indexed := by
  intro a ab hl
  obtain ⟨hl', hnone⟩ := (hrem.lookup a ab).mp hl
  obtain ⟨x, hx⟩ := h a ab hl'
  -- The entry survived, so no binding at that address was removed.
  exact ⟨x, (hrem.holds _ _ _).mpr ⟨hx, fun hD => hnone ⟨_, _, x, hD, hx⟩⟩⟩

theorem Indexed.attach (h : t.Indexed) (hs : ∀ d', s.bindings.get d' = t.bindingOf s.networkID d')
    (now : Time) (d : UUID) (a : Addr) (x : Time) : (t.attach s now d a x).Indexed := by
  intro a' ab hl
  rw [lookup_attach hs] at hl
  rw [holds_attach hs]
  split at hl
  · next ha =>
    cases hl
    exact ⟨x, by rw [if_pos ⟨rfl, rfl⟩, ha]⟩
  · split at hl
    · cases hl
    · next hmoved =>
      obtain ⟨x', hx'⟩ := h a' ab hl
      refine ⟨x', ?_⟩
      rw [if_neg]
      · exact hx'
      · -- Otherwise this would be the address the device has just left.
        intro hkey
        rw [hkey.1, hkey.2] at hx'
        exact hmoved (by rw [hx']; rfl)

/-! ### Capacity -/

theorem bind_of_room (h : t.Room n) (now : Time) (d : UUID) (a : Addr) (x : Time) :
    (t.bind now n d a x).1 = .ok () ∧ (t.bind now n d a x).2.Room n := by
  fun_cases bind t now n d a x with
  | case1 s hs =>
    have hkey : s.networkID = n := key_of_get hs
    refine ⟨rfl, Or.inl ?_⟩
    simp [SessionTable.attach, get_put, hkey]
  | case2 hnone hfull =>
    -- The table is full and the network has no session, so there is no room.
    exfalso
    rcases h with hs | hmax | hlen
    · rw [hnone] at hs
      cases hs
    · omega
    · omega
  | case3 hnone hroom =>
    refine ⟨rfl, Or.inl ?_⟩
    simp [SessionTable.attach, get_put]

theorem bind_of_not_room (h : ¬ t.Room n) (now : Time) (d : UUID) (a : Addr) (x : Time) :
    t.bind now n d a x = (.error ⟨t.maxSessions⟩, t) := by
  unfold Room at h
  push Not at h
  obtain ⟨hnone, hmax, hlen⟩ := h
  unfold bind
  rw [not_isSome_iff_eq_none.mp hnone]
  exact if_pos ⟨by omega, by omega⟩

theorem unbind_sameSessions (t : SessionTable Addr) (n : String) (d : UUID) (b : Binding Addr) :
    SameSessions t (t.unbind n d b) := by
  unfold unbind
  split
  · exact ⟨fun _ => rfl, rfl, rfl⟩
  · next s hs => exact .of_put hs rfl rfl rfl

theorem route_sameSessions (t : SessionTable Addr) (now : Time) (n : String)
    (senderID peerID : UUID) : SameSessions t (t.route now n senderID peerID).2 := by
  fun_cases route t now n senderID peerID with
  | case1 | case2 => exact .refl t
  | case3 s hs sender hb hexp => exact unbind_sameSessions t n senderID sender
  | case4 s hs sender hb hexp t' hp => exact refresh_sameSessions hs sender now
  | case5 s hs sender hb hexp t' peer hp hexp' =>
    exact (refresh_sameSessions hs sender now).trans (unbind_sameSessions _ n peerID peer)
  | case6 s hs sender hb hexp t' peer hp hexp' => exact refresh_sameSessions hs sender now

/-! ### What `EvictIdle` leaves, and what it counts -/

/-- A session that is there has a binding. -/
def Occupied (t : SessionTable Addr) (n : String) : Prop :=
  ∀ s, t.sessions.get n = some s → ∃ d b, s.bindings.get d = some b

theorem evictBindings_sessions (now : Time) (n : String) (ds : List UUID) (t : SessionTable Addr) :
    SameSessions t (ds.foldl (evictBinding now n) t) ∧
      ∀ n', n' ≠ n → (ds.foldl (evictBinding now n) t).sessions.get n' = t.sessions.get n' := by
  induction ds generalizing t with
  | nil => exact ⟨.refl t, fun _ _ => rfl⟩
  | cons d ds ih =>
    obtain ⟨hsame, hother⟩ := ih (evictBinding now n t d)
    have hround : SameSessions t (evictBinding now n t d) ∧
        ∀ n', n' ≠ n → (evictBinding now n t d).sessions.get n' = t.sessions.get n' := by
      fun_cases evictBinding now n t d with
      | case1 | case3 => exact ⟨.refl t, fun _ _ => rfl⟩
      | case2 b hb hstale =>
        refine ⟨unbind_sameSessions t n d b, fun n' hn' => ?_⟩
        unfold unbind
        split
        · rfl
        · next s hs =>
          have hkey : s.networkID = n := key_of_get hs
          rw [get_put, if_neg (by rw [hkey]; exact hn')]
    exact ⟨hround.1.trans hsame, fun n' hn' => (hother n' hn').trans (hround.2 n' hn')⟩

theorem evictSession_sessions (now : Time) (devs : String → MapOrder UUID)
    (acc : SessionTable Addr × Nat) (n : String) :
    Occupied (evictSession now devs acc n).1 n ∧
      (∀ n', n' ≠ n → (evictSession now devs acc n).1.sessions.get n' = acc.1.sessions.get n') ∧
      (evictSession now devs acc n).2 + (evictSession now devs acc n).1.sessions.len =
        acc.2 + acc.1.sessions.len := by
  fun_cases evictSession now devs acc n with
  | case1 hnone => exact ⟨fun s hs => (nomatch hnone.symm.trans hs), fun _ _ => rfl, rfl⟩
  | case2 s hs =>
    obtain ⟨hsame, hother⟩ := evictBindings_sessions now n ((devs n).list s.bindings.map.keys) acc.1
    generalize ((devs n).list s.bindings.map.keys).foldl (evictBinding now n) acc.1 = t
      at hsame hother
    fun_cases dropEmpty n (t, acc.2) with
    | case1 hnone => exact ⟨fun s hs => (nomatch hnone.symm.trans hs), hother, by rw [hsame.len]⟩
    | case2 s' hs' hempty =>
      refine ⟨fun s'' hs'' => ?_, fun n' hn' => ?_, ?_⟩
      · rw [get_del, if_pos rfl] at hs''
        cases hs''
      · rw [get_del, if_neg hn']
        exact hother n' hn'
      · -- The session that goes is the one that is counted.
        have hlen : (t.sessions.del n).len + 1 = t.sessions.len := len_del_present hs'
        show acc.2 + 1 + (t.sessions.del n).len = _
        rw [← hsame.len, ← hlen]
        omega
    | case3 s' hs' hfull =>
      refine ⟨fun s'' hs'' => ?_, hother, by rw [hsame.len]⟩
      cases hs'.symm.trans hs''
      exact exists_get_of_len hfull

theorem evictSessions_sessions (now : Time) (devs : String → MapOrder UUID) (ns : List String)
    (acc : SessionTable Addr × Nat) :
    (∀ n, n ∈ ns ∨ Occupied acc.1 n → Occupied (ns.foldl (evictSession now devs) acc).1 n) ∧
      (ns.foldl (evictSession now devs) acc).2 +
        (ns.foldl (evictSession now devs) acc).1.sessions.len = acc.2 + acc.1.sessions.len := by
  induction ns generalizing acc with
  | nil => exact ⟨fun n hn => hn.resolve_left List.not_mem_nil, rfl⟩
  | cons n ns ih =>
    obtain ⟨hown, hother, hcount⟩ := evictSession_sessions now devs acc n
    obtain ⟨hoccupied, hrest⟩ := ih (evictSession now devs acc n)
    refine ⟨fun n' hn' => hoccupied n' ?_, hrest.trans hcount⟩
    by_cases heq : n' = n
    · rw [heq]
      exact .inr hown
    · refine hn'.imp (fun hmem => (List.mem_cons.mp hmem).resolve_left heq) fun hocc => ?_
      unfold Occupied
      rw [hother n' heq]
      exact hocc

theorem evictIdle_sessions (t : SessionTable Addr) (now : Time) (nets : MapOrder String)
    (devs : String → MapOrder UUID) :
    (∀ n, Occupied (t.evictIdle now nets devs).1 n) ∧
      (t.evictIdle now nets devs).2 + (t.evictIdle now nets devs).1.sessions.len =
        t.sessions.len := by
  obtain ⟨hocc, hcount⟩ := evictSessions_sessions now devs (nets.list t.sessions.map.keys) (t, 0)
  refine ⟨fun n => hocc n ?_, by rw [← Nat.zero_add t.sessions.len]; exact hcount⟩
  by_cases hn : n ∈ t.sessions.map.keys
  · exact .inl ((nets.perm _).mem_iff.mpr hn)
  · -- Not visited, so not there.
    refine .inr fun s hs => absurd (mem_keys.mpr ?_) hn
    rw [hs]
    rfl

/-- What is left of a table, and the count returned with it, when just the bindings that are
    idle or expired have gone. -/
structure EvictsExactly (now : Time) (t : SessionTable Addr) (r : SessionTable Addr × Nat) :
    Prop where
  bindings : ∀ n d b, r.1.bindingOf n d = some b ↔ t.bindingOf n d = some b ∧
    now.sub b.lastSeen ≤ t.idleTimeout ∧ (b.expiresAt.isZero = true ∨ now.after b.expiresAt = false)
  sessions : ∀ n, (r.1.sessions.get n).isSome = true ↔ ∃ d b, r.1.bindingOf n d = some b
  index : ∀ a ab, r.1.lookup a = some ab ↔ t.lookup a = some ab ∧
    ¬ ∃ n d b, t.bindingOf n d = some b ∧ r.1.bindingOf n d = none ∧ b.addr = a
  /-- No session is new, so this is how many have disappeared. -/
  count : (∀ n, (r.1.sessions.get n).isSome = true → (t.sessions.get n).isSome = true) ∧
    r.2 = t.sessions.len - r.1.sessions.len

/-- In whatever order the sessions and their bindings are visited. -/
theorem evictIdle_exact (t : SessionTable Addr) (now : Time) (nets : MapOrder String)
    (devs : String → MapOrder UUID) : EvictsExactly now t (t.evictIdle now nets devs) := by
  have hsweep := evictIdle_sweeps t now nets devs
  obtain ⟨hocc, hcount⟩ := evictIdle_sessions t now nets devs
  generalize t.evictIdle now nets devs = r at hsweep hocc hcount
  have hgone : ∀ {n d b}, t.bindingOf n d = some b →
      (r.1.bindingOf n d = none ↔ b.stale now t.idleTimeout = true) := by
    intro n d b hb
    rw [eq_none_iff_forall_ne_some, ← not_iff_not]
    push Not
    constructor
    · rintro ⟨b', hb'⟩ hstale
      obtain ⟨hb'', hfresh⟩ := (hsweep.bindingOf n d b').mp hb'
      cases hb.symm.trans hb''
      exact hfresh ⟨trivial, hstale⟩
    · exact fun hfresh => ⟨b, (hsweep.bindingOf n d b).mpr ⟨hb, fun hs => hfresh hs.2⟩⟩
  have hsessions : ∀ n, (r.1.sessions.get n).isSome = true ↔ ∃ d b, r.1.bindingOf n d = some b := by
    intro n
    rw [isSome_iff_exists]
    constructor
    · rintro ⟨s, hs⟩
      obtain ⟨d, b, hb⟩ := hocc n s hs
      exact ⟨d, b, bindingOf_eq_some.mpr ⟨s, hs, hb⟩⟩
    · rintro ⟨d, b, hb⟩
      obtain ⟨s, hs, -⟩ := bindingOf_eq_some.mp hb
      exact ⟨s, hs⟩
  refine ⟨fun n d b => ?_, hsessions, fun a ab => ?_, fun n hn => ?_, by omega⟩
  · rw [hsweep.bindingOf, true_and, not_stale_iff]
  · rw [hsweep.lookup]
    refine and_congr_right fun _ => not_congr (exists₃_congr fun n d b => ?_)
    rw [true_and]
    exact and_congr_right fun hb => and_congr_left fun _ => (hgone hb).symm
  · obtain ⟨d, b, hb⟩ := (hsessions n).mp hn
    obtain ⟨s, hs, -⟩ := bindingOf_eq_some.mp ((hsweep.bindingOf n d b).mp hb).1
    rw [hs]
    rfl

end SessionTable

end NexusVPN.Relay
