import NexusVPN.Backend.CoordinationService
import NexusVPN.Backend.Expiry
import NexusVPN.Lib.Pool

/-! # Do two peers see each other's candidates?

    Each of two peers leaves its candidates for the other and then takes what the other has
    left, in four calls of the store.  Other peers do the same, and sweeps come in between. -/

namespace NexusVPN.Backend.Candidates

open List Machine Option GoMap Expiry ICEStore
open CoordinationService (iceTTL)

/-! ## The system -/

/-- A call of `ExchangeICE`. -/
structure Exchange where
  device : UUID
  target : UUID
  candidates : List ICECandidate

/-- Where it leaves its candidates. -/
def Exchange.key (q : Exchange) : IceKey := ⟨q.device, q.target⟩

/-- Where it looks for those of its target. -/
def Exchange.reply (q : Exchange) : IceKey := ⟨q.target, q.device⟩

/-- The store, and every list of candidates that was left in it, newest first.  The lists are
    an observation, and nothing reads them. -/
structure Desk where
  store : Store
  addressed : List (IceKey × List ICECandidate)

namespace Desk

/-- What the one most recently addressed to the other. -/
def latest (d : Desk) (k : IceKey) : Option (List ICECandidate) := d.addressed.lookup k

def noted : RepoCall → List (IceKey × List ICECandidate)
  | .putICE a b candidates _ => [(⟨a, b⟩, candidates)]
  | _ => []

def handler (lib : StdLib) : Handler repoIface Desk RepoInput := fun c i d =>
  ((Store.method lib c i d.store).1, ⟨(Store.method lib c i d.store).2, noted c ++ d.addressed⟩)

def expire (now : Time) (order : SweepOrder) (d : Desk) : Desk :=
  { d with store := expireStore now order d.store }

/-- All candidates that are in the store were the latest between the two. -/
def Consistent (d : Desk) : Prop :=
  ∀ k e, d.store.ice.lookup k = some e → d.latest k = some e.candidates

end Desk

abbrev Exchanges := Pool repoIface Desk Exchange (Except DomainError (List ICECandidate))

def body (q : Exchange) : Prog repoIface (Except DomainError (List ICECandidate)) :=
  (CoordinationService.exchangeICE q.device q.target q.candidates).run

inductive Act where
  | thread (a : Pool.Action Exchange RepoInput)
  | expire (now : Time) (order : SweepOrder)

def step (lib : StdLib) (p : Exchanges) : Act → Option Exchanges
  | .thread a => Pool.step (Desk.handler lib) body (fun _ => none) p a
  | .expire now order => some { p with shared := p.shared.expire now order }

/-- How many calls thread `n` has made. -/
def turns (n : Nat) : List Act → Nat
  | [] => 0
  | .thread (.advance m _) :: acts => (if m = n then 1 else 0) + turns n acts
  | _ :: acts => turns n acts

theorem turns_append (n : Nat) (acts acts' : List Act) :
    turns n (acts ++ acts') = turns n acts + turns n acts' := by
  induction acts with
  | nil => simp [turns]
  | cons a acts ih =>
    cases a with
    | expire now order => exact ih
    | thread a =>
      cases a with
      | spawn q => exact ih
      | advance m i =>
        show (if m = n then 1 else 0) + turns n (acts ++ acts') = _
        rw [ih, ← Nat.add_assoc]
        rfl

/-! ## Stages -/

inductive Stage where
  /-- The device is to be looked up, then the target. -/
  | caller
  | target
  | post
  | collect
  | returned (r : Except DomainError (List ICECandidate))

namespace Stage

/-- What is left to do. -/
def prog (q : Exchange) : Stage → Prog repoIface (Except DomainError (List ICECandidate))
  | .caller => body q
  | .target => (do
      let _ ← call (.devices (.getByID q.target))
      call (.putICE q.device q.target q.candidates iceTTL)
      call (.getICE q.device q.target) : Svc (List ICECandidate)).run
  | .post => (do
      call (.putICE q.device q.target q.candidates iceTTL)
      call (.getICE q.device q.target) : Svc (List ICECandidate)).run
  | .collect => (call (.getICE q.device q.target)).run
  | .returned r => .ret r

def step (q : Exchange) (i : RepoInput) (d : Desk) : Stage → Option (Stage × Desk)
  | .caller =>
    some (if (d.store.devices.get q.device).isSome then .target
      else .returned (.error .notFound), d)
  | .target =>
    some (if (d.store.devices.get q.target).isSome then .post
      else .returned (.error .notFound), d)
  | .post =>
    some (.collect, ⟨(put q.device q.target q.candidates iceTTL i d.store).2,
      (q.key, q.candidates) :: d.addressed⟩)
  | .collect => some (.returned (get q.device q.target i d.store).1, d)
  | .returned _ => none

/-- The next call of a stage, and the stage that its answer leads to. -/
theorem prog_cases (lib : StdLib) (q : Exchange) (st : Stage) :
    (∃ r, st = .returned r) ∨ ∃ c k, st.prog q = .call c k ∧ ∀ i d, ∃ st',
      st.step q i d = some (st', (Desk.handler lib c i d).2) ∧
      k (Desk.handler lib c i d).1 = st'.prog q := by
  have hdev : ∀ id i (d : Desk),
      Desk.handler lib (.devices (.getByID id)) i d =
        ((d.store.devices.get id).elim (.error .notFound) .ok, d) := by
    intro id i d
    simp only [Desk.handler, Store.method, Store.deviceMethod, DeviceRepo.getByID]
    cases d.store.devices.get id <;> rfl
  have hget : ∀ a b i (d : Desk),
      Desk.handler lib (.getICE a b) i d = ((get a b i d.store).1, d) := by
    intro a b i d
    have hstore : (get a b i d.store).2 = d.store := by rw [ice_get]
    show ((get a b i d.store).1, (⟨(get a b i d.store).2, d.addressed⟩ : Desk)) = _
    rw [hstore]
  cases st with
  | returned r => exact .inl ⟨r, rfl⟩
  | caller =>
    refine .inr ⟨.devices (.getByID q.device), _, rfl, fun i d => ?_⟩
    rw [hdev]
    cases hd : d.store.devices.get q.device with
    | none => exact ⟨.returned (.error .notFound), by simp [step, hd], rfl⟩
    | some dev => exact ⟨.target, by simp [step, hd], rfl⟩
  | target =>
    refine .inr ⟨.devices (.getByID q.target), _, rfl, fun i d => ?_⟩
    rw [hdev]
    cases hd : d.store.devices.get q.target with
    | none => exact ⟨.returned (.error .notFound), by simp [step, hd], rfl⟩
    | some dev => exact ⟨.post, by simp [step, hd], rfl⟩
  | post => exact .inr ⟨_, _, rfl, fun i d => ⟨.collect, rfl, rfl⟩⟩
  | collect =>
    refine .inr ⟨.getICE q.device q.target, _, rfl, fun i d => ?_⟩
    rw [hget]
    exact ⟨.returned (get q.device q.target i d.store).1, rfl, rfl⟩

/-- How many calls are left. -/
def left : Stage → Nat
  | .caller => 4
  | .target => 3
  | .post => 2
  | .collect => 1
  | .returned _ => 0

def Posted : Stage → Prop
  | .collect | .returned _ => True
  | .caller | .target | .post => False

end Stage

structure Staged where
  desk : Desk
  threads : List (Exchange × Stage)

variable {n : Nat} {s : Staged} {q : Exchange}

namespace Staged

def step (s : Staged) : Act → Option Staged
  | .thread (.spawn q) => some { s with threads := s.threads ++ [(q, .caller)] }
  | .thread (.advance n i) =>
    match s.threads[n]? with
    | some (q, st) => (st.step q i s.desk).map fun (st', d) => ⟨d, s.threads.set n (q, st')⟩
    | none => none
  | .expire now order => some { s with desk := s.desk.expire now order }

theorem step_cases {act : Act} {s' : Staged} (hstep : s.step act = some s') :
    (∃ now order, act = .expire now order ∧ s' = { s with desk := s.desk.expire now order }) ∨
    (∃ q, act = .thread (.spawn q) ∧ s' = { s with threads := s.threads ++ [(q, .caller)] }) ∨
    ∃ n i q st st' d, act = .thread (.advance n i) ∧ s.threads[n]? = some (q, st) ∧
      st.step q i s.desk = some (st', d) ∧ s' = ⟨d, s.threads.set n (q, st')⟩ := by
  unfold step at hstep
  split at hstep
  · exact .inr (.inl ⟨_, rfl, (some.inj hstep).symm⟩)
  · split at hstep
    · next hn =>
      obtain ⟨⟨st', d⟩, hmove, rfl⟩ := map_eq_some_iff.mp hstep
      exact .inr (.inr ⟨_, _, _, _, st', d, rfl, hn, hmove, rfl⟩)
    · cases hstep
  · exact .inl ⟨_, _, rfl, (some.inj hstep).symm⟩

def pool (s : Staged) : Exchanges := ⟨s.desk, s.threads.map fun th => (th.1, th.2.prog th.1)⟩

/-- The staged exchanges do what the pool of their programs does. -/
theorem pool_step (lib : StdLib) (s : Staged) (a : Act) :
    (s.step a).map pool = Candidates.step lib s.pool a := by
  cases a with
  | expire now order => rfl
  | thread a =>
    cases a with
    | spawn q =>
      show some (pool { s with threads := s.threads ++ [(q, .caller)] }) = _
      simp [pool, Candidates.step, Pool.step, Stage.prog]
    | advance n i =>
      simp only [step, Candidates.step, Pool.step, pool, getElem?_map]
      cases hn : s.threads[n]? with
      | none => rfl
      | some th =>
        obtain ⟨q, st⟩ := th
        rcases st.prog_cases lib q with ⟨r, rfl⟩ | ⟨c, k, hprog, hnext⟩
        · rfl
        · obtain ⟨st', hst', hk⟩ := hnext i s.desk
          simp [pool, hprog, hst', hk, map_set, Pool.forked]

theorem exists_run {lib : StdLib} {acts : List Act} {p : Exchanges}
    (hrun : run (Candidates.step lib) s.pool acts = some p) :
    ∃ s', run step s acts = some s' ∧ s'.pool = p := by
  rw [← run_map (pool_step lib) s acts] at hrun
  exact map_eq_some_iff.mp hrun

end Staged

/-! ## What is left in the store -/

section

variable {q' : Exchange} {i : RepoInput} {d d' : Desk} {st st' : Stage} {k : IceKey}
  {candidates : List ICECandidate} {t : Time}

/-- The candidates are there, and will be until `t`. -/
def Holds (d : Desk) (k : IceKey) (candidates : List ICECandidate) (t : Time) : Prop :=
  ∃ e, d.store.ice.lookup k = some e ∧ e.candidates = candidates ∧ t ≤ e.expires

theorem store_of_step (h : st.step q i d = some (st', d')) :
    (st = .post ∧ st' = .collect ∧ d' = ⟨{ d.store with
      ice := d.store.ice.insert q.key ⟨q.candidates, i.now + iceTTL⟩ },
      (q.key, q.candidates) :: d.addressed⟩) ∨ d' = d := by
  cases st with
  | caller | target | collect =>
    cases h
    exact .inr rfl
  | post =>
    cases h
    exact .inl ⟨rfl, rfl, rfl⟩
  | returned r => cases h

theorem devices_of_step (h : st.step q i d = some (st', d')) :
    d'.store.devices = d.store.devices := by
  rcases store_of_step h with ⟨-, -, rfl⟩ | rfl <;> rfl

theorem Holds.of_step (hd : Holds d k candidates t) (hk : k ≠ q.key)
    (h : st.step q i d = some (st', d')) : Holds d' k candidates t := by
  rcases store_of_step h with ⟨-, -, rfl⟩ | rfl
  · obtain ⟨e, hget, he⟩ := hd
    refine ⟨e, ?_, he⟩
    rw [lookup_insert_if, if_neg hk, hget]
  · exact hd

theorem Holds.expire (hd : Holds d k candidates t) {now : Time} (hnow : now ≤ t)
    (order : SweepOrder) : Holds (d.expire now order) k candidates t := by
  obtain ⟨e, hget, hcands, ht⟩ := hd
  refine ⟨e, ?_, hcands, ht⟩
  show (d.store.ice.deleteLoop order.ice fun _ e => now.after e.expires).lookup k = some e
  have hkept : now.after e.expires = false :=
    decide_eq_false (Int.not_lt.mpr (Int.le_trans hnow ht))
  rw [lookup_deleteLoop, hget, filter_some, hkept]
  rfl

theorem Desk.Consistent.of_step (hd : d.Consistent) (h : st.step q i d = some (st', d')) :
    d'.Consistent := by
  rcases store_of_step h with ⟨-, -, rfl⟩ | rfl
  · intro k e hget
    have hlook : (d.store.ice.insert q.key ⟨q.candidates, i.now + iceTTL⟩).lookup k = some e := hget
    show ((q.key, q.candidates) :: d.addressed).lookup k = some e.candidates
    rw [lookup_insert_if] at hlook
    rw [lookup_cons]
    split at hlook
    · next hk =>
      rw [hk, beq_self_eq_true, ← some.inj hlook]
    · next hk =>
      rw [beq_false_of_ne hk]
      exact hd k e hlook
  · exact hd

theorem Desk.Consistent.expire (hd : d.Consistent) (now : Time) (order : SweepOrder) :
    (d.expire now order).Consistent := by
  intro k e hget
  have hlook : (d.store.ice.deleteLoop order.ice fun _ e => now.after e.expires).lookup k =
      some e := hget
  rw [lookup_deleteLoop] at hlook
  exact hd k e (filter_eq_some_iff.mp hlook).1

end

/-! ## The two calls -/

section

variable {q' : Exchange} {i : RepoInput} {d d' : Desk} {st st' : Stage} {t : Time}

/-- What one of the two calls has done in `n` calls of the store, with candidates that are good
    until `t`. -/
structure Seat (t : Time) (d : Desk) (n : Nat) (q : Exchange) (st : Stage) : Prop where
  count : st.left + n = 4
  posted : st.Posted → Holds d q.key q.candidates t
  ok : ∀ r, st = .returned r → ∃ l, r = .ok l

theorem Seat.move (h : Seat t d n q st) (hnow : t ≤ i.now + iceTTL)
    (hdev : (d.store.devices.get q.device).isSome = true)
    (htarget : (d.store.devices.get q.target).isSome = true)
    (hstep : st.step q i d = some (st', d')) : Seat t d' (n + 1) q st' := by
  -- Four calls in all, whoever else makes calls in between.
  have hcount : ∀ st' : Stage, st.left = st'.left + 1 → st'.left + (n + 1) = 4 := by
    have hcount := h.count
    omega
  cases st with
  | caller =>
    simp only [Stage.step, hdev, if_true] at hstep
    cases hstep
    exact ⟨hcount .target rfl, False.elim, nofun⟩
  | target =>
    simp only [Stage.step, htarget, if_true] at hstep
    cases hstep
    exact ⟨hcount .post rfl, False.elim, nofun⟩
  | post =>
    cases hstep
    exact ⟨hcount .collect rfl, fun _ => ⟨_, AList.lookup_insert _, rfl, hnow⟩, nofun⟩
  | collect =>
    cases hstep
    refine ⟨hcount (.returned _) rfl, fun _ => h.posted trivial, ?_⟩
    rintro r ⟨⟩
    exact ⟨_, congrArg Prod.fst (ice_get i d.store q.device q.target)⟩
  | returned r => cases hstep

theorem Seat.of_step (h : Seat t d n q st) {sto sto' : Stage} (hkey : q.key ≠ q'.key)
    (hstep : sto.step q' i d = some (sto', d')) : Seat t d' n q st :=
  ⟨h.count, fun hposted => (h.posted hposted).of_step hkey hstep, h.ok⟩

theorem Seat.expire (h : Seat t d n q st) {now : Time} (hnow : now ≤ t)
    (order : SweepOrder) : Seat t (d.expire now order) n q st :=
  ⟨h.count, fun hposted => (h.posted hposted).expire hnow order, h.ok⟩

/-- What a call returns is what it finds when it collects. -/
theorem returned_of_step {l : List ICECandidate}
    (hstep : st.step q i d = some (.returned (.ok l), d')) : d = d' ∧
      ((d.store.ice.live IceEntry.expires i.now q.reply).map IceEntry.candidates).getD [] = l := by
  cases st with
  | caller | target =>
    simp only [Stage.step] at hstep
    split at hstep <;> cases hstep
  | post | returned => cases hstep
  | collect =>
    simp only [Stage.step, ice_get] at hstep
    cases hstep
    exact ⟨rfl, rfl⟩

theorem returned_of_holds {l : List ICECandidate} (hd : Holds d q.reply q'.candidates t)
    (hnow : i.now ≤ t) (hstep : st.step q i d = some (.returned (.ok l), d')) :
    l = q'.candidates := by
  obtain ⟨e, hget, hcands, ht⟩ := hd
  obtain ⟨-, rfl⟩ := returned_of_step hstep
  rw [live_eq_some.mpr ⟨hget, Int.le_trans hnow ht⟩]
  exact hcands

theorem latest_of_step {l : List ICECandidate} (hd : d.Consistent) (hl : l ≠ [])
    (hstep : st.step q i d = some (.returned (.ok l), d')) : d'.latest q.reply = some l := by
  obtain ⟨rfl, rfl⟩ := returned_of_step hstep
  cases hlive : d.store.ice.live IceEntry.expires i.now q.reply with
  | none =>
    rw [hlive] at hl
    exact absurd rfl hl
  | some e => exact hd q.reply e (live_eq_some.mp hlive).1

end

/-! ## The meeting -/

/-- Other exchanges are between other pairs, and everything happens while candidates that are
    left at `t₀` would still be good. -/
def Within (t₀ : Time) (a b : UUID) : Act → Prop
  | .thread (.spawn q) => q.key ≠ ⟨a, b⟩ ∧ q.key ≠ ⟨b, a⟩
  | .thread (.advance _ i) => t₀ ≤ i.now ∧ i.now ≤ t₀ + iceTTL
  | .expire now _ => now ≤ t₀ + iceTTL

instance (t₀ : Time) (a b : UUID) (act : Act) : Decidable (Within t₀ a b act) := by
  unfold Within
  split <;> infer_instance

section

variable {a b : UUID} {ca cb : List ICECandidate} {t₀ : Time}

/-- The two calls, after `acts`, among others. -/
structure Meeting (a b : UUID) (ca cb : List ICECandidate) (t₀ : Time) (acts : List Act)
    (d : Desk) (st st' : Stage) (others : List (Exchange × Stage)) : Prop where
  device : (d.store.devices.get a).isSome = true
  target : (d.store.devices.get b).isSome = true
  first : Seat (t₀ + iceTTL) d (turns 0 acts) ⟨a, b, ca⟩ st
  second : Seat (t₀ + iceTTL) d (turns 1 acts) ⟨b, a, cb⟩ st'
  others : ∀ th ∈ others, th.1.key ≠ ⟨a, b⟩ ∧ th.1.key ≠ ⟨b, a⟩
  met : ∀ l l', st = .returned (.ok l) → st' = .returned (.ok l') → l = cb ∨ l' = ca

def Meets (a b : UUID) (ca cb : List ICECandidate) (t₀ : Time) (acts : List Act)
    (s : Staged) : Prop :=
  ∃ st st' others, s.threads = (⟨a, b, ca⟩, st) :: (⟨b, a, cb⟩, st') :: others ∧
    Meeting a b ca cb t₀ acts s.desk st st' others

theorem turns_snoc (n m : Nat) (acts : List Act) (i : RepoInput) :
    turns n (acts ++ [.thread (.advance m i)]) = turns n acts + if m = n then 1 else 0 := by
  rw [turns_append]
  rfl

theorem meets_step (hne : a ≠ b) {acts : List Act} {act : Act} {s' : Staged}
    (h : Meets a b ca cb t₀ acts s) (hw : Within t₀ a b act) (hstep : s.step act = some s') :
    Meets a b ca cb t₀ (acts ++ [act]) s' := by
  obtain ⟨st, st', others, hths, hm⟩ := h
  have hkeys : (⟨a, b, ca⟩ : Exchange).key ≠ (⟨b, a, cb⟩ : Exchange).key :=
    fun heq => hne (congrArg IceKey.source heq)
  rcases Staged.step_cases hstep with ⟨now, order, rfl, rfl⟩ | ⟨q, rfl, rfl⟩ |
    ⟨n, i, q, stq, stq', d, rfl, hn, hmove, rfl⟩
  · refine ⟨st, st', others, hths, hm.device, hm.target, ?_, ?_, hm.others, hm.met⟩
    · rw [turns_append]
      exact hm.first.expire hw order
    · rw [turns_append]
      exact hm.second.expire hw order
  · refine ⟨st, st', others ++ [(q, .caller)], by rw [hths]; rfl, hm.device, hm.target,
      ?_, ?_, ?_, hm.met⟩
    · rw [turns_append]
      exact hm.first
    · rw [turns_append]
      exact hm.second
    · exact forall_mem_append.mpr ⟨hm.others, forall_mem_singleton.mpr hw⟩
  · obtain ⟨hafter, hpre⟩ := hw
    have hnow : t₀ + iceTTL ≤ i.now + iceTTL := Int.add_le_add_right hafter _
    have hdevs := devices_of_step hmove
    have hdevice : (d.store.devices.get a).isSome = true := hdevs ▸ hm.device
    have htarget : (d.store.devices.get b).isSome = true := hdevs ▸ hm.target
    rw [hths] at hn ⊢
    -- The two that are to meet are threads 0 and 1, and nobody else has their keys.
    match n with
    | 0 =>
      cases hn
      refine ⟨stq', st', others, rfl, hdevice, htarget, ?_, ?_, hm.others, ?_⟩
      · rw [turns_snoc]
        exact hm.first.move hnow hm.device hm.target hmove
      · rw [turns_snoc]
        exact hm.second.of_step (Ne.symm hkeys) hmove
      · rintro l l' rfl rfl
        exact .inl (returned_of_holds (hm.second.posted trivial) hpre hmove)
    | 1 =>
      cases hn
      refine ⟨st, stq', others, rfl, hdevice, htarget, ?_, ?_, hm.others, ?_⟩
      · rw [turns_snoc]
        exact hm.first.of_step hkeys hmove
      · rw [turns_snoc]
        exact hm.second.move hnow hm.target hm.device hmove
      · rintro l l' rfl rfl
        exact .inr (returned_of_holds (hm.first.posted trivial) hpre hmove)
    | n + 2 =>
      have hother := hm.others _ (mem_of_getElem? hn)
      refine ⟨st, st', others.set n (q, stq'), rfl, hdevice, htarget, ?_, ?_, ?_, hm.met⟩
      · rw [turns_snoc, if_neg (by omega)]
        exact hm.first.of_step (Ne.symm hother.1) hmove
      · rw [turns_snoc, if_neg (by omega)]
        exact hm.second.of_step (Ne.symm hother.2) hmove
      · exact forall_mem_set hm.others hother

theorem consistent_step {act : Act} {s' : Staged} (h : s.desk.Consistent)
    (hstep : s.step act = some s') : s'.desk.Consistent := by
  rcases Staged.step_cases hstep with ⟨now, order, -, rfl⟩ | ⟨q, -, rfl⟩ |
    ⟨n, i, q, st, st', d, -, -, hmove, rfl⟩
  · exact h.expire now order
  · exact h
  · exact h.of_step hmove

end

/-! ## The result -/

theorem Stage.prog_eq_ret {st : Stage} {r : Except DomainError (List ICECandidate)}
    (h : st.prog q = .ret r) : st = .returned r := by
  cases st with
  | returned r' =>
    cases h
    rfl
  | caller | target | post | collect => cases h

theorem Staged.returned_pool {r : Except DomainError (List ICECandidate)} :
    s.pool.threads[n]? = some (q, .ret r) ↔ s.threads[n]? = some (q, .returned r) := by
  show (s.threads.map fun th => (th.1, th.2.prog th.1))[n]? = some (q, .ret r) ↔ _
  rw [getElem?_map]
  constructor
  · intro h
    obtain ⟨⟨q', st⟩, hn, heq⟩ := map_eq_some_iff.mp h
    have hprog : st.prog q' = .ret r := congrArg Prod.snd heq
    have hq : q' = q := congrArg Prod.fst heq
    rw [hn, hq, Stage.prog_eq_ret hprog]
  · intro h
    rw [h]
    rfl

theorem Seat.returned_iff {t : Time} {d : Desk} {st : Stage} (h : Seat t d n q st) :
    n = 4 ↔ ∃ r, st = .returned r := by
  have hcount := h.count
  cases st with
  | returned r =>
    simp only [Stage.left] at hcount
    exact ⟨fun _ => ⟨r, rfl⟩, fun _ => by omega⟩
  | caller | target | post | collect =>
    simp only [Stage.left] at hcount
    exact ⟨fun _ => by omega, nofun⟩

open Staged

/-- Two calls that name each other's devices, among calls of others and sweeps.  Each is over
    after four calls of the store, and one of the two returns the candidates of the other.
    Whatever any call returns is what its target most recently addressed to it. -/
theorem candidates_meet {lib : StdLib} {d : Desk} {a b : UUID} {ca cb : List ICECandidate}
    {t₀ : Time} {acts : List Act} {p : Exchanges} (hne : a ≠ b)
    (ha : (d.store.devices.get a).isSome = true) (hb : (d.store.devices.get b).isSome = true)
    (hd : d.Consistent) (hacts : ∀ act ∈ acts, Within t₀ a b act)
    (hrun : run (step lib) ⟨d, [(⟨a, b, ca⟩, body ⟨a, b, ca⟩),
      (⟨b, a, cb⟩, body ⟨b, a, cb⟩)]⟩ acts = some p) :
    (turns 0 acts = 4 ↔ ∃ r, p.threads[0]? = some (⟨a, b, ca⟩, .ret r)) ∧
    (turns 1 acts = 4 ↔ ∃ r, p.threads[1]? = some (⟨b, a, cb⟩, .ret r)) ∧
    (∀ ra rb, p.threads[0]? = some (⟨a, b, ca⟩, .ret ra) →
      p.threads[1]? = some (⟨b, a, cb⟩, .ret rb) →
      ∃ la lb, ra = .ok la ∧ rb = .ok lb ∧ (la = cb ∨ lb = ca)) ∧
    (∀ n i p' q l, step lib p (.thread (.advance n i)) = some p' →
      p'.threads[n]? = some (q, .ret (.ok l)) → l ≠ [] → p'.shared.latest q.reply = some l) := by
  obtain ⟨s, hs, rfl⟩ := exists_run (s := ⟨d, [(⟨a, b, ca⟩, .caller), (⟨b, a, cb⟩, .caller)]⟩) hrun
  have hmeets : Meets a b ca cb t₀ acts s := by
    refine Along.induction (C := fun _ act => Within t₀ a b act)
      (P := fun acts s => Meets a b ca cb t₀ acts s) ?_ ?_
      (along_of_forall_mem (fun act hact _ => hacts act hact) _) hs
    · exact ⟨.caller, .caller, [], rfl, ha, hb, ⟨rfl, False.elim, nofun⟩, ⟨rfl, False.elim, nofun⟩,
        nofun, nofun⟩
    · exact fun acts act s s' _ h hw hstep => meets_step hne h hw hstep
  have hconsistent : s.desk.Consistent :=
    run_invariant (P := fun s => s.desk.Consistent)
      (fun s act s' h hstep => consistent_step h hstep) hd hs
  obtain ⟨st, st', others, hths, hm⟩ := hmeets
  have hfirst : ∀ r, s.pool.threads[0]? = some (⟨a, b, ca⟩, .ret r) ↔ st = .returned r := by
    intro r
    rw [returned_pool, hths]
    simp
  have hsnd : ∀ r, s.pool.threads[1]? = some (⟨b, a, cb⟩, .ret r) ↔ st' = .returned r := by
    intro r
    rw [returned_pool, hths]
    simp
  refine ⟨?_, ?_, ?_, ?_⟩
  · simp only [hfirst]
    exact hm.first.returned_iff
  · simp only [hsnd]
    exact hm.second.returned_iff
  · intro ra rb hra hrb
    obtain ⟨la, rfl⟩ := hm.first.ok ra ((hfirst ra).mp hra)
    obtain ⟨lb, rfl⟩ := hm.second.ok rb ((hsnd rb).mp hrb)
    exact ⟨la, lb, rfl, rfl, hm.met la lb ((hfirst _).mp hra) ((hsnd _).mp hrb)⟩
  · intro n i p' q l hstep hret hl
    rw [← pool_step] at hstep
    obtain ⟨s', hs', rfl⟩ := map_eq_some_iff.mp hstep
    have hlast := returned_pool.mp hret
    rcases Staged.step_cases hs' with ⟨_, _, ⟨⟩, -⟩ | ⟨_, ⟨⟩, -⟩ |
      ⟨_, _, q', sto, sto', d', ⟨⟩, hn, hmove, rfl⟩
    rw [getElem?_set_self (List.getElem?_eq_some_iff.mp hn).1] at hlast
    cases hlast
    exact latest_of_step hconsistent hl hmove

/-! ### A meeting -/

def deviceA : UUID := .ofBytes [1]

def deviceB : UUID := .ofBytes [2]

/-- The desk of two devices. -/
def plainDesk : Desk where
  store := { Store.empty with devices :=
    ([deviceA, deviceB].map fun id => (⟨id, .nil, .nil, "", .linux, "", "", "", none, none, none,
      .unknown, none, 0, 0, false, 0, 0⟩ : Device)).foldl Table.put .empty }
  addressed := []

theorem consistent_plainDesk : plainDesk.Consistent := by
  intro k e h
  have hnone : (∅ : GoMap IceKey IceEntry).lookup k = some e := h
  rw [AList.lookup_empty] at hnone
  cases hnone

/-- Two calls that take turns; a sweep comes in between. -/
def alternating : List Act :=
  let turn (n : Nat) : Act := .thread (.advance n default)
  [turn 0, turn 1, turn 0, turn 1, turn 0, .expire 1 ⟨.asStored, .asStored, .asStored⟩,
    turn 0, turn 1, turn 1]

theorem candidates_meet_alternating :
    let plainLib : StdLib := ⟨fun _ => none, fun _ => "", fun _ _ => false, id⟩
    let qa : Exchange := ⟨deviceA, deviceB, [⟨"10.0.0.1", 1, "udp", "host", 1⟩]⟩
    let qb : Exchange := ⟨deviceB, deviceA, [⟨"10.0.0.2", 2, "udp", "host", 1⟩]⟩
    ∃ p la lb, run (step plainLib) ⟨plainDesk, [(qa, body qa), (qb, body qb)]⟩ alternating =
        some p ∧
      p.threads[0]? = some (qa, .ret (.ok la)) ∧ p.threads[1]? = some (qb, .ret (.ok lb)) ∧
      (la = qb.candidates ∨ lb = qa.candidates) := by
  intro plainLib qa qb
  have hsome : (run (step plainLib) ⟨plainDesk, [(qa, body qa), (qb, body qb)]⟩
      alternating).isSome = true := by decide +kernel
  obtain ⟨p, hp⟩ := isSome_iff_exists.mp hsome
  have hacts : ∀ act ∈ alternating, Within 0 deviceA deviceB act := by decide +kernel
  obtain ⟨hfirst, hsnd, hmet, -⟩ := candidates_meet (by decide +kernel) (by decide +kernel)
    (by decide +kernel) consistent_plainDesk hacts hp
  obtain ⟨ra, hra⟩ := hfirst.mp rfl
  obtain ⟨rb, hrb⟩ := hsnd.mp rfl
  obtain ⟨la, lb, rfl, rfl, hor⟩ := hmet ra rb hra hrb
  exact ⟨p, la, lb, hp, hra, hrb, hor⟩

end NexusVPN.Backend.Candidates
