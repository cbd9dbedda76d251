import NexusVPN.Backend.Domain
import NexusVPN.Lib.GoMap
import NexusVPN.Lib.Pool

/-! # The event bus under any schedule

    `bus` and `subscription` of the embedded store.  `Publish` holds the bus's mutex while it
    offers an event to one subscriber after the other; reading from a channel and closing one
    need no mutex, and may happen in between.  What a subscriber is to receive is told by an
    `Account` that an observer of the run keeps, without looking at what the bus sends. -/

namespace NexusVPN.Backend.EventBus

open List Machine Option Nat

/-! ## Subscribers -/

/-- `make(chan domain.PeerEvent, 64)`. -/
def capacity : Nat := 64

/-- How far the function has come that `once` runs.  Only the first call of `Close` runs it,
    and the others wait until it is done. -/
inductive Once where
  | fresh
  | removing
  | closing
  | done
deriving DecidableEq

structure Subscriber where
  networks : List UUID
  /-- What waits in the channel. -/
  queue : List PeerEvent
  closed : Bool
  once : Once
  /-- What has been read from the channel. -/
  received : List PeerEvent

namespace Subscriber

def subscribe (networks : List UUID) : Subscriber := ⟨networks, [], false, .fresh, []⟩

def enter (sub : Subscriber) : Subscriber := { sub with once := .removing }

def remove (sub : Subscriber) : Subscriber := { sub with once := .closing }

/-- `close(s.ch)`. -/
def closeChannel (sub : Subscriber) : Subscriber := { sub with once := .done, closed := true }

/-- The body of `Publish`' loop, unless it panics. -/
def offer (e : PeerEvent) (sub : Subscriber) : Subscriber :=
  if e.networkID ∈ sub.networks ∧ sub.queue.length < capacity then
    { sub with queue := sub.queue ++ [e] }
  else sub

/-- It would send on a closed channel. -/
def panics (e : PeerEvent) (sub : Subscriber) : Bool :=
  decide (e.networkID ∈ sub.networks) && sub.closed

/-- Read from the channel. -/
def receive (sub : Subscriber) : Subscriber :=
  match sub.queue with
  | [] => sub
  | e :: queue => { sub with queue := queue, received := sub.received ++ [e] }

end Subscriber

/-! ## The bus -/

/-- How far a call of `Publish` has come. -/
structure Loop where
  event : PeerEvent
  todo : List Nat

structure State where
  subs : GoMap Nat Unit
  /-- All that ever subscribed. -/
  subscribers : List Subscriber
  /-- The call of `Publish` that holds the mutex. -/
  publishing : Option Loop
  panicked : Bool

def State.empty : State := ⟨∅, [], none, false⟩

def State.update (s : State) (k : Nat) (f : Subscriber → Subscriber) : State :=
  { s with subscribers := s.subscribers.modify k f }

inductive Act where
  /-- `Publish` takes the mutex. -/
  | publish (e : PeerEvent) (order : MapOrder Nat)
  /-- It goes through its loop once. -/
  | offer
  | unlock
  | subscribe (networks : List UUID)
  /-- A call of `Close` goes on, be it the subscriber's own or that of the goroutine that has
      waited for its context. -/
  | close (k : Nat)
  | receive (k : Nat)

def closeStep (s : State) (k : Nat) (sub : Subscriber) : Option State :=
  match sub.once with
  | .fresh => some (s.update k .enter)
  | .removing =>
    match s.publishing with
    | some _ => none
    | none => some ({ s with subs := s.subs.erase k }.update k .remove)
  | .closing => some ({ s with panicked := s.panicked || sub.closed }.update k .closeChannel)
  | .done => some s

def step (s : State) : Act → Option State
  | .publish e order =>
    match s.publishing with
    | some _ => none
    | none => some { s with publishing := some ⟨e, order.list s.subs.keys⟩ }
  | .offer =>
    match s.publishing with
    | some ⟨e, k :: todo⟩ =>
      some ({ s with
        publishing := some ⟨e, todo⟩
        panicked := s.panicked || (s.subscribers[k]?).any (Subscriber.panics e) }.update k
          (.offer e))
    | _ => none
  | .unlock =>
    match s.publishing with
    | some ⟨_, []⟩ => some { s with publishing := none }
    | _ => none
  | .subscribe networks =>
    match s.publishing with
    | some _ => none
    | none =>
      some { s with
        subs := s.subs.insert s.subscribers.length ()
        subscribers := s.subscribers ++ [.subscribe networks] }
  | .close k => (s.subscribers[k]?).bind (closeStep s k)
  | .receive k => some (s.update k .receive)

/-! ## What a subscriber is to receive -/

/-- The networks that a subscriber follows while it is subscribed, and what it is to receive. -/
structure Account where
  networks : Option (List UUID)
  due : List PeerEvent

namespace Account

def follows (x : Account) (e : PeerEvent) : Bool := x.networks.any (e.networkID ∈ ·)

/-- The account of subscriber `k` after an action in the state `s`.  An event for its networks
    is due once it is published, and no more so if 64 events are waiting when it is offered. -/
def after (k : Nat) (s : State) (x : Account) : Act → Account
  | .subscribe networks => if s.subscribers.length = k then ⟨some networks, []⟩ else x
  | .publish e _ => if x.follows e then { x with due := x.due ++ [e] } else x
  | .offer =>
    match s.publishing with
    | some ⟨e, j :: _⟩ =>
      if j = k ∧ x.follows e ∧ (s.subscribers[k]?).any (64 ≤ ·.queue.length) then
        { x with due := x.due.dropLast }
      else x
    | _ => x
  | .close j =>
    -- The call that takes it out of the map.
    if j = k ∧ (s.subscribers[k]?).any (·.once = .removing) then { x with networks := none } else x
  | .unlock | .receive _ => x

/-- The account after a run. -/
def along (k : Nat) (x : Account) (s : State) : List Act → Account
  | [] => x
  | act :: acts =>
    match step s act with
    | some s' => along k (x.after k s act) s' acts
    | none => x

end Account

/-- What `Publish` has still to offer to the subscriber. -/
def State.coming (s : State) (k : Nat) (x : Account) : List PeerEvent :=
  match s.publishing with
  | some l => if k ∈ l.todo ∧ x.follows l.event then [l.event] else []
  | none => []

/-! ## One subscriber -/

/-- `Close` has not yet taken it out of the map. -/
def Subscriber.subscribed (sub : Subscriber) : Prop := sub.once = .fresh ∨ sub.once = .removing

/-- A subscriber that is in the map or not, its account, and what it will still be offered. -/
structure Tidy (listed : Prop) (x : Account) (coming : List PeerEvent) (sub : Subscriber) :
    Prop where
  listed_iff : listed ↔ sub.subscribed
  follows : sub.subscribed → x.networks = some sub.networks
  left : ¬ sub.subscribed → x.networks = none
  closed_iff : sub.closed = true ↔ sub.once = .done
  small : sub.queue.length ≤ 64
  exact : sub.received ++ sub.queue ++ coming = x.due

namespace Tidy

variable {listed : Prop} {x : Account} {coming : List PeerEvent} {sub : Subscriber} {e : PeerEvent}

theorem of_iff {listed' : Prop} (h : Tidy listed x coming sub) (hiff : listed' ↔ listed) :
    Tidy listed' x coming sub :=
  { h with listed_iff := hiff.trans h.listed_iff }

theorem subscribe (networks : List UUID) (hlist : listed) :
    Tidy listed ⟨some networks, []⟩ [] (.subscribe networks) where
  listed_iff := iff_of_true hlist (.inl rfl)
  follows _ := rfl
  left hgone := absurd (.inl rfl) hgone
  closed_iff := iff_of_false nofun nofun
  small := zero_le _
  exact := rfl

section

variable (h : Tidy listed x coming sub)
include h

theorem opened (hlist : listed) : sub.closed = false := by
  cases hclose : sub.closed with
  | false => rfl
  | true =>
    have honce := h.listed_iff.mp hlist
    simp [Subscriber.subscribed, h.closed_iff.mp hclose] at honce

theorem follows_iff (hlist : listed) : x.follows e = true ↔ e.networkID ∈ sub.networks := by
  simp [Account.follows, h.follows (h.listed_iff.mp hlist)]

theorem not_follows (hgone : ¬ listed) : x.follows e = false := by
  simp [Account.follows, h.left fun hsub => hgone (h.listed_iff.mpr hsub)]

theorem receive : Tidy listed x coming sub.receive := by
  unfold Subscriber.receive
  split
  · exact h
  · next e queue hqueue =>
    have hsmall := h.small
    have hexact := h.exact
    rw [hqueue] at hsmall hexact
    refine { h with small := le_of_succ_le hsmall, exact := ?_ }
    rw [← hexact]
    simp

/-- One more step of `Close`. -/
theorem move {once : Once} (hopen : sub.once ≠ .done) (hmore : once ≠ .done)
    (hsame : sub.subscribed ↔ once = .fresh ∨ once = .removing) :
    Tidy listed x coming { sub with once := once } where
  listed_iff := h.listed_iff.trans hsame
  follows hsub := h.follows (hsame.mpr hsub)
  left hgone := h.left fun hsub => hgone (hsame.mp hsub)
  closed_iff := iff_of_false (fun hclose => hopen (h.closed_iff.mp hclose)) hmore
  small := h.small
  exact := h.exact

end

theorem offer (h : Tidy listed x [e] sub) (hnet : e.networkID ∈ sub.networks) :
    Tidy listed (if 64 ≤ sub.queue.length then { x with due := x.due.dropLast } else x) []
      (sub.offer e) := by
  unfold Subscriber.offer
  by_cases hfull : 64 ≤ sub.queue.length
  · rw [if_pos hfull, if_neg fun hroom => absurd hroom.2 (not_lt.mpr hfull)]
    refine { h with exact := ?_ }
    rw [← h.exact, dropLast_concat, append_nil]
  · rw [if_neg hfull, if_pos ⟨hnet, not_le.mp hfull⟩]
    refine { h with small := ?_, exact := ?_ }
    · rw [length_append, length_singleton]
      omega
    · rw [← h.exact]
      simp

end Tidy

/-! ## Every schedule -/

structure Inv (s : State) (x : Nat → Account) : Prop where
  calm : s.panicked = false
  tidy : ∀ (k : Nat) (sub : Subscriber), s.subscribers[k]? = some sub →
    Tidy (k ∈ s.subs) (x k) (s.coming k (x k)) sub
  known : ∀ k ∈ s.subs, k < s.subscribers.length
  loop : ∀ l, s.publishing = some l → l.todo.Nodup ∧ ∀ k ∈ l.todo, k ∈ s.subs

theorem inv_empty (x : Nat → Account) : Inv .empty x where
  calm := rfl
  tidy := nofun
  known := fun k hk => absurd hk (AList.notMem_empty k)
  loop := nofun

open State

section

variable {s : State} {x : Nat → Account} {k : Nat} {e : PeerEvent}

theorem coming_of_idle (h : s.publishing = none) (k : Nat) (x : Account) : s.coming k x = [] := by
  simp [coming, h]

theorem Inv.update {f : Subscriber → Subscriber} {s' : State} {x' : Nat → Account} (h : Inv s x)
    (hsame : s'.subscribers = s.subscribers) (hcalm : s'.panicked = false)
    (hoth : ∀ j, k ≠ j → (j ∈ s'.subs ↔ j ∈ s.subs) ∧ s'.coming j (x j) = s.coming j (x j) ∧
      x' j = x j)
    (hown : ∀ sub, s.subscribers[k]? = some sub →
      Tidy (k ∈ s'.subs) (x' k) (s'.coming k (x' k)) (f sub))
    (hknown : k ∈ s'.subs → k ∈ s.subs)
    (hloop : ∀ l, s'.publishing = some l → l.todo.Nodup ∧ ∀ j ∈ l.todo, j ∈ s'.subs) :
    Inv (s'.update k f) x' := by
  refine ⟨hcalm, ?_, ?_, hloop⟩
  · intro j sub' hsub'
    have hmodify : (s'.subscribers.modify k f)[j]? = some sub' := hsub'
    rw [getElem?_modify, hsame] at hmodify
    obtain ⟨sub, hsub, rfl⟩ := map_eq_some_iff.mp hmodify
    by_cases hj : k = j
    · subst hj
      rw [if_pos rfl]
      exact hown sub hsub
    · rw [if_neg hj]
      obtain ⟨hsubs, hcoming, hx⟩ := hoth j hj
      have ht := (h.tidy j sub hsub).of_iff hsubs
      rw [← hcoming, ← hx] at ht
      exact ht
  · intro j hj
    show j < (s'.subscribers.modify k f).length
    rw [length_modify, hsame]
    by_cases hjk : k = j
    · subst hjk
      exact h.known k (hknown hj)
    · exact h.known j ((hoth j hjk).1.mp hj)

section

variable (h : Inv s x)
include h

theorem inv_publish (hidle : s.publishing = none) (order : MapOrder Nat) :
    Inv { s with publishing := some ⟨e, order.list s.subs.keys⟩ }
      fun k => (x k).after k s (.publish e order) := by
  have hmem : ∀ j, j ∈ order.list s.subs.keys ↔ j ∈ s.subs :=
    fun j => (order.perm _).mem_iff.trans AList.mem_keys.symm
  refine ⟨h.calm, ?_, h.known, ?_⟩
  · intro j sub hsub
    have ht := h.tidy j sub hsub
    rw [coming_of_idle hidle] at ht
    by_cases hfol : (x j).follows e = true
    · -- It is due, and has still to be offered.
      have hj : j ∈ s.subs := by
        by_contra hgone
        rw [ht.not_follows hgone] at hfol
        cases hfol
      refine { ht with follows := ?_, left := ?_, exact := ?_ }
      all_goals simp only [Account.after, if_pos hfol]
      · exact ht.follows
      · exact ht.left
      · rw [← ht.exact, append_nil]
        exact congrArg (_ ++ ·) (if_pos ⟨(hmem j).mpr hj, hfol⟩)
    · simpa [Account.after, coming, hfol] using ht
  · rintro _ ⟨⟩
    exact ⟨(order.perm _).nodup_iff.mpr s.subs.keys_nodup, fun j => (hmem j).mp⟩

theorem inv_offer {todo : List Nat} (hloop : s.publishing = some ⟨e, k :: todo⟩) :
    Inv ({ s with
      publishing := some ⟨e, todo⟩
      panicked := s.panicked || (s.subscribers[k]?).any (Subscriber.panics e) }.update k
        (.offer e)) fun j => (x j).after j s .offer := by
  obtain ⟨hnodup, hmem⟩ := h.loop _ hloop
  obtain ⟨hnot, hrest⟩ := nodup_cons.mp hnodup
  have hk : k ∈ s.subs := hmem k mem_cons_self
  refine h.update rfl ?_ ?_ ?_ id ?_
  · -- It is still subscribed, so its channel is open.
    rw [h.calm, Bool.false_or]
    cases hsub : s.subscribers[k]? with
    | none => rfl
    | some sub => simp [Subscriber.panics, (h.tidy k sub hsub).opened hk]
  · intro j hj
    refine ⟨Iff.rfl, ?_, ?_⟩
    · simp [coming, hloop, Ne.symm hj]
    · simp [Account.after, hloop, hj]
  · intro sub hsub
    have ht := h.tidy k sub hsub
    have hnone : ∀ y, coming { s with
        publishing := some ⟨e, todo⟩
        panicked := s.panicked || (s.subscribers[k]?).any (Subscriber.panics e) } k y = [] := by
      intro y
      simp [coming, hnot]
    rw [hnone]
    -- Bus and account agree on whether the event is for this subscriber.
    by_cases hnet : e.networkID ∈ sub.networks
    · have hfol := (ht.follows_iff hk).mpr hnet
      have hnow : s.coming k (x k) = [e] := by simp [coming, hloop, hfol]
      rw [hnow] at ht
      simpa [Account.after, hloop, hfol, hsub] using ht.offer hnet
    · have hfol : ¬ (x k).follows e = true := fun hfol => hnet ((ht.follows_iff hk).mp hfol)
      have hnow : s.coming k (x k) = [] := by simp [coming, hloop, hfol]
      rw [hnow] at ht
      simpa [Account.after, hloop, hfol, Subscriber.offer, hnet] using ht
  · rintro _ ⟨⟩
    exact ⟨hrest, fun j hj => hmem j (mem_cons_of_mem k hj)⟩

theorem inv_unlock (hloop : s.publishing = some ⟨e, []⟩) : Inv { s with publishing := none } x := by
  refine ⟨h.calm, fun j sub hsub => ?_, h.known, nofun⟩
  have ht := h.tidy j sub hsub
  rw [show s.coming j (x j) = [] by simp [coming, hloop]] at ht
  exact ht

theorem inv_subscribe (hidle : s.publishing = none) (networks : List UUID) :
    Inv { s with
      subs := s.subs.insert s.subscribers.length ()
      subscribers := s.subscribers ++ [.subscribe networks] }
      fun k => (x k).after k s (.subscribe networks) := by
  refine ⟨h.calm, fun j sub hsub => ?_, fun j hj => ?_, fun l hl => ?_⟩
  · have hsub : (s.subscribers ++ [.subscribe networks])[j]? = some sub := hsub
    show Tidy (j ∈ s.subs.insert _ _) _ (s.coming j _) sub
    rw [coming_of_idle hidle]
    rcases getElem?_concat_cases hsub with hold | ⟨hj, rfl⟩
    · -- The number is new, so nobody else is concerned.
      have hne : s.subscribers.length ≠ j :=
        Ne.symm (Nat.ne_of_lt (List.getElem?_eq_some_iff.mp hold).1)
      have ht := h.tidy j sub hold
      rw [coming_of_idle hidle] at ht
      simp only [Account.after, if_neg hne]
      refine ht.of_iff ?_
      rw [AList.mem_insert s.subs]
      exact or_iff_right (Ne.symm hne)
    · simp only [Account.after, if_pos hj.symm]
      exact .subscribe networks ((AList.mem_insert s.subs).mpr (.inl hj))
  · rw [length_append, length_singleton]
    rcases (AList.mem_insert s.subs).mp hj with rfl | hold
    · exact lt_succ_self _
    · exact lt_succ_of_lt (h.known j hold)
  · rw [show s.publishing = some l from hl] at hidle
    cases hidle

theorem inv_closeStep {sub : Subscriber} (hsub : s.subscribers[k]? = some sub)
    {s' : State} (hstep : closeStep s k sub = some s') :
    Inv s' fun j => (x j).after j s (.close k) := by
  have ht := h.tidy k sub hsub
  have hown : ∀ sub', s.subscribers[k]? = some sub' → sub = sub' :=
    fun sub' hsub' => some.inj (hsub.symm.trans hsub')
  have hoth : ∀ j, k ≠ j → (x j).after j s (.close k) = x j := fun j hj => by
    simp [Account.after, hj]
  -- Only the call that removes it changes its account.
  have hsame : sub.once ≠ .removing → (fun j => (x j).after j s (.close k)) = x := by
    intro hne
    funext j
    by_cases hj : k = j
    · subst hj
      simp [Account.after, hsub, hne]
    · exact hoth j hj
  unfold closeStep at hstep
  split at hstep
  · next honce =>
    cases hstep
    rw [hsame (by simp [honce])]
    refine h.update rfl h.calm (fun j _ => ⟨Iff.rfl, rfl, rfl⟩) (fun sub' hsub' => ?_) id h.loop
    rw [← hown sub' hsub']
    exact ht.move (by simp [honce]) nofun (by simp [Subscriber.subscribed, honce])
  · next honce =>
    split at hstep
    · cases hstep
    · next hidle =>
      cases hstep
      refine h.update rfl h.calm (fun j hj => ⟨?_, rfl, hoth j hj⟩) (fun sub' hsub' => ?_)
        (fun hk => (AList.mem_erase.mp hk).2) (fun l hl => ?_)
      · rw [AList.mem_erase]
        exact and_iff_right (Ne.symm hj)
      · show Tidy _ _ (s.coming k _) _
        rw [coming_of_idle hidle] at ht ⊢
        rw [← hown sub' hsub']
        have hgone : ¬ k ∈ s.subs.erase k := fun hk => (AList.mem_erase.mp hk).1 rfl
        have hleft : ¬ sub.remove.subscribed := by simp [Subscriber.subscribed, Subscriber.remove]
        have hopen : ¬ sub.closed = true := by simp [ht.closed_iff, honce]
        simp only [Account.after, hsub, any_some, honce]
        exact ⟨iff_of_false hgone hleft, fun hsub => absurd hsub hleft, fun _ => rfl,
          iff_of_false hopen nofun, ht.small, ht.exact⟩
      · rw [show s.publishing = some l from hl] at hidle
        cases hidle
  · next honce =>
    cases hstep
    rw [hsame (by simp [honce])]
    refine h.update rfl ?_ (fun j _ => ⟨Iff.rfl, rfl, rfl⟩) (fun sub' hsub' => ?_) id h.loop
    · rw [h.calm, Bool.false_or, ← Bool.not_eq_true, ht.closed_iff, honce]
      exact nofun
    · rw [← hown sub' hsub']
      have hleft : ¬ sub.subscribed := by simp [Subscriber.subscribed, honce]
      exact ⟨iff_of_false (fun hk => hleft (ht.listed_iff.mp hk)) nofun, nofun,
        fun _ => ht.left hleft, iff_of_true rfl rfl, ht.small, ht.exact⟩
  · next honce =>
    cases hstep
    rw [hsame (by simp [honce])]
    exact h

theorem inv_receive : Inv (s.update k .receive) x :=
  h.update rfl h.calm (fun _ _ => ⟨Iff.rfl, rfl, rfl⟩)
    (fun sub hsub => (h.tidy k sub hsub).receive) id h.loop

end

end

theorem inv_step {s s' : State} {x : Nat → Account} {act : Act} (h : Inv s x)
    (hstep : step s act = some s') : Inv s' fun k => (x k).after k s act := by
  cases act with
  | publish e order =>
    simp only [step] at hstep
    split at hstep
    · cases hstep
    · next hidle =>
      cases hstep
      exact inv_publish h hidle order
  | offer =>
    simp only [step] at hstep
    split at hstep
    · next hloop =>
      cases hstep
      exact inv_offer h hloop
    · cases hstep
  | unlock =>
    simp only [step] at hstep
    split at hstep
    · next hloop =>
      cases hstep
      exact inv_unlock h hloop
    · cases hstep
  | subscribe networks =>
    simp only [step] at hstep
    split at hstep
    · cases hstep
    · next hidle =>
      cases hstep
      exact inv_subscribe h hidle networks
  | close k =>
    obtain ⟨sub, hsub, hclose⟩ := bind_eq_some_iff.mp hstep
    exact inv_closeStep h hsub hclose
  | receive k =>
    cases hstep
    exact inv_receive h

theorem inv_run {acts : List Act} {s s' : State} {x : Nat → Account} (h : Inv s x)
    (hrun : run step s acts = some s') : Inv s' fun k => .along k (x k) s acts := by
  induction acts generalizing s x with
  | nil =>
    cases hrun
    exact h
  | cons act acts ih =>
    obtain ⟨s₁, hs₁, hrest⟩ := bind_eq_some_iff.mp hrun
    simp only [Account.along, hs₁]
    exact ih (inv_step h hs₁) hrest

/-- No schedule sends on a closed channel or closes one twice.  At any time what a subscriber
    has read, what waits in its channel, at most 64 events, and what `Publish` is still going to
    offer to it are together exactly what is due to it, in the order of publication. -/
theorem bus_correct {acts : List Act} {s : State} (h : run step .empty acts = some s) :
    s.panicked = false ∧
      ∀ (k : Nat) (sub : Subscriber), s.subscribers[k]? = some sub →
        let x := Account.along k ⟨none, []⟩ .empty acts
        sub.queue.length ≤ 64 ∧ sub.received ++ sub.queue ++ s.coming k x = x.due := by
  have hinv := inv_run (inv_empty fun _ => ⟨none, []⟩) h
  exact ⟨hinv.calm, fun k sub hsub => ⟨(hinv.tidy k sub hsub).small, (hinv.tidy k sub hsub).exact⟩⟩

/-- A subscriber reads nothing while 65 events are published, and so misses the last.  It is
    closed while one more is offered to it, and reads that as well between its removal and the
    end of the channel; `Close` is called once more in the end. -/
def closedInTime : List Act :=
  let publish (d : UInt8) : Act := .publish ⟨.joined, .ofBytes [1], .ofBytes [d]⟩ .asStored
  .subscribe [.ofBytes [1]] :: (replicate 65 [publish 2, .offer, .unlock]).flatten ++
    [.receive 0, publish 3, .close 0, .offer, .unlock, .close 0] ++ replicate 64 (.receive 0) ++
    [.close 0, .close 0]

theorem bus_correct_closedInTime : ∃ s, run step .empty closedInTime = some s ∧
    s.subscribers.map (·.received.length) = [65] ∧ s.panicked = false ∧
    ∀ (k : Nat) (sub : Subscriber), s.subscribers[k]? = some sub →
      let x := Account.along k ⟨none, []⟩ .empty closedInTime
      sub.queue.length ≤ 64 ∧ sub.received ++ sub.queue ++ s.coming k x = x.due := by
  have hsome : ((run step .empty closedInTime).any fun s =>
      s.subscribers.map (·.received.length) = [65]) = true := by
    decide +kernel
  obtain ⟨s, hs, hread⟩ := (any_eq_true _ _).mp hsome
  exact ⟨s, hs, of_decide_eq_true hread, bus_correct hs⟩

end NexusVPN.Backend.EventBus
