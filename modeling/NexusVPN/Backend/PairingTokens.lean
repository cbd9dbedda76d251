import NexusVPN.Backend.AuthService
import NexusVPN.Lib.Pool

/-! # Pairing tokens

    `auth/pairing.go`: a pairing token signs one device in.  `Consume` checks the expiry
    while it parses the token, and remembers under a lock which tokens have been spent.  What
    has expired is forgotten, also under the lock, but with another reading of the clock.

    A token bears the right signature exactly if it was issued, and its id is new.  Any number
    of `Consume` calls are in progress.  The clock never goes back. -/

namespace NexusVPN.Backend.Auth

open List Prog Option Machine PairingManager AuthState

/-! ## The machine -/

/-- `jwt.NewNumericDate`: whole seconds. -/
def numericDate (t : Time) : Time := t - t % 1000000000

/-- The claims that `PairingManager.Issue` signs. -/
def issue (cfg : AuthConfig) (id userID : UUID) (networkID : String) (now : Time) :
    PairingClaims where
  id := id.string
  userID := userID.string
  networkID := networkID
  expiresAt := some (numericDate (now + cfg.pairingTTL))

structure Pairings where
  pool : Pool authIface AuthState String (Except DomainError PairingClaims)
  /-- The tokens that were issued. -/
  minted : List (String × PairingClaims)
  /-- The last reading of the clock. -/
  clock : Time

inductive PairingAction where
  | issue (token : String) (id userID : UUID) (networkID : String) (now : Time)
  | thread (a : Pool.Action String AuthInput)

/-- The expiry of the pairing token that the call spends. -/
def AuthCall.spends : AuthCall → Option Time
  | .spendPairing _ expires => some expires
  | _ => none

open Pairings

namespace Pairings

/-- Nothing has been issued or spent yet. -/
def start (now : Time) : Pairings := ⟨⟨.empty, []⟩, [], now⟩

/-- The library, to which exactly the tokens that were issued are valid. -/
def libAt (lib : AuthLib) (p : Pairings) : AuthLib :=
  { lib with
    parsePairing := fun token =>
      match p.minted.lookup token with
      | some claims => .ok claims
      | none => .error (.other "token signature is invalid: signature is invalid") }

def body (cfg : AuthConfig) (token : String) : Prog authIface (Except DomainError PairingClaims) :=
  (consume cfg token).run

/-- The clock does not go back, and no id is drawn twice. -/
def Possible (p : Pairings) : PairingAction → Prop
  | .issue token id _ _ now => p.clock ≤ now ∧ ∀ e ∈ p.minted, e.1 ≠ token ∧ e.2.id ≠ id.string
  | .thread (.spawn _) => True
  | .thread (.advance _ i) => p.clock ≤ i.now

instance (p : Pairings) (a : PairingAction) : Decidable (p.Possible a) := by
  unfold Possible
  split <;> infer_instance

def step (lib : AuthLib) (cfg : AuthConfig) (p : Pairings) (a : PairingAction) : Option Pairings :=
  if p.Possible a then
    match a with
    | .issue token id userID networkID now =>
      some { p with
        minted := (token, Auth.issue cfg id userID networkID now) :: p.minted, clock := now }
    | .thread (.spawn token) =>
      some { p with pool := { p.pool with
        threads := p.pool.threads ++ [(token, body cfg token)] } }
    | .thread (.advance n i) =>
      (Pool.step (handler (p.libAt lib)) (body cfg) (fun _ => none) p.pool
        (.advance n i)).map fun q => { p with pool := q, clock := i.now }
  else none

/-- A call of `Consume` has succeeded. -/
def Redeemed (p : Pairings) (n : Nat) (claims : PairingClaims) : Prop :=
  ∃ token, p.pool.threads[n]? = some (token, .ret (.ok claims))

/-- No two calls have succeeded with the same id. -/
def SingleUse (p : Pairings) : Prop :=
  ∀ n n' claims claims', p.Redeemed n claims → p.Redeemed n' claims' → claims.id = claims'.id →
    n = n'

/-- When a token is spent, it has not expired by the clock of the sweep. -/
def SpentInTime (p : Pairings) : PairingAction → Prop
  | .thread (.advance n i) => ∀ th ∈ p.pool.threads[n]?, ∀ c ∈ th.2.nextCall,
      ∀ expires ∈ c.spends, i.now ≤ expires
  | _ => True

instance (p : Pairings) (a : PairingAction) : Decidable (p.SpentInTime a) := by
  unfold SpentInTime
  split <;> infer_instance

/-! ## How far a call has come -/

/-- What is left of `Consume` when the token has been parsed. -/
def parsed (cfg : AuthConfig) (claims : PairingClaims) : AuthSvc PairingClaims := do
  let now ← call .now
  call (.spendPairing claims.id (claims.expiresAt.getD (now + cfg.pairingTTL)))
  return claims

/-- What is left when the time has come to take the lock. -/
def spending (claims : PairingClaims) (expires : Time) : AuthSvc PairingClaims := do
  call (.spendPairing claims.id expires)
  return claims

inductive Consuming (cfg : AuthConfig) (minted : List (String × PairingClaims)) (token : String) :
    Prog authIface (Except DomainError PairingClaims) → Prop
  | parsing : Consuming cfg minted token (body cfg token)
  | parsed {claims : PairingClaims} (h : (token, claims) ∈ minted) :
    Consuming cfg minted token (Pairings.parsed cfg claims).run
  | spending {claims : PairingClaims} {expires : Time} (h : (token, claims) ∈ minted)
    (hexp : claims.expiresAt = some expires) :
    Consuming cfg minted token (spending claims expires).run
  | spent {claims : PairingClaims} (h : (token, claims) ∈ minted) :
    Consuming cfg minted token (.ret (.ok claims))
  | failed (e : DomainError) : Consuming cfg minted token (.ret (.error e))

variable {lib : AuthLib} {cfg : AuthConfig} {p p' : Pairings} {token : String} {c : AuthCall}
  {k : Except DomainError c.Result → Prog authIface (Except DomainError PairingClaims)}

theorem Consuming.mono {minted minted' : List (String × PairingClaims)}
    {q : Prog authIface (Except DomainError PairingClaims)} (h : Consuming cfg minted token q)
    (hsub : ∀ e ∈ minted, e ∈ minted') : Consuming cfg minted' token q := by
  cases h with
  | parsing => exact .parsing
  | parsed h => exact .parsed (hsub _ h)
  | spending h hexp => exact .spending (hsub _ h) hexp
  | spent h => exact .spent (hsub _ h)
  | failed e => exact .failed e

variable {claims : PairingClaims}

theorem minted_of_parse {i : AuthInput} {s : AuthState}
    (h : (parse (p.libAt lib) token i s).1 = .ok claims) :
    (token, claims) ∈ p.minted := by
  unfold parse at h
  split at h
  · cases h
  · next claims' hsign =>
    have hlook : p.minted.lookup token = some claims' := by
      simp only [libAt] at hsign
      split at hsign
      · next hfound =>
        cases hsign
        exact hfound
      · cases hsign
    split at h
    · cases h
      obtain ⟨before, after, heq, -⟩ := lookup_eq_some_iff.mp hlook
      simp [heq]
    · cases h

theorem Consuming.next (hexp : ∀ e ∈ p.minted, e.2.expiresAt.isSome)
    (h : Consuming cfg p.minted token (.call c k)) (i : AuthInput) (s : AuthState) :
    Consuming cfg p.minted token (k (handler (p.libAt lib) c i s).1) := by
  generalize hq : Prog.call (I := authIface) c k = q at h
  cases h with
  | parsing =>
    cases hq
    cases hans : (handler (p.libAt lib) (.parsePairing token) i s).1 with
    | error e => exact .failed e
    | ok claims =>
      have hminted : (token, claims) ∈ p.minted := minted_of_parse hans
      show Consuming cfg p.minted token
        (require (claims.id ≠ "") _ >>= fun _ => Pairings.parsed cfg claims).run
      unfold require
      split
      · exact .parsed hminted
      · exact .failed _
  | @parsed claims hmem =>
    cases hq
    obtain ⟨expires, he⟩ := isSome_iff_exists.mp (hexp _ hmem)
    -- Every token that was issued expires, so it will be spent.
    rw [he]
    exact .spending hmem he
  | @spending claims expires hmem _ =>
    cases hq
    cases (handler (p.libAt lib) (.spendPairing claims.id expires) i s).1 with
    | error e => exact .failed e
    | ok _ => exact .spent hmem
  | spent | failed => cases hq

/-- Only the last call lets `Consume` succeed. -/
theorem Consuming.spends {i : AuthInput} {s : AuthState}
    (h : Consuming cfg p.minted token (.call c k))
    (hk : k (handler (p.libAt lib) c i s).1 = .ret (.ok claims)) :
    ∃ expires, c = .spendPairing claims.id expires ∧ claims.expiresAt = some expires ∧
      (spend claims.id expires i s).1 = .ok () := by
  generalize hq : Prog.call (I := authIface) c k = q at h
  cases h with
  | parsing =>
    cases hq
    cases hans : (handler (p.libAt lib) (.parsePairing token) i s).1 with
    | error e => cases hans ▸ hk
    | ok claims' =>
      replace hk : (require (claims'.id ≠ "") _ >>= fun _ => Pairings.parsed cfg claims').run =
        .ret (.ok claims) := hans ▸ hk
      unfold require at hk
      split at hk <;> cases hk
  | parsed => cases hq; cases hk
  | @spending claims' expires _ hexp =>
    cases hq
    cases hans : (handler (p.libAt lib) (.spendPairing claims'.id expires) i s).1 with
    | error e => cases hans ▸ hk
    | ok _ =>
      cases hans ▸ hk
      exact ⟨_, rfl, hexp, hans⟩
  | spent | failed => cases hq

variable (lib) in
theorem Consuming.call_cases (h : Consuming cfg p.minted token (.call c k)) :
    ((∀ id expires, c ≠ .spendPairing id expires) ∧ ∀ i s, (handler (p.libAt lib) c i s).2 = s) ∨
    ∃ claims expires, (token, claims) ∈ p.minted ∧ claims.expiresAt = some expires ∧
        c = .spendPairing claims.id expires := by
  generalize hq : Prog.call (I := authIface) c k = q at h
  cases h with
  | parsing =>
    cases hq
    refine .inl ⟨by simp, ?_⟩
    intro i s
    show (parse (p.libAt lib) token i s).2 = s
    unfold parse
    split
    · rfl
    · split <;> rfl
  | parsed hmem =>
    cases hq
    exact .inl ⟨by simp, fun _ _ => rfl⟩
  | spending hmem hexp =>
    cases hq
    exact .inr ⟨_, _, hmem, hexp, rfl⟩
  | spent | failed => cases hq

/-! ## The invariant -/

/-- A token that has been spent is remembered until it expires. -/
structure Ledger (cfg : AuthConfig) (p : Pairings) : Prop where
  consuming : ∀ th ∈ p.pool.threads, Consuming cfg p.minted th.1 th.2
  expires : ∀ e ∈ p.minted, e.2.expiresAt.isSome
  ids : ∀ e ∈ p.minted, ∀ e' ∈ p.minted, e.2.id = e'.2.id → e.2 = e'.2
  remembered : ∀ n claims expires, p.Redeemed n claims → claims.expiresAt = some expires →
    p.pool.shared.used.lookup claims.id = some expires ∨ expires < p.clock
  singleUse : p.SingleUse

theorem Ledger.minted (h : Ledger cfg p) {n : Nat} (hn : p.Redeemed n claims) :
    ∃ token, (token, claims) ∈ p.minted := by
  obtain ⟨token, hth⟩ := hn
  have hcons : Consuming cfg p.minted token (.ret (.ok claims)) :=
    h.consuming _ (mem_of_getElem? hth)
  cases hcons with
  | spent hmem => exact ⟨token, hmem⟩

theorem ledger_start (now : Time) : Ledger cfg (start now) where
  consuming _ h := nomatch h
  expires _ h := nomatch h
  ids _ h := nomatch h
  remembered _ _ _ h := by obtain ⟨_, h⟩ := h; cases h
  singleUse _ _ _ _ h := by obtain ⟨_, h⟩ := h; cases h

theorem Ledger.issue (h : Ledger cfg p) {id userID : UUID} {networkID : String} {now : Time}
    (hclock : p.clock ≤ now) (hnew : ∀ e ∈ p.minted, e.1 ≠ token ∧ e.2.id ≠ id.string) :
    Ledger cfg { p with
      minted := (token, Auth.issue cfg id userID networkID now) :: p.minted, clock := now } where
  consuming th hth := (h.consuming th hth).mono fun _ he => mem_cons_of_mem _ he
  expires := forall_mem_cons.mpr ⟨rfl, h.expires⟩
  ids e he e' he' hid := by
    rcases mem_cons.mp he with rfl | hold
    · rcases mem_cons.mp he' with rfl | hold'
      · rfl
      · exact absurd hid.symm (hnew e' hold').2
    · rcases mem_cons.mp he' with rfl | hold'
      · exact absurd hid (hnew e hold).2
      · exact h.ids e hold e' hold' hid
  remembered n claims expires hn hexp := by
    rcases h.remembered n claims expires hn hexp with hused | hpast
    · exact .inl hused
    · exact .inr (lt_of_lt_of_le hpast hclock)
  singleUse := h.singleUse

theorem redeemed_spawn {n : Nat} (hn : Redeemed { p with pool := { p.pool with
      threads := p.pool.threads ++ [(token, body cfg token)] } } n claims) :
    p.Redeemed n claims := by
  obtain ⟨token', hth⟩ := hn
  rcases getElem?_concat_cases hth with hold | ⟨-, heq⟩
  · exact ⟨token', hold⟩
  · cases heq

theorem Ledger.spawn (h : Ledger cfg p) (token : String) :
    Ledger cfg { p with pool := { p.pool with
      threads := p.pool.threads ++ [(token, body cfg token)] } } where
  consuming := forall_mem_append.mpr ⟨h.consuming, forall_mem_singleton.mpr .parsing⟩
  expires := h.expires
  ids := h.ids
  remembered n claims expires hn := h.remembered n claims expires (redeemed_spawn hn)
  singleUse n n' claims claims' hn hn' :=
    h.singleUse n n' claims claims' (redeemed_spawn hn) (redeemed_spawn hn')

section

variable {n : Nat} {i : AuthInput}

/-- The state after thread `n` has made its call. -/
def advanced (lib : AuthLib) (p : Pairings) (n : Nat) (i : AuthInput) (token : String)
    (c : AuthCall)
    (k : Except DomainError c.Result → Prog authIface (Except DomainError PairingClaims)) :
    Pairings :=
  { p with
    pool := ⟨(handler (p.libAt lib) c i p.pool.shared).2,
      p.pool.threads.set n (token, k (handler (p.libAt lib) c i p.pool.shared).1)⟩
    clock := i.now }

theorem redeemed_advanced (hcons : Consuming cfg p.minted token (.call c k)) {m : Nat}
    (hm : (advanced lib p n i token c k).Redeemed m claims) :
    p.Redeemed m claims ∨ m = n ∧ ∃ expires, c = .spendPairing claims.id expires ∧
      claims.expiresAt = some expires ∧
      (spend claims.id expires i p.pool.shared).1 = .ok () := by
  obtain ⟨token', hth⟩ := hm
  rcases getElem?_set_cases hth with ⟨rfl, heq⟩ | ⟨-, hold⟩
  · exact .inr ⟨rfl, hcons.spends (Prod.mk.inj heq).2.symm⟩
  · exact .inl ⟨token', hold⟩

variable {expires : Time}

theorem remembered_sweep {used : GoMap String Time} (ord : MapOrder String) (now : Time)
    {id : String} (h : used.lookup id = some expires) :
    (sweepLocked ord now used).lookup id = some expires ∨ expires < now := by
  unfold sweepLocked
  rw [GoMap.lookup_deleteLoop, h, filter_some]
  by_cases hpast : expires < now
  · exact .inr hpast
  · left
    simp [Time.after, hpast]

theorem Ledger.spend (h : Ledger cfg p) (hclock : p.clock ≤ i.now)
    (hmem : (token, claims) ∈ p.minted) (hexp : claims.expiresAt = some expires)
    (hintime : i.now ≤ expires)
    (hok : (spend claims.id expires i p.pool.shared).1 = .ok ()) {m : Nat}
    {claims' : PairingClaims} (hm : p.Redeemed m claims') : claims'.id ≠ claims.id := by
  intro hid
  obtain ⟨token', hmem'⟩ := h.minted hm
  obtain rfl : claims' = claims := h.ids _ hmem' _ hmem hid
  have hnow : ¬ expires < i.now := not_lt.mpr hintime
  rcases h.remembered m claims' expires hm hexp with hused | hpast
  · -- It is remembered still, and the call would have failed.
    rcases remembered_sweep i.idOrder i.now hused with hswept | hpast
    · unfold spend at hok
      simp only [hswept] at hok
      cases hok
    · exact hnow hpast
  · exact hnow (lt_of_lt_of_le hpast hclock)

theorem remembered_spend {id id' : String} {expires' : Time} {s : AuthState}
    (h : s.used.lookup id' = some expires')
    (hne : (spend id expires i s).1 = .ok () → id' ≠ id) :
    (spend id expires i s).2.used.lookup id' = some expires' ∨ expires' < i.now := by
  rcases remembered_sweep i.idOrder i.now h with hswept | hpast
  · left
    unfold spend at hne ⊢
    simp only at hne ⊢
    split
    · exact hswept
    · next hnone =>
      simp only [hnone, forall_const] at hne
      rw [AList.lookup_insert_ne hne]
      exact hswept
  · exact .inr hpast

theorem Ledger.advanced (h : Ledger cfg p) (hn : p.pool.threads[n]? = some (token, .call c k))
    (hclock : p.clock ≤ i.now)
    (hintime : ∀ id expires, c = .spendPairing id expires → i.now ≤ expires) :
    Ledger cfg (advanced lib p n i token c k) := by
  have hcons : Consuming cfg p.minted token (.call c k) := h.consuming _ (mem_of_getElem? hn)
  -- A token that is spent now has not been redeemed before.
  have hfirst : ∀ {id expires m claims}, c = .spendPairing id expires →
      (PairingManager.spend id expires i p.pool.shared).1 = .ok () → p.Redeemed m claims →
      claims.id ≠ id := by
    intro id expires m claims hc hok hm
    rcases hcons.call_cases lib with ⟨hother, -⟩ | ⟨claims', expires', hmem, hexp, hc'⟩
    · exact absurd hc (hother _ _)
    · cases hc'.symm.trans hc
      exact h.spend hclock hmem hexp (hintime _ _ hc) hok hm
  refine ⟨forall_mem_set h.consuming (hcons.next h.expires i p.pool.shared), h.expires, h.ids,
    ?_, ?_⟩
  · intro m claims expires hm hexp
    rcases redeemed_advanced hcons hm with hold | ⟨-, expires', rfl, hexp', hok⟩
    · rcases h.remembered m claims expires hold hexp with hused | hpast
      · rcases hcons.call_cases lib with ⟨-, hsame⟩ | ⟨claims', expires', -, -, rfl⟩
        · left
          show (handler (p.libAt lib) c i p.pool.shared).2.used.lookup _ = _
          rw [hsame]
          exact hused
        · exact remembered_spend hused fun hok => hfirst rfl hok hold
      · exact .inr (lt_of_lt_of_le hpast hclock)
    · left
      cases hexp'.symm.trans hexp
      show (PairingManager.spend claims.id expires i p.pool.shared).2.used.lookup _ = _
      unfold PairingManager.spend at hok ⊢
      simp only at hok ⊢
      split at hok
      · cases hok
      · rw [AList.lookup_insert]
  · intro m m' claims claims' hm hm' hid
    rcases redeemed_advanced hcons hm with hold | ⟨rfl, _, hc, -, hok⟩
    · rcases redeemed_advanced hcons hm' with hold' | ⟨-, _, hc, -, hok⟩
      · exact h.singleUse m m' claims claims' hold hold' hid
      · exact absurd hid (hfirst hc hok hold)
    · rcases redeemed_advanced hcons hm' with hold' | ⟨rfl, -⟩
      · exact absurd hid.symm (hfirst hc hok hold')
      · rfl

end

theorem Ledger.step (h : Ledger cfg p) {a : PairingAction} (hintime : p.SpentInTime a)
    (hstep : step lib cfg p a = some p') : Ledger cfg p' := by
  obtain ⟨hposs, hstep⟩ := ite_none_right_eq_some.mp hstep
  cases a with
  | issue token id userID networkID now =>
    cases hstep
    exact h.issue hposs.1 hposs.2
  | thread a =>
    cases a with
    | spawn token =>
      cases hstep
      exact h.spawn token
    | advance n i =>
      obtain ⟨q, hq, rfl⟩ := map_eq_some_iff.mp hstep
      rcases Pool.step_cases hq with ⟨_, ha, -⟩ | ⟨_, _, token, c, k, ha, hn, rfl⟩
      · cases ha
      · cases ha
        rw [Pool.forked, toList_none, map_nil, append_nil]
        refine h.advanced hn hposs ?_
        rintro id expires rfl
        exact hintime _ hn _ rfl expires rfl

end Pairings

/-- If every token that is spent has not expired by the clock of the sweep, then no two
    calls succeed with the same id. -/
theorem pairing_single_use (lib : AuthLib) (cfg : AuthConfig) (now : Time)
    (as : List PairingAction)
    (hintime : Along (Pairings.step lib cfg) SpentInTime (.start now) as) :
    Throughout (Pairings.step lib cfg) SingleUse (.start now) as := by
  have hledger : Throughout (Pairings.step lib cfg) (Pairings.Ledger cfg) (.start now) as :=
    hintime.throughout (fun _ _ _ h hc hs => h.step hc hs) (ledger_start now)
  exact hledger.mono fun _ h => h.singleUse

section

/-- A token that expires after five minutes. -/
def phoneToken : PairingAction := .issue "qr" (.ofBytes [1]) (.ofBytes [2]) "" 0

/-- Two calls present the token.  Each parses it while it is good, and the second takes the
    lock at that time. -/
def twoScans (late : Time) : List PairingAction :=
  [phoneToken, .thread (.spawn "qr"), .thread (.spawn "qr")] ++
    [0, 1, 0, 1, 0].map (fun n => .thread (.advance n { (default : AuthInput) with now := 9 })) ++
    [.thread (.advance 1 { (default : AuthInput) with now := late })]

theorem pairing_single_use_phone :
    Throughout (Pairings.step plainLib plainConfig) SingleUse (.start 0) (twoScans 10) :=
  pairing_single_use plainLib plainConfig 0 (twoScans 10) (by decide +kernel)

/-- The first token has been forgotten when the second call takes the lock. -/
theorem paired_twice :
    ∃ p, run (Pairings.step plainLib plainConfig) (.start 0) (twoScans 300000000001) =
      some p ∧ ¬ p.SingleUse := by
  refine ⟨_, rfl, ?_⟩
  intro h
  have hsame := h 0 1 _ _ ⟨_, rfl⟩ ⟨_, rfl⟩ rfl
  cases hsame

end

end NexusVPN.Backend.Auth
