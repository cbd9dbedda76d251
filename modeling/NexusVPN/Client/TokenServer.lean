import NexusVPN.Client.ApiClient
import NexusVPN.Lib.DottedDecimal

/-! # A control plane that rotates refresh tokens

    As far as a client can tell: an access token is good until the time that is written in
    it, and a refresh token is accepted once, for a new pair.

    * `Authority`: how tokens are made, and what is read from a token that is shown. -/

namespace NexusVPN.Client.Api

/-- The lifetime of an access token in seconds: a quarter of an hour. -/
def accessTTL : Nat := 900

/-- That of a refresh token: thirty days. -/
def refreshTTL : Nat := 2592000

structure Authority where
  /-- The pair that is issued as number `n` at the time `now`. -/
  pair : (n now : Nat) → Tokens
  /-- When an access token expires, if the signature is right. -/
  expires : String → Option Nat
  /-- The row in which a refresh token is found by its hash. -/
  row : String → Option Nat
  /-- What a request is answered whose token is accepted. -/
  answer : ApiRequest → ApiResponse
  expires_pair : ∀ n now, expires (pair n now).access = some (now + accessTTL)
  row_pair : ∀ n now, row (pair n now).refresh = some n
  access_ne_empty : ∀ n now, (pair n now).access ≠ ""
  refresh_ne_empty : ∀ n now, (pair n now).refresh ≠ ""
  answer_status : ∀ r, (answer r).status ≠ 401

structure RefreshRow where
  expiresAt : Nat
  revoked : Bool

/-- The clock, and the rows in the order in which they were made. -/
structure Sessions where
  now : Nat
  rows : List RefreshRow

namespace Authority

variable (A : Authority)

/-- The access token has not expired. -/
def Live (token : String) (now : Nat) : Prop := ∃ e, A.expires token = some e ∧ now < e

instance (token : String) (now : Nat) : Decidable (A.Live token now) :=
  decidable_of_iff (∃ e ∈ A.expires token, now < e) (by simp [Live])

/-- The refresh token has neither been used nor expired. -/
def Renewable (refresh : String) (s : Sessions) : Prop :=
  ∃ n row, A.row refresh = some n ∧ s.rows[n]? = some row ∧ row.revoked = false ∧
    s.now ≤ row.expiresAt

/-- `AuthService.Refresh`: the row is revoked, and there is a new one. -/
def renew (refresh : String) (s : Sessions) : Option (Tokens × Sessions) :=
  match A.row refresh with
  | none => none
  | some n =>
    match s.rows[n]? with
    | none => none
    | some row =>
      if row.revoked = false ∧ s.now ≤ row.expiresAt then
        some (A.pair s.rows.length s.now,
          { s with rows := s.rows.set n { row with revoked := true } ++
            [⟨s.now + refreshTTL, false⟩] })
      else none

/-- A control plane that always answers. -/
def serve : Host.Plane Sessions Unit := fun r _ s =>
  if r.method = "POST" ∧ r.path = "/auth/refresh" then
    match A.renew ((r.body.bind (List.lookup "refreshToken")).getD "") s with
    | some (t, s') => (some ⟨200, .tokens t⟩, s')
    | none => (some ⟨401, .other⟩, s)
  else if A.Live r.bearer s.now then (some (A.answer r), s)
  else (some ⟨401, .other⟩, s)

variable {A}

theorem live_pair (n now : Nat) : A.Live (A.pair n now).access now := by
  refine ⟨now + accessTTL, A.expires_pair n now, ?_⟩
  have hpositive : 0 < accessTTL := by decide
  omega

theorem renew_of_renewable {refresh : String} {s : Sessions} (h : A.Renewable refresh s) :
    ∃ t s', A.renew refresh s = some (t, s') ∧ s'.now = s.now ∧ A.Live t.access s'.now ∧
      A.Renewable t.refresh s' ∧ t.access ≠ "" ∧ t.refresh ≠ "" := by
  obtain ⟨n, row, hrow, hn, hrev, hnow⟩ := h
  have hrenew : A.renew refresh s = some (A.pair s.rows.length s.now,
      { s with rows := s.rows.set n { row with revoked := true } ++
        [⟨s.now + refreshTTL, false⟩] }) := by
    simp only [renew, hrow, hn]
    exact if_pos ⟨hrev, hnow⟩
  refine ⟨_, _, hrenew, rfl, live_pair _ _, ?_, A.access_ne_empty _ _, A.refresh_ne_empty _ _⟩
  refine ⟨s.rows.length, ⟨s.now + refreshTTL, false⟩, A.row_pair _ _, ?_, rfl, ?_⟩
  · rw [List.getElem?_append_right (by simp)]
    simp
  · exact Nat.le_add_right _ _

end Authority

/-- Tokens that say what they are. -/
def plainAuthority : Authority where
  pair n now := ⟨String.ofList (Nat.toDigits 10 now), String.ofList (Nat.toDigits 10 n)⟩
  expires token := (parseDecimal token.toList).map (· + accessTTL)
  row token := parseDecimal token.toList
  answer _ := ⟨200, .other⟩
  expires_pair n now := by simp [parseDecimal_toDigits]
  row_pair n now := by simp [parseDecimal_toDigits]
  access_ne_empty n now := by simp
  refresh_ne_empty n now := by simp
  answer_status r := by decide

end NexusVPN.Client.Api
