import NexusVPN.Backend.AuthService

/-! # Requests over HTTP

    What `transport/http` makes of a request before it calls a service: the address that
    `clientIP` takes for the client's, and the handler of `/auth/login`.  JSON is decoded by
    the standard library; a request carries the decoded body, or none if it was malformed. -/

namespace NexusVPN.Backend.Auth

open List Option String

/-! ## Addresses with a port -/

/-- `net.JoinHostPort`. -/
def joinHostPort (host port : List Char) : List Char :=
  if ':' ∈ host then '[' :: host ++ ']' :: ':' :: port else host ++ ':' :: port

/-- What precedes the last colon, and what follows it. -/
def cutLastColon (s : List Char) : Option (List Char × List Char) :=
  if ':' ∈ s then
    some ((s.reverse.dropWhile (· != ':')).tail.reverse, (s.reverse.takeWhile (· != ':')).reverse)
  else none

/-- `net.SplitHostPort`, without the texts of its errors. -/
def splitHostPort (s : List Char) : Option (List Char × List Char) := do
  let (before, port) ← cutLastColon s
  if s.head? = some '[' then
    -- The first closing bracket has to stand just before the last colon.
    if before.idxOf ']' + 1 = before.length ∧ '[' ∉ s.tail ∧ ']' ∉ port then
      some (before.tail.dropLast, port)
    else none
  else if ':' ∉ before ∧ '[' ∉ s ∧ ']' ∉ s then some (before, port)
  else none

example : splitHostPort "[fe80::1%eth0]:443".toList =
    some ("fe80::1%eth0".toList, "443".toList) := by decide

theorem cutLastColon_append (before : List Char) {port : List Char} (hport : ':' ∉ port) :
    cutLastColon (before ++ ':' :: port) = some (before, port) := by
  have hkeep : ∀ c ∈ port.reverse, (c != ':') = true := by
    intro c hc
    rw [bne_iff_ne]
    rintro rfl
    exact hport (mem_reverse.mp hc)
  have hreverse : (before ++ ':' :: port).reverse = port.reverse ++ ':' :: before.reverse := by
    simp
  rw [cutLastColon, if_pos (by simp), hreverse, dropWhile_append_of_pos hkeep,
    takeWhile_append_of_pos hkeep]
  simp

theorem splitHostPort_join {host port : List Char} (hhost : '[' ∉ host ∧ ']' ∉ host)
    (hport : ':' ∉ port ∧ '[' ∉ port ∧ ']' ∉ port) :
    splitHostPort (joinHostPort host port) = some (host, port) := by
  unfold joinHostPort
  split
  · next hcolon =>
    -- The last colon is the one behind the bracket.
    have hcut : cutLastColon ('[' :: host ++ ']' :: ':' :: port) =
        some ('[' :: host ++ [']'], port) := by
      rw [← cutLastColon_append ('[' :: host ++ [']']) hport.1]
      simp
    have hindex : ('[' :: host ++ [']']).idxOf ']' + 1 = ('[' :: host ++ [']']).length := by
      rw [idxOf_append_of_notMem (by simp [hhost.2])]
      simp
    rw [splitHostPort, hcut]
    simp only [bind_eq_bind, bind_some, cons_append, head?_cons, if_true]
    rw [if_pos ⟨hindex, by simp [hhost.1, hport.2.1], hport.2.2⟩]
    simp
  · next hcolon =>
    rw [splitHostPort, cutLastColon_append host hport.1]
    have hhead : (host ++ ':' :: port).head? ≠ some '[' := by
      cases host with
      | nil => simp
      | cons c host =>
        rintro heq
        cases heq
        exact hhost.1 mem_cons_self
    simp only [bind_eq_bind, bind_some]
    rw [if_neg hhead, if_pos ⟨hcolon, by simp [hhost.1, hport.2.1], by simp [hhost.2, hport.2.2]⟩]

/-- `net.TCPAddr`: an address as it is printed, with the zone if there is one, and a port. -/
structure TCPAddr where
  host : String
  port : Nat
  plain : '[' ∉ host.toList ∧ ']' ∉ host.toList

/-- `TCPAddr.String`, which the server takes for `RemoteAddr`. -/
def TCPAddr.string (a : TCPAddr) : String :=
  ofList (joinHostPort a.host.toList (Nat.toDigits 10 a.port))

theorem TCPAddr.split_string (a : TCPAddr) :
    splitHostPort a.string.toList = some (a.host.toList, Nat.toDigits 10 a.port) := by
  have hdig : ∀ c ∈ Nat.toDigits 10 a.port, c.isDigit = true := fun c hc =>
    Nat.isDigit_of_mem_toDigits (by decide) (by decide) hc
  rw [TCPAddr.string, toList_ofList]
  refine splitHostPort_join a.plain ⟨?_, ?_, ?_⟩ <;>
    exact fun hmem => absurd (hdig _ hmem) (by decide)

/-! ## Requests -/

structure HttpRequest (β : Type) where
  remoteAddr : String
  /-- The values under each canonical key. -/
  header : String → List String
  body : Option β

namespace HttpRequest

variable {β : Type}

/-- `Header.Get`. -/
def get (r : HttpRequest β) (key : String) : String := (r.header key).headD ""

/-- The part before the first comma, if there is a comma. -/
def firstOf (xff : String) : String :=
  if ',' ∈ xff.toList then trimSpace (ofList (xff.toList.takeWhile (· != ',')))
  else trimSpace xff

def clientIP (r : HttpRequest β) : String :=
  let xff := r.get "X-Forwarded-For"
  if xff ≠ "" then firstOf xff
  else
    match splitHostPort r.remoteAddr.toList with
    | some (host, _) => ofList host
    | none => r.remoteAddr

example : clientIP (β := Unit) ⟨"10.0.0.1:1234", fun key => if key = "X-Forwarded-For" then
    ["203.0.113.7, 10.0.0.1"] else [], none⟩ = "203.0.113.7" := by decide

theorem clientIP_of_direct {r : HttpRequest β} {a : TCPAddr}
    (hdirect : r.get "X-Forwarded-For" = "") (haddr : r.remoteAddr = a.string) :
    r.clientIP = a.host := by
  simp only [clientIP, hdirect, ne_eq, not_true_eq_false, if_false, haddr, a.split_string,
    ofList_toList]

end HttpRequest

/-! ## Case -/

/-- What Unicode says of case: `unicode.ToLower`, and simple case folding. -/
structure CaseTable where
  lower : Char → Char
  fold : Char → Char

namespace CaseTable

variable (t : CaseTable)

/-- `strings.ToLower`. -/
def toLower (s : String) : String := ofList (s.toList.map t.lower)

/-- `strings.EqualFold`: the same under simple case folding. -/
def equalFold (a b : String) : Bool := a.toList.map t.fold == b.toList.map t.fold

/-- Basic Latin, with the two characters outside that fold to letters of it, U+017F and
    U+212A.  No other character has to do with these. -/
def latin : CaseTable where
  lower c := if c = '\u212a' then 'k' else c.toLower
  fold c := if c = '\u017f' then 's' else if c = '\u212a' then 'k' else c.toLower

end CaseTable

/-- The library with these functions for case. -/
def AuthLib.withCase (lib : AuthLib) (t : CaseTable) : AuthLib :=
  { lib with std := { lib.std with equalFold := t.equalFold, toLower := t.toLower } }

/-! ## The handler of `/auth/login` -/

/-- `loginRequest`. -/
structure LoginBody where
  email : String
  password : String
  mfaCode : String

namespace HttpRequest

/-- `strings.TrimSpace(strings.ToLower(req.Email))`. -/
def normalized (t : CaseTable) (b : LoginBody) : String := trimSpace (t.toLower b.email)

/-- `AuthHandler.login`: the call of the service, unless the request is refused as malformed. -/
def login (t : CaseTable) (r : HttpRequest LoginBody) : Option AuthRequest := do
  let b ← r.body
  if normalized t b = "" ∨ b.password = "" then none
  else some (.login (normalized t b) b.password b.mfaCode r.clientIP (r.get "User-Agent"))

end HttpRequest

end NexusVPN.Backend.Auth
