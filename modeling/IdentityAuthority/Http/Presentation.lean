import IdentityAuthority.Core.Values
import IdentityAuthority.Parsing.Fields

/-!
# Presentations of credentials

What a request presents in its headers: a session cookie, a bearer secret, an origin and a token
against forgery. Each is read by an accessor of its own from all the values that a name has.
-/

namespace IdentityAuthority

/-- An answer that refuses a request: its status and its code. -/
structure HttpError where
  status : ℕ
  code : String
deriving DecidableEq

/-- `BAD`. -/
def HttpError.bad : HttpError := ⟨400, "malformed_request"⟩

/-- `UNAUTH`. -/
def HttpError.unauth : HttpError := ⟨401, "invalid_credential"⟩

/-- `FORBIDDEN`. -/
def HttpError.forbidden : HttpError := ⟨403, "csrf_rejected"⟩

/-- The value of a header: bytes without control characters, but for the tabulator. -/
structure HeaderValue where
  bytes : List UInt8
  legal : ∀ b ∈ bytes, b = 9 ∨ 32 ≤ b ∧ b ≠ 127
deriving DecidableEq

namespace HeaderValue

/-- The characters that the bytes stand for. -/
def chars (value : HeaderValue) : List Char := value.bytes.map fun b => Char.ofNat b.toNat

/-- The value is a text of visible characters of ASCII, blanks and tabulators. -/
def isText (value : HeaderValue) : Bool :=
  value.bytes.all fun b => decide (b = 9 ∨ 32 ≤ b ∧ b < 127)

/-- `HeaderValue::to_str`. -/
def toStr (value : HeaderValue) : Option (List Char) :=
  if value.isText then some value.chars else none

end HeaderValue

/-- The headers of a request: names in lower case with values, in order. -/
structure HeaderMap where
  entries : List (String × HeaderValue)

namespace HeaderMap

/-- `HeaderMap::get_all`. -/
def getAll (headers : HeaderMap) (name : String) : List HeaderValue :=
  (headers.entries.filter fun entry => entry.1 = name).map Prod.snd

/-- `HeaderMap::contains_key`. -/
def containsKey (headers : HeaderMap) (name : String) : Bool :=
  headers.entries.any fun entry => entry.1 = name

end HeaderMap

/-- The secret of a browser session: 64 hexadecimal digits in lower case. -/
structure SessionSecret where
  text : List Char
  length_text : text.length = 64
  digits : ∀ c ∈ text, c.isDigit = true ∨ 'a' ≤ c ∧ c ≤ 'f'
deriving DecidableEq

/-- `SessionSecret::parse`. -/
def SessionSecret.parse (value : List Char) : Option SessionSecret :=
  if h : value.length = 64 ∧ (value.all fun c => c.isDigit || decide ('a' ≤ c ∧ c ≤ 'f')) = true then
    some ⟨value, h.1, by simpa using h.2⟩
  else none

/-- The programmatic credential. -/
structure BearerSecret where
  secret : SessionSecret
deriving DecidableEq

/-- `BearerSecret::parse`. -/
def BearerSecret.parse (value : List Char) : Option BearerSecret :=
  (SessionSecret.parse value).map .mk

/-- `unique`. -/
def unique (headers : HeaderMap) (name : String) : Except HttpError (Option (List Char)) :=
  match headers.getAll name with
  | [] => .ok none
  | first :: rest =>
    match first.toStr with
    | none => .error .bad
    | some text => if rest.isEmpty then .ok (some text) else .error .bad

/-- The parts of the text of one `Cookie` header. -/
def HeaderValue.parts (value : HeaderValue) : List (List Char) := value.chars.splitOn ';'

/-- The parts of one `Cookie` header, as `named_cookie` scans them. -/
def scanParts (nameExpected : List Char) (found : Option (List Char)) :
    List (List Char) → Except HttpError (Option (List Char))
  | [] => .ok found
  | part :: rest =>
    match Fields.splitOnce '=' (Fields.trim isWhitespace part) with
    | none => .error .bad
    | some (name, value) =>
      if name = nameExpected then
        if found.isSome then .error .bad else scanParts nameExpected (some value) rest
      else scanParts nameExpected found rest

/-- The `Cookie` headers, as `named_cookie` scans them, with the bytes so far. -/
def scanCookies (nameExpected : List Char) (found : Option (List Char)) (size : ℕ) :
    List HeaderValue → Except HttpError (Option (List Char))
  | [] => .ok found
  | value :: rest =>
    if 8192 < size + value.bytes.length then .error .bad
    else
      match value.toStr with
      | none => .error .bad
      | some text =>
        match scanParts nameExpected found (text.splitOn ';') with
        | .error e => .error e
        | .ok found => scanCookies nameExpected found (size + value.bytes.length) rest

/-- `named_cookie`. -/
def namedCookie (headers : HeaderMap) (nameExpected : List Char) :
    Except HttpError (Option (List Char)) :=
  scanCookies nameExpected none 0 (headers.getAll "cookie")

/-- `SESSION_COOKIE_NAME`. -/
def sessionCookieName : List Char := "__Host-identity-session".toList

/-- `GRANT_COOKIE`. -/
def grantCookie : List Char := "__Host-identity-operation".toList

/-- `cookie_presentation`. -/
def cookiePresentation (headers : HeaderMap) : Except HttpError Unit :=
  if headers.containsKey "authorization" || headers.containsKey "x-api-key" then .error .bad
  else .ok ()

/-- `cookie_value`. -/
def cookieValue (headers : HeaderMap) : Except HttpError (Option (List Char)) :=
  namedCookie headers sessionCookieName

/-- `bearer_presentation`. -/
def bearerPresentation (headers : HeaderMap) : Except HttpError Unit := do
  let presented ← cookieValue headers
  if presented.isSome || headers.containsKey "x-api-key" then .error .bad else .ok ()

/-- `cookie`. -/
def cookie (headers : HeaderMap) : Except HttpError (Option SessionSecret) := do
  cookiePresentation headers
  match ← cookieValue headers with
  | none => .ok none
  | some value =>
    match SessionSecret.parse value with
    | none => .error .unauth
    | some secret => .ok (some secret)

/-- `login_cookie`. -/
def loginCookie (headers : HeaderMap) : Except HttpError (Option SessionSecret) := do
  let value ← cookieValue headers
  .ok (value.bind SessionSecret.parse)

/-- `grant`, of the routes for platform authenticators. -/
def grant (headers : HeaderMap) : Except HttpError (Option (List Char)) :=
  namedCookie headers grantCookie

/-- `same_origin`. -/
def sameOrigin (headers : HeaderMap) (origin : List Char) : Except HttpError Unit :=
  match unique headers "origin" with
  | .ok (some presented) => if presented = origin then .ok () else .error .forbidden
  | _ => .error .forbidden

/-- `csrf`, with the token that a secret determines. -/
def csrf (token : SessionSecret → List Char) (headers : HeaderMap) (secret : SessionSecret) :
    Except HttpError Unit := do
  match ← unique headers "x-csrf-token" with
  | none => .error .forbidden
  | some presented => if token secret = presented then .ok () else .error .forbidden

/-- `str::eq_ignore_ascii_case`. -/
def eqIgnoreAsciiCase (s t : List Char) : Bool := decide (s.map Char.toLower = t.map Char.toLower)

/-- `credential`, of the programmatic routes. -/
def credential (headers : HeaderMap) : Except HttpError BearerSecret := do
  bearerPresentation headers
  match ← unique headers "authorization" with
  | none => .error .unauth
  | some value =>
    match Fields.splitOnce ' ' value with
    | none => .error .unauth
    | some (scheme, secret) =>
      if eqIgnoreAsciiCase scheme "bearer".toList then
        match BearerSecret.parse secret with
        | none => .error .unauth
        | some secret => .ok secret
      else .error .unauth

/-- What the programmatic login refuses before it reads its input. -/
def bearerLoginPresentation (headers : HeaderMap) : Except HttpError Unit := do
  bearerPresentation headers
  if headers.containsKey "authorization" then .error .bad else .ok ()

end IdentityAuthority
