import IdentityAuthority.Http.Presentation

/-!
# Credentials are presented once

The scan of the `Cookie` headers reads all their parts as one list, whatever headers they came in and
whatever blanks stood around them. A request presents a cookie or a bearer secret, never both, and what
it presents twice is refused.
-/

namespace IdentityAuthority

open Fields

/-- The name that a part of a `Cookie` header is for. -/
def cookieName (part : List Char) : List Char := (trim isWhitespace part).takeWhile (· ≠ '=')

/-- The value that a part of a `Cookie` header has. -/
def cookieRest (part : List Char) : List Char := ((trim isWhitespace part).dropWhile (· ≠ '=')).tail

/-- The parts of all `Cookie` headers. -/
def cookieParts (headers : HeaderMap) : List (List Char) :=
  (headers.getAll "cookie").flatMap HeaderValue.parts

/-- The `Cookie` headers are texts, and not too long together. -/
structure CookieText (headers : HeaderMap) : Prop where
  text : ∀ value ∈ headers.getAll "cookie", value.isText = true
  size : ((headers.getAll "cookie").map fun value => value.bytes.length).sum ≤ 8192

instance (headers : HeaderMap) : Decidable (CookieText headers) :=
  decidable_of_iff _ ⟨fun h => ⟨h.1, h.2⟩, fun h => And.intro h.text h.size⟩

/-- The outcome for the values that were found: none, or the only one. -/
def onlyOne : List (List Char) → Except HttpError (Option (List Char))
  | [] => .ok none
  | [value] => .ok (some value)
  | _ => .error .bad

/-- The values of the parts with a name. -/
def valuesOf (nameExpected : List Char) (parts : List (List Char)) : List (List Char) :=
  (parts.filter fun part => cookieName part = nameExpected).map cookieRest

section Scanning

variable {nameExpected : List Char} {found : Option (List Char)} {parts parts' : List (List Char)}
  {part value : List Char}

theorem not_blank_mark : isWhitespace '=' = false := by decide

theorem splitOnce_trim : splitOnce '=' (trim isWhitespace part) =
    if '=' ∈ part then some (cookieName part, cookieRest part) else none := by
  unfold splitOnce cookieName cookieRest
  simp only [mem_trim_iff not_blank_mark]

theorem valuesOf_cons : valuesOf nameExpected (part :: parts) =
    if cookieName part = nameExpected then cookieRest part :: valuesOf nameExpected parts
    else valuesOf nameExpected parts := by
  unfold valuesOf
  rw [List.filter_cons]
  split <;> simp_all

/-- The scan of parts fails unless all have a value, and finds the only one with the name. -/
theorem scanParts_eq : scanParts nameExpected found parts =
    if ∀ part ∈ parts, '=' ∈ part then onlyOne (found.toList ++ valuesOf nameExpected parts)
    else .error .bad := by
  induction parts generalizing found with
  | nil => cases found <;> rfl
  | cons part parts ih =>
    rw [scanParts, splitOnce_trim, valuesOf_cons]
    by_cases hpart : '=' ∈ part
    · simp only [hpart, if_true, List.forall_mem_cons, true_and]
      by_cases hname : cookieName part = nameExpected
      · rw [if_pos hname, if_pos hname]
        cases found with
        | none =>
          rw [if_neg (by simp), ih]
          rfl
        | some first =>
          rw [if_pos (by simp)]
          split <;> rfl
      · rw [if_neg hname, if_neg hname, ih]
    · rw [if_neg hpart, if_neg]
      intro hall
      exact hpart (hall part List.mem_cons_self)

/-- Parts that are scanned one list after the other are scanned as one list. -/
theorem scanParts_append : scanParts nameExpected found (parts ++ parts') =
    (scanParts nameExpected found parts).bind fun found => scanParts nameExpected found parts' := by
  induction parts generalizing found with
  | nil => rfl
  | cons part parts ih =>
    rw [List.cons_append, scanParts, scanParts]
    cases splitOnce '=' (trim isWhitespace part) with
    | none => rfl
    | some cut =>
      by_cases hname : cut.1 = nameExpected
      · simp only [if_pos hname]
        cases found with
        | none => exact ih
        | some first => rfl
      · simp only [if_neg hname]
        exact ih

theorem scanParts_error {e : HttpError} (h : scanParts nameExpected found parts = .error e) :
    e = .bad := by
  rw [scanParts_eq] at h
  split at h
  · unfold onlyOne at h
    split at h <;> cases h
    rfl
  · cases h
    rfl

/-- The scan of headers is one of all their parts, as long as the headers are texts in the bound. -/
theorem scanCookies_eq {size : ℕ} {values : List HeaderValue} (hsize : size ≤ 8192) :
    scanCookies nameExpected found size values =
      if (∀ value ∈ values, value.isText = true) ∧
          size + (values.map fun value => value.bytes.length).sum ≤ 8192 then
        scanParts nameExpected found (values.flatMap HeaderValue.parts)
      else .error .bad := by
  induction values generalizing found size with
  | nil => simp [scanCookies, scanParts, hsize]
  | cons value values ih =>
    rw [scanCookies]
    simp only [List.forall_mem_cons, List.map_cons, List.sum_cons, List.flatMap_cons]
    by_cases hbound : 8192 < size + value.bytes.length
    · rw [if_pos hbound, if_neg]
      rintro ⟨-, htotal⟩
      omega
    · rw [if_neg hbound]
      by_cases htext : value.isText = true
      · have hstr : value.toStr = some value.chars := if_pos htext
        simp only [hstr, htext, true_and, scanParts_append]
        rw [← Nat.add_assoc]
        cases hscan : scanParts nameExpected found (value.chars.splitOn ';') with
        | error e =>
          rw [HeaderValue.parts, hscan, scanParts_error hscan]
          exact (ite_self _).symm
        | ok next =>
          rw [HeaderValue.parts, hscan]
          exact ih (by omega)
      · rw [HeaderValue.toStr, if_neg htext, if_neg]
        rintro ⟨⟨htext', -⟩, -⟩
        exact htext htext'

end Scanning

section Cookies

variable {headers headers' : HeaderMap} {nameExpected value : List Char}

/-- The cookie of a name, in one step. -/
theorem namedCookie_eq : namedCookie headers nameExpected =
    if CookieText headers ∧ ∀ part ∈ cookieParts headers, '=' ∈ part then
      onlyOne (valuesOf nameExpected (cookieParts headers))
    else .error .bad := by
  unfold namedCookie
  rw [scanCookies_eq (by omega), Nat.zero_add, scanParts_eq]
  by_cases htext : CookieText headers
  · rw [if_pos ⟨htext.text, htext.size⟩]
    simp only [htext, true_and]
    rfl
  · rw [if_neg fun h => htext ⟨h.1, h.2⟩]
    simp only [htext, false_and, if_false]

theorem onlyOne_eq_some {values : List (List Char)} :
    onlyOne values = .ok (some value) ↔ values = [value] := by
  cases values with
  | nil => simp [onlyOne]
  | cons first rest =>
    cases rest with
    | nil => simp [onlyOne]
    | cons second rest => simp [onlyOne]

/-- The only part with a name is the only value of that name. -/
theorem valuesOf_eq_singleton {parts : List (List Char)} :
    valuesOf nameExpected parts = [value] ↔
      ∃ part, (parts.filter fun part => cookieName part = nameExpected) = [part] ∧
        value = cookieRest part := by
  unfold valuesOf
  rw [List.map_eq_singleton_iff]
  simp only [eq_comm]

/-- A cookie is found exactly if the headers are read in full and one part has the name. -/
theorem namedCookie_eq_some : namedCookie headers nameExpected = .ok (some value) ↔
    CookieText headers ∧ (∀ part ∈ cookieParts headers, '=' ∈ part) ∧
      ∃ part, ((cookieParts headers).filter fun part => cookieName part = nameExpected) = [part] ∧
        value = cookieRest part := by
  rw [namedCookie_eq, ← valuesOf_eq_singleton, ← onlyOne_eq_some]
  split
  case isTrue hread =>
    constructor
    · intro h
      exact ⟨hread.1, hread.2, h⟩
    · intro h
      exact h.2.2
  case isFalse hunread =>
    constructor
    · intro h
      cases h
    · rintro ⟨htext, hparts, -⟩
      exact absurd ⟨htext, hparts⟩ hunread

/-- Where two parts have a name, its cookie is refused. -/
theorem namedCookie_of_two
    (h : 2 ≤ ((cookieParts headers).filter fun part => cookieName part = nameExpected).length) :
    namedCookie headers nameExpected = .error .bad := by
  rw [namedCookie_eq]
  split
  · have hvalues : 2 ≤ (valuesOf nameExpected (cookieParts headers)).length := by
      rwa [valuesOf, List.length_map]
    unfold onlyOne
    split
    case h_1 hnone => simp [hnone] at hvalues
    case h_2 hone => simp [hone] at hvalues
    case h_3 => rfl
  · rfl

/-- The values of a name among trimmed parts. -/
theorem valuesOf_trim (parts : List (List Char)) :
    valuesOf nameExpected parts =
      ((parts.map (trim isWhitespace)).filter fun part =>
        part.takeWhile (· ≠ '=') = nameExpected).map
          (fun part => (part.dropWhile (· ≠ '=')).tail) := by
  unfold valuesOf cookieName cookieRest
  rw [List.filter_map, List.map_map]
  rfl

theorem onlyOne_perm {values values' : List (List Char)} (h : values.Perm values') :
    onlyOne values = onlyOne values' := by
  match values, values', h.length_eq with
  | [], [], _ => rfl
  | [value], [value'], _ => rw [List.singleton_perm_singleton.mp h]
  | _ :: _ :: _, _ :: _ :: _, _ => rfl

/-- Headers with the same parts but for their order and the blanks around them present the same
cookies. -/
theorem namedCookie_perm (htext : CookieText headers) (htext' : CookieText headers')
    (h : ((cookieParts headers).map (trim isWhitespace)).Perm
      ((cookieParts headers').map (trim isWhitespace))) :
    namedCookie headers nameExpected = namedCookie headers' nameExpected := by
  have hmarks : (∀ part ∈ cookieParts headers, '=' ∈ part) ↔
      ∀ part ∈ cookieParts headers', '=' ∈ part := by
    have hleft : ∀ parts : List (List Char), (∀ part ∈ parts, '=' ∈ part) ↔
        ∀ part ∈ parts.map (trim isWhitespace), '=' ∈ part := by
      intro parts
      rw [List.forall_mem_map]
      simp only [mem_trim_iff not_blank_mark]
    rw [hleft (cookieParts headers), hleft (cookieParts headers')]
    exact ⟨fun hall part hpart => hall part (h.mem_iff.mpr hpart),
      fun hall part hpart => hall part (h.mem_iff.mp hpart)⟩
  have hvalues : onlyOne (valuesOf nameExpected (cookieParts headers)) =
      onlyOne (valuesOf nameExpected (cookieParts headers')) := by
    apply onlyOne_perm
    rw [valuesOf_trim, valuesOf_trim]
    exact (h.filter _).map _
  rw [namedCookie_eq, namedCookie_eq, hvalues]
  simp only [htext, htext', true_and, hmarks]

end Cookies

section Accessors

variable {headers : HeaderMap} {name : String}

theorem containsKey_iff : headers.containsKey name = true ↔ headers.getAll name ≠ [] := by
  simp [HeaderMap.containsKey, HeaderMap.getAll]

/-- A header that is there twice is refused by the accessor of single ones. -/
theorem unique_of_two (h : 2 ≤ (headers.getAll name).length) :
    unique headers name = .error .bad := by
  unfold unique
  split
  case h_1 hnone => simp [hnone] at h
  case h_2 first rest hvalues =>
    cases first.toStr with
    | none => rfl
    | some text =>
      cases rest with
      | nil => simp [hvalues] at h
      | cons => rfl

theorem unique_eq_some {text : List Char} (h : unique headers name = .ok (some text)) :
    headers.getAll name ≠ [] := by
  intro hnone
  simp [unique, hnone] at h

/-- A header that is there twice is there. -/
theorem containsKey_of_two (h : 2 ≤ (headers.getAll name).length) :
    headers.containsKey name = true := by
  rw [containsKey_iff]
  intro hnone
  simp [hnone] at h

/-- A cookie is presented without the headers of programmatic clients only. -/
theorem cookiePresentation_of_authorization (h : headers.containsKey "authorization" = true) :
    cookiePresentation headers = .error .bad := by
  simp [cookiePresentation, h]

theorem cookie_eq_some {secret : SessionSecret} (h : cookie headers = .ok (some secret)) :
    headers.containsKey "authorization" = false := by
  cases hkey : headers.containsKey "authorization" with
  | false => rfl
  | true => simp [cookie, cookiePresentation_of_authorization hkey, bind, Except.bind] at h

theorem credential_eq_ok {bearer : BearerSecret} (h : credential headers = .ok bearer) :
    headers.containsKey "authorization" = true := by
  unfold credential at h
  cases hpresentation : bearerPresentation headers with
  | error e => simp [hpresentation, bind, Except.bind] at h
  | ok =>
    cases hvalue : unique headers "authorization" with
    | error e => simp [hpresentation, hvalue, bind, Except.bind] at h
    | ok value =>
      cases value with
      | none => simp [hpresentation, hvalue, bind, Except.bind] at h
      | some text => exact containsKey_iff.mpr (unique_eq_some hvalue)

/-- What refuses a cookie refuses as malformed. -/
theorem bearerPresentation_error {e : HttpError} (h : bearerPresentation headers = .error e) :
    e = .bad := by
  unfold bearerPresentation at h
  cases hvalue : cookieValue headers with
  | error e' =>
    simp only [hvalue, bind, Except.bind] at h
    unfold cookieValue at hvalue
    rw [namedCookie_eq] at hvalue
    cases h
    split at hvalue
    · unfold onlyOne at hvalue
      split at hvalue <;> cases hvalue
      rfl
    · cases hvalue
      rfl
  | ok value =>
    simp only [hvalue, bind, Except.bind] at h
    split at h
    · cases h
      rfl
    · cases h

/-- Two cookies of a session are refused, whoever reads them. -/
theorem refused_of_two_cookies
    (h : 2 ≤ ((cookieParts headers).filter fun part => cookieName part = sessionCookieName).length) :
    cookieValue headers = .error .bad ∧ cookie headers = .error .bad ∧
      loginCookie headers = .error .bad ∧ bearerPresentation headers = .error .bad ∧
        credential headers = .error .bad ∧ bearerLoginPresentation headers = .error .bad := by
  have hvalue : cookieValue headers = .error .bad := namedCookie_of_two h
  have hbearer : bearerPresentation headers = .error .bad := by
    simp [bearerPresentation, hvalue, bind, Except.bind]
  have hcookie : cookie headers = .error .bad := by
    unfold cookie cookiePresentation
    split <;> simp [hvalue, bind, Except.bind]
  refine ⟨hvalue, hcookie, ?_, hbearer, ?_, ?_⟩
  · simp [loginCookie, hvalue, bind, Except.bind]
  · simp [credential, hbearer, bind, Except.bind]
  · simp [bearerLoginPresentation, hbearer, bind, Except.bind]

/-- Two `Authorization` headers are refused, whoever reads them. -/
theorem refused_of_two_authorizations (h : 2 ≤ (headers.getAll "authorization").length) :
    cookiePresentation headers = .error .bad ∧ cookie headers = .error .bad ∧
      credential headers = .error .bad ∧ bearerLoginPresentation headers = .error .bad := by
  have hpresentation := cookiePresentation_of_authorization (containsKey_of_two h)
  refine ⟨hpresentation, ?_, ?_, ?_⟩
  · simp [cookie, hpresentation, bind, Except.bind]
  · unfold credential
    cases hbearer : bearerPresentation headers with
    | error e => simp [bearerPresentation_error hbearer, bind, Except.bind]
    | ok => simp [unique_of_two h, bind, Except.bind]
  · unfold bearerLoginPresentation
    cases hbearer : bearerPresentation headers with
    | error e => simp [bearerPresentation_error hbearer, bind, Except.bind]
    | ok => simp [containsKey_of_two h, bind, Except.bind]

end Accessors

/-- How a cookie is found, if a part has the value that is read from it in some way. -/
def NamedCookieLaw (valueOf : List Char → List Char) : Prop :=
  ∀ headers nameExpected value, namedCookie headers nameExpected = .ok (some value) ↔
    CookieText headers ∧ (∀ part ∈ cookieParts headers, '=' ∈ part) ∧
      ∃ part, ((cookieParts headers).filter fun part => cookieName part = nameExpected) = [part] ∧
        value = valueOf part

/-- What makes presentations exclusive and unambiguous. -/
structure Unambiguous (token : SessionSecret → List Char) : Prop where
  /-- No request presents both a session cookie and a bearer secret. -/
  exclusive : ∀ headers secret bearer,
    ¬ (cookie headers = .ok (some secret) ∧ credential headers = .ok bearer)
  /-- A cookie is what stands behind the first mark of the only part with its name. -/
  named : NamedCookieLaw cookieRest
  /-- The headers that parts come in, their order and the blanks around them make no difference. -/
  redistributed : ∀ headers headers' nameExpected, CookieText headers → CookieText headers' →
    ((cookieParts headers).map (trim isWhitespace)).Perm
      ((cookieParts headers').map (trim isWhitespace)) →
        namedCookie headers nameExpected = namedCookie headers' nameExpected
  /-- Parts with other blanks around them are the same parts, once they are trimmed. -/
  blanks : ∀ before part after, (∀ c ∈ before, isWhitespace c = true) →
    (∀ c ∈ after, isWhitespace c = true) →
      trim isWhitespace (before ++ part ++ after) = trim isWhitespace part
  /-- Parts that are joined to lines in any way are the parts of these lines. -/
  lines : ∀ lines : List (List (List Char)), (∀ line ∈ lines, line ≠ [] ∧ ∀ part ∈ line, ';' ∉ part) →
    (lines.map fun line => List.intercalate [';'] line).flatMap (fun text => text.splitOn ';') =
      lines.flatten
  /-- Two session cookies are refused by every accessor of that cookie. -/
  twoCookies : ∀ headers,
    2 ≤ ((cookieParts headers).filter fun part => cookieName part = sessionCookieName).length →
      cookieValue headers = .error .bad ∧ cookie headers = .error .bad ∧
        loginCookie headers = .error .bad ∧ bearerPresentation headers = .error .bad ∧
          credential headers = .error .bad ∧ bearerLoginPresentation headers = .error .bad
  /-- Two `Authorization` headers are refused by every accessor of that header. -/
  twoAuthorizations : ∀ headers, 2 ≤ (headers.getAll "authorization").length →
    cookiePresentation headers = .error .bad ∧ cookie headers = .error .bad ∧
      credential headers = .error .bad ∧ bearerLoginPresentation headers = .error .bad
  /-- Two `Origin` headers are refused, whatever the configured origin. -/
  twoOrigins : ∀ headers origin, 2 ≤ (headers.getAll "origin").length →
    sameOrigin headers origin = .error .forbidden
  /-- Two tokens against forgery are refused, whatever the session. -/
  twoTokens : ∀ headers secret, 2 ≤ (headers.getAll "x-csrf-token").length →
    csrf token headers secret = .error .bad

/-- Presentations of credentials are exclusive and unambiguous. -/
theorem presentations_unambiguous (token : SessionSecret → List Char) : Unambiguous token := by
  constructor
  case exclusive =>
    rintro headers secret bearer ⟨hcookie, hcredential⟩
    have hwithout := cookie_eq_some hcookie
    rw [credential_eq_ok hcredential] at hwithout
    cases hwithout
  case named =>
    intro headers nameExpected value
    exact namedCookie_eq_some
  case redistributed =>
    intro headers headers' nameExpected htext htext' h
    exact namedCookie_perm htext htext' h
  case blanks =>
    intro before part after hbefore hafter
    exact trim_surround hbefore hafter
  case lines =>
    intro lines h
    exact flatMap_splitOn_intercalate h
  case twoCookies =>
    intro headers h
    exact refused_of_two_cookies h
  case twoAuthorizations =>
    intro headers h
    exact refused_of_two_authorizations h
  case twoOrigins =>
    intro headers origin h
    simp [sameOrigin, unique_of_two h]
  case twoTokens =>
    intro headers secret h
    simp [csrf, unique_of_two h, bind, Except.bind]

/-- A request with one `Cookie` header. -/
def cookieRequest (text : String)
    (legal : ∀ b ∈ text.toList.map (fun c => UInt8.ofNat c.toNat), b = 9 ∨ 32 ≤ b ∧ b ≠ 127) :
    HeaderMap :=
  ⟨[("cookie", ⟨text.toList.map fun c => UInt8.ofNat c.toNat, legal⟩)]⟩

/-- A value is not trimmed behind its mark, and who reads another cookie does not count those of the
session. -/
theorem cookies_read_apart :
    ¬ NamedCookieLaw (fun part => trim isWhitespace (cookieRest part)) ∧
      ∃ headers, 2 ≤ ((cookieParts headers).filter fun part =>
          cookieName part = sessionCookieName).length ∧
        grant headers = .ok none := by
  constructor
  · intro hlaw
    let headers := cookieRequest "n= x" (by decide +kernel)
    obtain ⟨-, -, part, hpart, hvalue⟩ := (hlaw headers ['n'] [' ', 'x']).mp rfl
    have honly : ((cookieParts headers).filter fun part => cookieName part = ['n']) =
        ["n= x".toList] := by decide
    rw [honly] at hpart
    cases hpart
    exact absurd hvalue (by decide)
  · refine ⟨cookieRequest "__Host-identity-session=a; __Host-identity-session=b"
      (by decide +kernel), ?_, ?_⟩
    · decide
    · rfl

end IdentityAuthority
