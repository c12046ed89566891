import IdentityAuthority.Core.Department
import IdentityAuthority.Core.Profile

/-!
# Providers and what they assert

The configuration of an upstream provider, the claims the trusted adapter returns for a
code, and the intent of a federation attempt.
-/

namespace IdentityAuthority

/-- How an upstream subject is read. -/
inductive SubjectMapping
  | oidc
  | entra (tenant : Uuid)
deriving DecidableEq

/-- A canonical external subject. -/
inductive ExternalSubject
  | oidc (subject : String)
  | entra (tenant user : Uuid)
deriving DecidableEq

namespace ExternalSubject

/-- `ExternalSubject::validate`. -/
def valid : ExternalSubject → Bool
  | oidc subject => decide (0 < subject.utf8ByteSize ∧ subject.utf8ByteSize ≤ 255) &&
      printable subject
  | entra _ _ => true

/-- The subject is of the kind the provider maps. -/
def matchesMapping : ExternalSubject → SubjectMapping → Bool
  | oidc _, .oidc => true
  | entra tenant _, .entra expected => decide (tenant = expected)
  | _, _ => false

end ExternalSubject

/-- Which claims a provider's tokens carry. -/
structure ClaimMapping where
  subject : SubjectMapping
  profile : ProfileSettings
  groups : Option String
  departmentSnapshot : Option DepartmentSnapshotClaim
deriving DecidableEq

/-- Configuration input, before it is validated. -/
structure ProviderSettingsInput where
  issuer : String
  clientId : String
  redirectUri : String
  scopes : List String
  claims : ClaimMapping
  jit : Bool
deriving DecidableEq

/-- The parts of a URL that configuration depends on. -/
structure Url where
  scheme : String
  hasHost : Bool
  hasUser : Bool
  hasPassword : Bool
  hasQuery : Bool
  hasFragment : Bool
deriving DecidableEq

/-- A plain `http` or `https` URL: a host, no credentials, no query, no fragment. -/
def Url.plain (url : Url) : Bool :=
  ["http", "https"].contains url.scheme && url.hasHost && !url.hasUser && !url.hasPassword &&
    !url.hasQuery && !url.hasFragment

/-- What configuration takes from outside: the URL parser and the text of a UUID. -/
structure Parsers where
  parseUrl : String → Option Url
  uuidText : Uuid → String

/-- `ExternalSubject::storage_key`. -/
def ExternalSubject.storageKey (parsers : Parsers) : ExternalSubject → String
  | oidc subject => "oidc:" ++ subject
  | entra tenant user => "entra:" ++ parsers.uuidText tenant ++ ":" ++ parsers.uuidText user

/-- The text of a UUID names it, in digits and hyphens: no colon stands in it. -/
structure Parsers.PlainUuids (parsers : Parsers) : Prop where
  injective : Function.Injective parsers.uuidText
  plain : ∀ id, ':' ∉ (parsers.uuidText id).toList

/-- Texts before the first colon, and after it, are determined by the whole. -/
theorem append_colon_inj {a b s t : String} (ha : ':' ∉ a.toList) (hb : ':' ∉ b.toList)
    (h : a ++ ":" ++ s = b ++ ":" ++ t) : a = b ∧ s = t := by
  have hlists := congrArg String.toList h
  simp only [String.toList_append, List.append_assoc] at hlists
  have hcolon : ":".toList = [':'] := by decide
  rw [hcolon, List.singleton_append, List.singleton_append] at hlists
  have hfirst := congrArg (List.takeWhile (· ≠ ':')) hlists
  have hplain : ∀ l rest : List Char, ':' ∉ l →
      (l ++ ':' :: rest).takeWhile (· ≠ ':') = l := by
    intro l rest hl
    rw [List.takeWhile_append_of_pos]
    · simp
    · rintro c hc
      simp only [decide_eq_true_eq]
      rintro rfl
      exact hl hc
  rw [hplain _ _ ha, hplain _ _ hb] at hfirst
  have hhead : a = b := String.toList_inj.mp hfirst
  subst hhead
  have htail := List.append_cancel_left hlists
  exact ⟨rfl, String.toList_inj.mp (List.tail_eq_of_cons_eq htail)⟩

/-- No two subjects are stored under one key. -/
theorem ExternalSubject.storageKey_injective {parsers : Parsers} (h : parsers.PlainUuids) :
    Function.Injective (ExternalSubject.storageKey parsers) := by
  have hkinds : ∀ s t : String, "oidc:" ++ s ≠ "entra:" ++ t := by
    intro s t heq
    have hhead := congrArg (fun s : String => s.toList.head?) heq
    simp at hhead
  intro s t heq
  cases s with
  | oidc subject =>
    cases t with
    | oidc other =>
      simp only [storageKey, String.append_right_inj] at heq
      rw [heq]
    | entra => exact absurd heq (by simpa only [storageKey, String.append_assoc] using hkinds _ _)
  | entra tenant user =>
    cases t with
    | oidc => exact absurd heq.symm (by simpa only [storageKey, String.append_assoc] using hkinds _ _)
    | entra tenant' user' =>
      simp only [storageKey, String.append_assoc, String.append_right_inj] at heq
      simp only [← String.append_assoc] at heq
      obtain ⟨htenant, huser⟩ := append_colon_inj (h.plain _) (h.plain _) heq
      rw [h.injective htenant, h.injective huser]

/-- The URL is one configuration accepts. -/
def Parsers.plainUrl (parsers : Parsers) (s : String) : Bool :=
  (parsers.parseUrl s).any Url.plain

/-- A scope: printable ASCII without blanks, quotes and backslashes, never offline access. -/
def scopeValid (scope : String) : Bool :=
  decide (0 < scope.utf8ByteSize ∧ scope.utf8ByteSize ≤ 128) &&
    scope.toList.all (fun c => 0x21 ≤ c.toNat && c.toNat ≤ 0x7e && c ≠ '"' && c ≠ '\\') &&
    decide (scope ≠ "offline_access")

/-- A claim name for extensions or groups. -/
def claimNameValid (name : String) : Bool :=
  decide (0 < name.utf8ByteSize ∧ name.utf8ByteSize ≤ 64) &&
    name.toList.all (fun c => c.isAlphanum || c = '_') &&
    not (["sub", "iss", "aud", "nonce", "azp"].contains name)

/-- `ProviderSettingsInput::validate`. -/
def ProviderSettingsInput.valid (parsers : Parsers) (input : ProviderSettingsInput) : Bool :=
  let named := [input.claims.profile.extensionsClaim, input.claims.groups].filterMap id
  (match input.claims.subject with
    | .entra tenant =>
      decide (input.issuer =
        "https://login.microsoftonline.com/" ++ parsers.uuidText tenant ++ "/v2.0") &&
        input.scopes.contains "profile"
    | .oidc => true) &&
  boundedText input.issuer 2048 && boundedText input.clientId 256 &&
  boundedText input.redirectUri 2048 && parsers.plainUrl input.issuer &&
  parsers.plainUrl input.redirectUri &&
  decide (input.scopes.length ≤ 16) && input.scopes.contains "openid" &&
  input.claims.profile.valid && input.scopes.all scopeValid && decide input.scopes.Nodup &&
  input.claims.departmentSnapshot.all (fun department => !named.contains department.claim) &&
  named.all claimNameValid

/-- Validated provider configuration. -/
structure ProviderSettings (parsers : Parsers) where
  input : ProviderSettingsInput
  valid : input.valid parsers = true
deriving DecidableEq

/-- `ProviderSettings::try_from`. -/
def ProviderSettings.tryFrom (parsers : Parsers) (input : ProviderSettingsInput) :
    Except FederationError (ProviderSettings parsers) :=
  if h : input.valid parsers = true then .ok ⟨input, h⟩ else .error .configuration

/-- `FactSource::new`: the issuer is a bounded, trimmed, plain URL. -/
def FactSource.new (parsers : Parsers) (providerId : ProviderId) (issuer : String) :
    Option FactSource :=
  if issuer.utf8ByteSize ≤ 2048 ∧ trimmed issuer = true ∧
      printable issuer = true ∧ parsers.plainUrl issuer = true then
    some ⟨providerId, issuer⟩
  else none

/-- The issuer of validated settings makes a fact source. -/
theorem FactSource.new_of_settings {parsers : Parsers} (settings : ProviderSettings parsers)
    (providerId : ProviderId) :
    FactSource.new parsers providerId settings.input.issuer =
      some ⟨providerId, settings.input.issuer⟩ := by
  have hvalid := settings.valid
  simp only [ProviderSettingsInput.valid, boundedText, Bool.and_eq_true,
    decide_eq_true_eq] at hvalid
  have hissuer := hvalid.1.1.1.1.1.1.1.1.1.1.1.2
  have hurl := hvalid.1.1.1.1.1.1.1.1.2
  rw [FactSource.new, if_pos ⟨hissuer.1.1.2, hissuer.1.2, hissuer.2, hurl⟩]

/-- The intent of a federation attempt. -/
inductive Purpose
  | login
  | reauthenticate
  | link
deriving DecidableEq, Repr

namespace Purpose

/-- `Purpose::code`. -/
def code : Purpose → ℕ
  | login => 0
  | reauthenticate => 1
  | link => 2

/-- `Purpose::from_code`. -/
def fromCode : ℕ → Option Purpose
  | 0 => some login
  | 1 => some reauthenticate
  | 2 => some link
  | _ => none

theorem fromCode_eq_some {n : ℕ} {purpose : Purpose} :
    fromCode n = some purpose ↔ n = purpose.code := by
  constructor
  · intro h
    match n with
    | 0 | 1 | 2 => cases h; rfl
    | n + 3 => cases h
  · rintro rfl
    cases purpose <;> rfl

end Purpose

/-- What a verified state token says: which attempt it belongs to, and what it is for. -/
structure StateLocator where
  id : Digest
  purpose : Purpose
deriving DecidableEq

/-- The signer of state tokens: a token verifies only as what it was issued for, and no other
text verifies. -/
structure StateSigner where
  issue : StateLocator → String
  verify : String → Option StateLocator
  verify_eq_some : ∀ {state : String} {locator : StateLocator},
    verify state = some locator ↔ state = issue locator

/-- The verified output of the upstream adapter for one code. -/
structure UpstreamClaims where
  issuer : String
  subject : ExternalSubject
  profile : Profile
  groups : UpstreamGroups
  departmentSnapshot : UpstreamDepartmentSnapshot
  issuedAt : ℤ
  expiresAt : ℤ
  assurance : Assurance

/-- `UpstreamClaims::validate`. -/
def UpstreamClaims.valid (claims : UpstreamClaims) : Bool :=
  claims.subject.valid && claims.groups.valid &&
    decide (0 < claims.issuedAt ∧ claims.issuedAt < claims.expiresAt) && claims.profile.valid

/-- The deployment's interpretation of a provider's assurance claims. -/
structure AssuranceProfile where
  fingerprint : Digest
  supportsStepUp : Bool
deriving DecidableEq

/-- The exact operation a step-up proof is made for. -/
structure StepUpContext where
  purpose : String
  digest : Digest
deriving DecidableEq

end IdentityAuthority
