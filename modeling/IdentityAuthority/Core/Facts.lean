import IdentityAuthority.Core.Values

/-!
# Authentication facts

What an authentication established beyond who authenticated: its assurance, the groups
and the department the upstream asserted, and for how long these may be relied on. None
of these values is a proof of authentication.
-/

namespace IdentityAuthority

/-- Where talking to a provider fails. -/
inductive ProviderStage
  | binding
  | discovery
  | jwks
  | exchange
  | claims
deriving DecidableEq, Repr

/-- Why talking to a provider fails. -/
inductive ProviderReason
  | invalidTrustAnchor
  | egressDenied
  | tlsRejected
  | unavailable
  | timeout
  | invalidResponse
  | issuerMismatch
  | issuerResponseUnsupported
  | codeRejected
  | invalidToken
deriving DecidableEq, Repr

/-- A failure of a provider. -/
structure ProviderFailure where
  stage : ProviderStage
  reason : ProviderReason
deriving DecidableEq, Repr

/-- Why federation refuses. -/
inductive FederationError
  | configuration
  | rejected
  | conflict
  | staleConfiguration
  | providerLimitReached
  | unavailable
  | claims
  | provider (failure : ProviderFailure)
deriving DecidableEq, Repr

/-- What a test of a provider reports of a refusal (`diagnostic`). -/
def FederationError.diagnostic : FederationError → ProviderFailure
  | provider failure => failure
  | claims => ⟨.claims, .invalidToken⟩
  | unavailable => ⟨.discovery, .timeout⟩
  | _ => ⟨.binding, .invalidResponse⟩

/-- Normalized authentication strength. -/
inductive Acr
  | unspecified
  | mfa
deriving DecidableEq, Repr

/-- Verified authentication methods, in the order of their wire spelling. -/
inductive Amr
  | mfa
  | otp
  | pwd
deriving DecidableEq, Repr

namespace Amr

/-- The place of a method in the canonical order. -/
def rank : Amr → ℕ
  | mfa => 0
  | otp => 1
  | pwd => 2

end Amr

/-- Methods in strictly ascending order, so without duplicates. -/
def canonicalMethods (methods : List Amr) : Bool :=
  decide ((methods.map Amr.rank).Pairwise (· < ·))

/-- What an authentication request asks for. -/
inductive AuthenticationMode
  | login
  | reauthenticate
  | stepUp
deriving DecidableEq, Repr

/-- A validated snapshot of how an authentication was made. -/
structure Assurance where
  authTime : Option ℤ
  acr : Acr
  amr : List Amr
  authTime_pos : ∀ t ∈ authTime, 0 < t
  mfa_authTime : acr = .mfa → authTime.isSome = true
  amr_canonical : canonicalMethods amr = true
deriving DecidableEq

namespace Assurance

/-- Normalized facts, if they are consistent. -/
def new (authTime : Option ℤ) (acr : Acr) (amr : List Amr) : Except FederationError Assurance :=
  if h : (∀ t ∈ authTime, 0 < t) ∧ (acr = .mfa → authTime.isSome = true) ∧
      canonicalMethods amr = true then
    .ok ⟨authTime, acr, amr, h.1, h.2.1, h.2.2⟩
  else .error .claims

/-- The assurance of a password verified at a time. -/
def password (authTime : ℤ) : Except FederationError Assurance :=
  new (some authTime) .unspecified [.pwd]

/-- Whether the assurance answers a request of this mode, started and judged at these
times (the condition under which `Assurance::check` returns no error). -/
def accepted (assurance : Assurance) (mode : AuthenticationMode) (started now : ℤ) : Bool :=
  decide (0 < started ∧ started ≤ now ∧
    (∀ t ∈ assurance.authTime, t ≤ saturatingAdd now 30) ∧
    (mode ≠ .login → ∃ t ∈ assurance.authTime, saturatingSub started 30 ≤ t) ∧
    (mode = .stepUp → assurance.acr = .mfa))

/-- Judges the assurance at the attempt's creation time and a fresh clock. -/
def check (assurance : Assurance) (mode : AuthenticationMode) (started now : ℤ) :
    Except FederationError Unit :=
  if assurance.accepted mode started now then .ok () else .error .claims

@[simp] theorem check_eq_ok {assurance : Assurance} {mode : AuthenticationMode}
    {started now : ℤ} :
    assurance.check mode started now = .ok () ↔ assurance.accepted mode started now = true := by
  unfold check
  split <;> simp [*]

end Assurance

/-- `MIN_TTL_SECONDS`. -/
def minTtlSeconds : ℤ := 1

/-- `MAX_TTL_SECONDS`. -/
def maxTtlSeconds : ℤ := 300

/-- `MAX_FUTURE_SKEW_SECONDS`: an observation this far ahead may still authenticate. -/
def maxFutureSkewSeconds : ℤ := 30

/-- A lifetime of facts that a deployment may choose. -/
def validMaxAge (age : ℤ) : Bool := decide (minTtlSeconds ≤ age ∧ age ≤ maxTtlSeconds)

/-- An observation window of an admissible length. -/
def validSnapshotWindow (observedAt expiresAt : ℤ) : Bool :=
  decide (0 < observedAt) && isI64 (expiresAt - observedAt) && validMaxAge (expiresAt - observedAt)

/-- An observation that is not too far ahead of the clock. -/
def acceptableObservation (observedAt now : ℤ) : Bool :=
  decide (0 < observedAt ∧ 0 < now) && isI64 (observedAt - now) &&
    decide (observedAt - now ≤ maxFutureSkewSeconds)

/-- The fixed deadline of facts observed in a token. -/
def factsExpiresAt (maxAge issuedAt expiresAt now : ℤ) : Except FederationError ℤ :=
  if acceptableObservation issuedAt now && decide (issuedAt < expiresAt ∧ now < expiresAt) then
    match checkedAdd issuedAt maxAge with
    | some deadline => .ok (min deadline expiresAt)
    | none => .error .claims
  else .error .claims

/-- Why a fact is not available. -/
inductive FactUnavailableReason
  | localIdentity
  | notConfigured
  | claimMissing
  | notYetValid
deriving DecidableEq, Repr

/-- Why the department is not available. -/
inductive DepartmentUnavailableReason
  | localIdentity
  | notConfigured
  | claimMissing
  | invalidClaim
  | notYetValid
deriving DecidableEq, Repr

/-- The lifetime of group facts a deployment chose (`GroupFactsMaxAge`). -/
structure GroupFactsMaxAge where
  seconds : ℤ
  valid : validMaxAge seconds = true

theorem validMaxAge_five_minutes : validMaxAge 300 = true := by decide

/-- Exact presence of the groups claim. -/
inductive UpstreamGroups
  | notConfigured
  | missing
  | present (values : List String)
deriving DecidableEq

/-- At most a hundred nonempty values without control characters, each of at most 256 bytes. -/
def boundedValues (values : List String) : Bool :=
  decide (values.length ≤ 100) && values.all fun v =>
    decide (0 < v.utf8ByteSize ∧ v.utf8ByteSize ≤ 256) && printable v

/-- Bounded values in strictly ascending order. -/
def canonicalValues (values : List String) : Bool :=
  boundedValues values && decide (values.Pairwise (· < ·))

/-- The groups claim is one the adapter can produce. -/
def UpstreamGroups.valid : UpstreamGroups → Bool
  | present values => canonicalValues values
  | _ => true

/-- The source a fact was observed at, structurally valid. -/
structure FactSource where
  providerId : ProviderId
  issuer : String
deriving DecidableEq

end IdentityAuthority
