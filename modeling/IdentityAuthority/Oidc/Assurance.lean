import Mathlib.Data.List.Destutter
import Mathlib.Data.List.Sort
import IdentityAuthority.Core.Federation
import IdentityAuthority.Oidc.Egress
import IdentityAuthority.Storage.FactsCodec

/-!
# What a verified token says of an authentication

The adapter interprets the strength and the methods of a token only for the clients that a deployment
approved; for any other one it keeps the time alone.
-/

namespace IdentityAuthority

/-- `KEYCLOAK_TOTP_ACR`. -/
def keycloakTotpAcr : String := "2"

/-- `Amr::from_str`. -/
def Amr.parse (s : String) : Option Amr :=
  if s = "mfa" then some .mfa
  else if s = "otp" then some .otp
  else if s = "pwd" then some .pwd
  else none

/-- The order of methods. -/
def Amr.le (a b : Amr) : Prop := a.rank ≤ b.rank

instance : DecidableRel Amr.le := fun a b => inferInstanceAs (Decidable (a.rank ≤ b.rank))

/-- A text of a claim: not empty, of a bounded size and without control characters. -/
def claimText (limit : ℕ) (s : String) : Bool :=
  decide (0 < s.utf8ByteSize ∧ s.utf8ByteSize ≤ limit) && printable s

/-- The methods of a token that are known, sorted and each of them once. -/
def knownMethods (amr : List String) (keycloakTotp : Bool) : List Amr :=
  (((amr.filter fun _ => keycloakTotp).filterMap Amr.parse).insertionSort Amr.le).destutter (· ≠ ·)

/-- `normalize`. -/
def normalize (authTime : Option ℤ) (acr : Option String) (amr : List String)
    (keycloakTotp : Bool) : Except FederationError Assurance :=
  if (acr.any fun s => !claimText 256 s) || decide (16 < amr.length) ||
      amr.any fun s => !claimText 64 s then
    .error .claims
  else
    Assurance.new authTime
      (if keycloakTotp && decide (acr = some keycloakTotpAcr) && authTime.isSome then .mfa
        else .unspecified)
      (knownMethods amr keycloakTotp)

/-- What a verified token says of the authentication. -/
structure VerifiedClaims where
  authTime : Option ℤ
  acr : Option String
  amr : Option (List String)
  authTime_fits : ∀ t ∈ authTime, isI64 t = true

variable {parsers : Parsers}

/-- `HttpOidc::trusted`. -/
def HttpOidc.trusted (oidc : HttpOidc) (tenant : Uuid) (settings : ProviderSettings parsers) :
    Bool :=
  oidc.profiles.any fun p =>
    decide (p.tenant = tenant) && decide (p.issuer = settings.input.issuer) &&
      decide (p.clientId = settings.input.clientId) && p.keycloakTotp

/-- The assurance of the claims that `HttpOidc::exchange` verified. -/
def HttpOidc.assurance (oidc : HttpOidc) (tenant : Uuid) (settings : ProviderSettings parsers)
    (claims : VerifiedClaims) : Except FederationError Assurance :=
  normalize claims.authTime claims.acr (claims.amr.getD []) (oidc.trusted tenant settings)

end IdentityAuthority
