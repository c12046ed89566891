import IdentityAuthority.Core.Values
import IdentityAuthority.Json.Unique

/-!
# Login profiles

Bounded, non-authorizing profile values. Malformed values of ordinary attributes are
withheld one by one; the extensions are accepted whole or withheld whole.
-/

namespace IdentityAuthority

open Json

/-- `MAX_BYTES`. -/
def maxBytes : ℕ := 65536

/-- `MAX_MEMBERS`. -/
def maxMembers : ℕ := 256

/-- `MAX_DEPTH`. -/
def maxDepth : ℕ := 8

/-- `MAX_ARRAY`. -/
def maxArray : ℕ := 128

/-- `MAX_SAFE_INTEGER`: from here on a floating-point value skips integers. -/
def maxSafeInteger : ℕ := 9007199254740991

/-- A lifetime of profile observations that a deployment or provider may choose. -/
def validProfileAge (age : ℤ) : Bool := decide (60 ≤ age ∧ age ≤ 86400)

/-- The bounds of a deployment: it may tighten the fixed ones, never enlarge them. -/
structure ProfileLimits where
  bytes : ℕ
  members : ℕ
  depth : ℕ
  array : ℕ
  maxAge : ℤ
  bytes_le : 0 < bytes ∧ bytes ≤ maxBytes
  members_le : 0 < members ∧ members ≤ maxMembers
  depth_le : 0 < depth ∧ depth ≤ maxDepth
  array_le : 0 < array ∧ array ≤ maxArray
  maxAge_valid : validProfileAge maxAge = true

namespace ProfileLimits

/-- The limits of a deployment, if they tighten the fixed ones. -/
def new (bytes members depth array : ℕ) (maxAge : ℤ) : Option ProfileLimits :=
  if h : (0 < bytes ∧ bytes ≤ maxBytes) ∧ (0 < members ∧ members ≤ maxMembers) ∧
      (0 < depth ∧ depth ≤ maxDepth) ∧ (0 < array ∧ array ≤ maxArray) ∧
      validProfileAge maxAge = true then
    some ⟨bytes, members, depth, array, maxAge, h.1, h.2.1, h.2.2.1, h.2.2.2.1, h.2.2.2.2⟩
  else none

/-- The fixed bounds themselves. -/
def standard : ProfileLimits where
  bytes := maxBytes
  members := maxMembers
  depth := maxDepth
  array := maxArray
  maxAge := 86400
  bytes_le := by decide
  members_le := by decide
  depth_le := by decide
  array_le := by decide
  maxAge_valid := by decide

end ProfileLimits

/-- Names that would carry a secret. -/
def secretNames : List String :=
  ["password", "access_token", "refresh_token", "id_token", "client_secret", "totp_seed",
    "private_key", "recovery_codes"]

/-- A name as it is compared with the secret ones: lower case, `-` read as `_`. -/
def normalizedName (name : String) : List Char :=
  name.toList.map fun c => if c = '-' then '_' else c.toLower

/-- A member name that extensions may use. -/
def admissibleName (name : String) : Bool :=
  printable name && !(secretNames.map String.toList).contains (normalizedName name)

/-- A number that survives its way through a floating-point value. -/
def admissibleNumber : Number → Bool
  | .integer n => decide (n.natAbs ≤ maxSafeInteger)
  | .float d => !(d.integral && d.magnitudeExceeds maxSafeInteger)

/-- Enters an object at a depth: the count of members after it, if inside the limits. -/
def enterObject (limits : ProfileLimits) (depth size count : ℕ) : Option ℕ :=
  if depth ≤ limits.depth ∧ count + size ≤ limits.members then some (count + size) else none

mutual

/-- Checks a value at a depth and counts the members of all objects seen so far. -/
def checkValue (limits : ProfileLimits) (depth count : ℕ) : Value → Option ℕ
  | .object members => do
    let count ← enterObject limits (depth + 1) members.length count
    checkMembers limits (depth + 1) count members
  | .array values =>
    if limits.depth ≤ depth ∨ limits.array < values.length then none
    else checkValues limits (depth + 1) count values
  | .string s => if s.toList.contains (Char.ofNat 0) then none else some count
  | .number n => if admissibleNumber n then some count else none
  | .null => some count
  | .bool _ => some count

/-- Checks the elements of an array. -/
def checkValues (limits : ProfileLimits) (depth count : ℕ) : List Value → Option ℕ
  | [] => some count
  | value :: rest => do
    let count ← checkValue limits depth count value
    checkValues limits depth count rest

/-- Checks the members of an object. -/
def checkMembers (limits : ProfileLimits) (depth count : ℕ) :
    List (String × Value) → Option ℕ
  | [] => some count
  | (name, value) :: rest =>
    if admissibleName name then do
      let count ← checkValue limits depth count value
      checkMembers limits depth count rest
    else none

end

/-- Checks an object at a depth and counts the members seen so far. -/
def checkObject (limits : ProfileLimits) (depth count : ℕ) (object : List (String × Value)) :
    Option ℕ := do
  let count ← enterObject limits depth object.length count
  checkMembers limits depth count object

/-- The object keeps the limits, its compact size included. -/
def withinLimits (limits : ProfileLimits) (object : List (String × Value)) : Bool :=
  (checkObject limits 1 0 object).isSome && decide (compactSize (.object object) ≤ limits.bytes)

/-- Unknown business members, kept as they came. -/
structure Extensions where
  object : List (String × Value)
  within : withinLimits .standard object = true

instance : DecidableEq Extensions := fun e e' =>
  decidable_of_iff (e.object = e'.object) ⟨fun h => by cases e; cases e'; cases h; rfl, congrArg _⟩

/-- `Extensions::try_from`. -/
def Extensions.tryFrom : Value → Option Extensions
  | .object object =>
    if h : withinLimits .standard object = true then some ⟨object, h⟩ else none
  | _ => none

/-- One attribute of a profile, with the reason where it has no value. -/
inductive Attribute (α : Type)
  | notConfigured
  | missing
  | invalid
  | available (value : α)
deriving DecidableEq

/-- The value of an attribute that has one. -/
def Attribute.value {α : Type} : Attribute α → Option α
  | available value => some value
  | _ => none

/-- Where a profile observation comes from. -/
inductive ProfileSource
  | identityLocal
  | idp (provider : ProviderId)
deriving DecidableEq

/-- A profile as an authentication observed it. -/
structure Profile where
  displayName : Attribute String
  username : Attribute String
  email : Attribute String
  emailVerified : Attribute Bool
  extensions : Attribute Extensions

/-- Which claim carries the extensions, and how long an observation lasts. -/
structure ProfileSettings where
  extensionsClaim : Option String
  maxAgeSeconds : ℤ
deriving DecidableEq

/-- Claims that no provider may name as its extensions. -/
def reservedClaims : List String :=
  ["sub", "iss", "aud", "exp", "iat", "nonce", "auth_time", "acr", "amr", "name",
    "preferred_username", "email", "email_verified"]

/-- `ProfileSettings::validate`. -/
def ProfileSettings.valid (settings : ProfileSettings) : Bool :=
  validProfileAge settings.maxAgeSeconds && settings.extensionsClaim.all fun root =>
    decide (0 < root.utf8ByteSize ∧ root.utf8ByteSize ≤ 128) && printable root &&
      !reservedClaims.contains root

/-- A text claim of bounded size without control characters. -/
def text (value : Option Value) (max : ℕ) : Attribute String :=
  match value with
  | none => .missing
  | some .null => .missing
  | some (.string s) => if s.utf8ByteSize ≤ max ∧ printable s = true then .available s else .invalid
  | some _ => .invalid

namespace Profile

/-- `Profile::from_claims`: the profile of verified ID-token claims. -/
def fromClaims (claims : List (String × Value)) (settings : ProfileSettings) : Profile where
  displayName := text (claims.lookup "name") 512
  username := text (claims.lookup "preferred_username") 256
  email := text (claims.lookup "email") 320
  emailVerified :=
    match claims.lookup "email_verified" with
    | none => .missing
    | some .null => .missing
    | some (.bool value) => .available value
    | some _ => .invalid
  extensions :=
    match settings.extensionsClaim with
    | none => .notConfigured
    | some root =>
      match claims.lookup root with
      | none => .missing
      | some .null => .missing
      | some value =>
        match Extensions.tryFrom value with
        | some extensions => .available extensions
        | none => .invalid

/-- The profile of an authentication that says nothing about one. -/
def absent : Profile := ⟨.missing, .missing, .missing, .missing, .missing⟩

/-- `Profile::apply_limits`: extensions outside the limits are withheld, never truncated. -/
def applyLimits (profile : Profile) (limits : ProfileLimits) : Profile :=
  match profile.extensions with
  | .available extensions =>
    if withinLimits limits extensions.object then profile
    else { profile with extensions := .invalid }
  | _ => profile

/-- A text attribute keeps its bound. -/
def textValid (text : Attribute String) (max : ℕ) : Bool :=
  text.value.all fun s => decide (s.utf8ByteSize ≤ max) && printable s

/-- `Profile::validate`. -/
def valid (profile : Profile) : Bool :=
  textValid profile.displayName 512 && textValid profile.username 256 &&
    textValid profile.email 320

/-- The limits of a deployment concern the extensions alone. -/
theorem applyLimits_valid {profile : Profile} {limits : ProfileLimits}
    (h : profile.valid = true) : (profile.applyLimits limits).valid = true := by
  unfold applyLimits
  split
  · split
    · exact h
    · exact h
  · exact h

end Profile

/-- A profile that the component keeps itself for an account. -/
structure LocalProfile where
  displayName : Option String
  username : Option String
  email : Option String
  extensions : Extensions
  maxAgeSeconds : ℤ

namespace LocalProfile

/-- An optional text as an attribute. -/
def attr : Option String → Attribute String
  | some s => .available s
  | none => .missing

/-- `LocalProfile::observation`: the profile a local login observes, if it is valid. -/
def observation (local' : LocalProfile) : Option Profile :=
  let profile : Profile :=
    { displayName := attr local'.displayName
      username := attr local'.username
      email := attr local'.email
      emailVerified := .missing
      extensions := .available local'.extensions }
  if (ProfileSettings.mk none local'.maxAgeSeconds).valid && profile.valid then some profile
  else none

end LocalProfile

/-- The stored form of an attribute (a tagged object). -/
def Attribute.toJson {α : Type} (encode : α → Value) : Attribute α → Value
  | notConfigured => .object [("status", .string "not_configured")]
  | missing => .object [("status", .string "missing")]
  | invalid => .object [("status", .string "invalid")]
  | available value => .object [("status", .string "available"), ("value", encode value)]

/-- The stored form of a profile. -/
def Profile.toJson (profile : Profile) : Value :=
  .object
    [("displayName", profile.displayName.toJson .string),
      ("username", profile.username.toJson .string),
      ("email", profile.email.toJson .string),
      ("emailVerified", profile.emailVerified.toJson .bool),
      ("extensions", profile.extensions.toJson fun e => .object e.object)]

/-- The stored form of a local profile. -/
def LocalProfile.toJson (local' : LocalProfile) : Value :=
  let optional : Option String → Value := fun s => s.elim .null .string
  .object
    [("displayName", optional local'.displayName),
      ("username", optional local'.username),
      ("email", optional local'.email),
      ("extensions", .object local'.extensions.object),
      ("maxAgeSeconds", .number (.integer local'.maxAgeSeconds))]

end IdentityAuthority
