import IdentityAuthority.Core.Federation
import IdentityAuthority.Core.Identifiers
import IdentityAuthority.Json.Records

/-!
# The document of provider settings

What the table of providers keeps of a configuration, and how it is restored: every part that has
a validating constructor is read through it.
-/

namespace IdentityAuthority

open Json Value

/-- A number that a field of type `u32` can have. -/
def isU32 (n : ℤ) : Bool := decide (0 ≤ n ∧ n < 2 ^ 32)

/-- The document of a profile configuration, one for storage and for clients. -/
def ProfileSettings.json (settings : ProfileSettings) : Value :=
  .object
    [("extensionsClaim", writeNullable .string settings.extensionsClaim),
      ("maxAgeSeconds", .number (.integer settings.maxAgeSeconds))]

/-- A profile configuration is read as it is, and judged with the settings it belongs to. -/
def ProfileSettings.ofJson (value : Value) : Option ProfileSettings := do
  let fields ← value.readFields ["extensionsClaim", "maxAgeSeconds"]
  let extensionsClaim ← optionalField fields "extensionsClaim" readString
  let maxAgeSeconds ← requiredField fields "maxAgeSeconds" (readInteger isU32)
  pure { extensionsClaim, maxAgeSeconds }

/-- The stored document of a department mapping. -/
def DepartmentSnapshotClaim.json (department : DepartmentSnapshotClaim) : Value :=
  .object
    [("claim", .string department.claim),
      ("max_age_seconds", .number (.integer department.maxAgeSeconds))]

/-- A stored department mapping is read through the checks of `DepartmentSnapshotClaim::new`. -/
def DepartmentSnapshotClaim.ofJson (value : Value) : Option DepartmentSnapshotClaim := do
  let fields ← value.readFields ["claim", "max_age_seconds"]
  let claim ← requiredField fields "claim" readString
  let maxAgeSeconds ← requiredField fields "max_age_seconds" (readInteger isI64)
  (DepartmentSnapshotClaim.new claim maxAgeSeconds).toOption

section Documents

variable (uuids : UuidFormat)

/-- The document of a subject mapping, one for storage and for clients. -/
def SubjectMapping.json : SubjectMapping → Value
  | oidc => .object [("kind", .string "oidc")]
  | entra tenant => .object [("kind", .string "entra"), ("tenant", .string (uuids.text tenant))]

/-- A subject mapping is read by its tag; members beside the tag of the first kind are ignored. -/
def SubjectMapping.ofJson (value : Value) : Option SubjectMapping := do
  match ← value.readVariant "kind" with
  | "oidc" => if value.isUnitVariant then some oidc else none
  | "entra" =>
    let fields ← value.readFields ["kind", "tenant"]
    let tenant ← requiredField fields "tenant" readString
    (uuids.parse tenant).map entra
  | _ => none

/-- The stored document of a claim mapping. -/
def ClaimMapping.json (claims : ClaimMapping) : Value :=
  .object
    [("subject", claims.subject.json uuids), ("profile", claims.profile.json),
      ("groups", writeNullable .string claims.groups),
      ("department_snapshot",
        writeNullable DepartmentSnapshotClaim.json claims.departmentSnapshot)]

/-- The claim mapping of a stored document. -/
def ClaimMapping.ofJson (value : Value) : Option ClaimMapping := do
  let fields ← value.readFields ["subject", "profile", "groups", "department_snapshot"]
  let subject ← requiredField fields "subject" (SubjectMapping.ofJson uuids)
  let profile ← requiredField fields "profile" ProfileSettings.ofJson
  let groups ← optionalField fields "groups" readString
  let departmentSnapshot ← optionalField fields "department_snapshot" DepartmentSnapshotClaim.ofJson
  pure { subject, profile, groups, departmentSnapshot }

namespace ProviderSettingsInput

/-- The stored document of configuration. -/
def json (input : ProviderSettingsInput) : Value :=
  .object
    [("issuer", .string input.issuer), ("client_id", .string input.clientId),
      ("redirect_uri", .string input.redirectUri),
      ("scopes", .array (input.scopes.map Value.string)), ("claims", input.claims.json uuids),
      ("jit", .bool input.jit)]

/-- The configuration of a stored document, before it is validated. -/
def ofJson (value : Value) : Option ProviderSettingsInput := do
  let fields ← value.readFields
    ["issuer", "client_id", "redirect_uri", "scopes", "claims", "jit"]
  let issuer ← requiredField fields "issuer" readString
  let clientId ← requiredField fields "client_id" readString
  let redirectUri ← requiredField fields "redirect_uri" readString
  let scopes ← requiredField fields "scopes" (readList readString)
  let claims ← requiredField fields "claims" (ClaimMapping.ofJson uuids)
  let jit ← requiredField fields "jit" readBool
  pure { issuer, clientId, redirectUri, scopes, claims, jit }

end ProviderSettingsInput

variable {parsers : Parsers}

/-- The stored document of settings has the fields of their input. -/
def ProviderSettings.json (settings : ProviderSettings parsers) : Value := settings.input.json uuids

variable (parsers)

/-- Settings are restored through their constructor. -/
def ProviderSettings.ofJson (value : Value) : Option (ProviderSettings parsers) := do
  (tryFrom parsers (← ProviderSettingsInput.ofJson uuids value)).toOption

end Documents

section RoundTrip

variable (uuids : UuidFormat) {parsers : Parsers}

theorem ProfileSettings.ofJson_json (settings : ProfileSettings) :
    ofJson settings.json = if isU32 settings.maxAgeSeconds then some settings else none := by
  have hfields : settings.json.readFields ["extensionsClaim", "maxAgeSeconds"] = some _ :=
    readFields_object rfl (by decide)
  have hextensions : (writeNullable .string settings.extensionsClaim).readNullable readString =
      some settings.extensionsClaim := readNullable_writeNullable (fun _ _ => rfl) rfl
  by_cases h : isU32 settings.maxAgeSeconds = true
  · simp [ofJson, hfields, optionalField, requiredField, hextensions, readInteger, h]
  · simp [ofJson, hfields, optionalField, requiredField, hextensions, readInteger, h]

@[simp] theorem DepartmentSnapshotClaim.ofJson_json (department : DepartmentSnapshotClaim) :
    ofJson department.json = some department := by
  have hfields : department.json.readFields ["claim", "max_age_seconds"] = some _ :=
    readFields_object rfl (by decide)
  have hage : (Value.number (.integer department.maxAgeSeconds)).readInteger isI64 =
      some department.maxAgeSeconds := by
    have hvalid := department.maxAge_valid
    simp only [validMaxAge, decide_eq_true_eq] at hvalid
    simp only [minTtlSeconds, maxTtlSeconds] at hvalid
    apply readInteger_number
    simp only [isI64, decide_eq_true_eq]
    simp only [i64Min, i64Max]
    omega
  simp [ofJson, hfields, requiredField, hage, department.new_eq, Except.toOption]

@[simp] theorem SubjectMapping.ofJson_json (subject : SubjectMapping) :
    ofJson uuids (subject.json uuids) = some subject := by
  cases subject with
  | oidc => rfl
  | entra tenant =>
    have hfields : ((entra tenant).json uuids).readFields ["kind", "tenant"] = some _ :=
      readFields_object rfl (by decide)
    have hkind : ((entra tenant).json uuids).readVariant "kind" = some "entra" := rfl
    simp [ofJson, hkind, hfields, requiredField, uuids.parse_text]

theorem ClaimMapping.ofJson_json (claims : ClaimMapping) :
    ofJson uuids (claims.json uuids) =
      if isU32 claims.profile.maxAgeSeconds then some claims else none := by
  have hfields : (claims.json uuids).readFields
      ["subject", "profile", "groups", "department_snapshot"] = some _ :=
    readFields_object rfl (by decide)
  have hgroups : (writeNullable .string claims.groups).readNullable readString =
      some claims.groups := readNullable_writeNullable (fun _ _ => rfl) rfl
  have hdepartment : (writeNullable DepartmentSnapshotClaim.json
      claims.departmentSnapshot).readNullable DepartmentSnapshotClaim.ofJson =
        some claims.departmentSnapshot :=
    readNullable_writeNullable (fun department _ => department.ofJson_json) rfl
  have hprofile := claims.profile.ofJson_json
  by_cases h : isU32 claims.profile.maxAgeSeconds = true
  · simp [ofJson, hfields, optionalField, requiredField, hgroups, hdepartment, hprofile, h]
  · simp [ofJson, hfields, optionalField, requiredField, hprofile, h]

/-- Configuration that is written is read back, whether it is valid or not. -/
theorem ProviderSettingsInput.ofJson_json (input : ProviderSettingsInput) :
    ofJson uuids (input.json uuids) =
      if isU32 input.claims.profile.maxAgeSeconds then some input else none := by
  have hfields : (input.json uuids).readFields
      ["issuer", "client_id", "redirect_uri", "scopes", "claims", "jit"] = some _ :=
    readFields_object rfl (by decide)
  have hscopes : (Value.array (input.scopes.map Value.string)).readList readString =
      some input.scopes := readList_map fun _ _ => rfl
  have hclaims := input.claims.ofJson_json uuids
  by_cases h : isU32 input.claims.profile.maxAgeSeconds = true
  · simp [ofJson, hfields, requiredField, hscopes, hclaims, readBool, h]
  · simp [ofJson, hfields, requiredField, hscopes, hclaims, h]

/-- The lifetime of a profile in valid configuration is a `u32`. -/
theorem ProviderSettingsInput.isU32_of_valid {input : ProviderSettingsInput}
    (h : input.valid parsers = true) : isU32 input.claims.profile.maxAgeSeconds = true := by
  simp only [valid, Bool.and_eq_true] at h
  have hprofile := h.1.1.1.1.2
  simp only [ProfileSettings.valid, Bool.and_eq_true] at hprofile
  have hage := hprofile.1
  simp only [validProfileAge, decide_eq_true_eq] at hage
  simp only [isU32, decide_eq_true_eq]
  omega

/-- A document of configuration is restored exactly where the constructor accepts it. -/
theorem ProviderSettings.ofJson_input (input : ProviderSettingsInput) :
    ofJson uuids parsers (input.json uuids) = (tryFrom parsers input).toOption := by
  have hread := input.ofJson_json uuids
  by_cases h : isU32 input.claims.profile.maxAgeSeconds = true
  · simp [ofJson, hread, h]
  · have hvalid : ¬ input.valid parsers = true :=
      fun hv => h (ProviderSettingsInput.isU32_of_valid hv)
    simp [ofJson, hread, h, tryFrom, hvalid, Except.toOption]

/-- Settings convert to their input and back. -/
theorem ProviderSettings.tryFrom_input (settings : ProviderSettings parsers) :
    tryFrom parsers settings.input = .ok settings := by
  simp only [tryFrom, settings.valid, dite_true]

end RoundTrip

section Stored

variable {uuids : UuidFormat} {parsers : Parsers}

theorem ProfileSettings.ofJson_stored (value : Value) : ofJson (stored value) = ofJson value := by
  simp only [ofJson, readFields_stored]
  cases value.readFields ["extensionsClaim", "maxAgeSeconds"] with
  | none => rfl
  | some fields =>
    simp only [Option.map_some, Option.bind_eq_bind, Option.bind_some,
      optionalField_stored readString_stored, requiredField_stored (readInteger_stored isU32)]

theorem DepartmentSnapshotClaim.ofJson_stored (value : Value) :
    ofJson (stored value) = ofJson value := by
  simp only [ofJson, readFields_stored]
  cases value.readFields ["claim", "max_age_seconds"] with
  | none => rfl
  | some fields =>
    simp only [Option.map_some, Option.bind_eq_bind, Option.bind_some,
      requiredField_stored readString_stored, requiredField_stored (readInteger_stored isI64)]

theorem SubjectMapping.ofJson_stored (value : Value) :
    ofJson uuids (stored value) = ofJson uuids value := by
  simp only [ofJson, readVariant_stored, isUnitVariant_stored, readFields_stored]
  cases value.readFields ["kind", "tenant"] with
  | none => rfl
  | some fields =>
    simp only [Option.map_some, Option.bind_eq_bind, Option.bind_some,
      requiredField_stored readString_stored]

theorem ClaimMapping.ofJson_stored (value : Value) :
    ofJson uuids (stored value) = ofJson uuids value := by
  simp only [ofJson, readFields_stored]
  cases value.readFields ["subject", "profile", "groups", "department_snapshot"] with
  | none => rfl
  | some fields =>
    simp only [Option.map_some, Option.bind_eq_bind, Option.bind_some,
      requiredField_stored SubjectMapping.ofJson_stored,
      requiredField_stored ProfileSettings.ofJson_stored, optionalField_stored readString_stored,
      optionalField_stored DepartmentSnapshotClaim.ofJson_stored]

theorem ProviderSettingsInput.ofJson_stored (value : Value) :
    ofJson uuids (stored value) = ofJson uuids value := by
  simp only [ofJson, readFields_stored]
  cases value.readFields ["issuer", "client_id", "redirect_uri", "scopes", "claims", "jit"] with
  | none => rfl
  | some fields =>
    simp only [Option.map_some, Option.bind_eq_bind, Option.bind_some,
      requiredField_stored readString_stored, requiredField_stored (readList_stored readString_stored),
      requiredField_stored ClaimMapping.ofJson_stored, requiredField_stored readBool_stored]

/-- A database keeps what the settings are restored from. -/
theorem ProviderSettings.ofJson_stored (value : Value) :
    ofJson uuids parsers (stored value) = ofJson uuids parsers value := by
  simp only [ofJson, ProviderSettingsInput.ofJson_stored]

end Stored

end IdentityAuthority
