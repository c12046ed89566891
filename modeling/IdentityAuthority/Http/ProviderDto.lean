import IdentityAuthority.Core.SettingsDocument
import Mathlib.Logic.Equiv.Basic

/-!
# Provider settings on the wire

Clients read and write the settings of a provider under names of their own. What they send becomes
settings through the same constructors that storage uses, after the whole document was read.
-/

namespace IdentityAuthority

open Json Value

namespace Dto

/-- The department mapping a client states, before it is judged. -/
structure DepartmentSnapshotClaim where
  claim : String
  maxAgeSeconds : ℤ
deriving DecidableEq

/-- The claim mapping a client states. -/
structure ClaimMapping where
  subject : SubjectMapping
  profile : ProfileSettings
  groups : Option String
  departmentSnapshot : Option DepartmentSnapshotClaim
deriving DecidableEq

/-- The settings a client states. -/
structure ProviderSettings where
  issuer : String
  clientId : String
  redirectUri : String
  scopes : List String
  claims : ClaimMapping
  jit : Bool
deriving DecidableEq

/-- The document of a department mapping. -/
def DepartmentSnapshotClaim.json (department : DepartmentSnapshotClaim) : Value :=
  .object
    [("claim", .string department.claim),
      ("maxAgeSeconds", .number (.integer department.maxAgeSeconds))]

/-- The department mapping of a document. -/
def DepartmentSnapshotClaim.ofJson (value : Value) : Option DepartmentSnapshotClaim := do
  let fields ← value.readFields ["claim", "maxAgeSeconds"]
  let claim ← requiredField fields "claim" readString
  let maxAgeSeconds ← requiredField fields "maxAgeSeconds" (readInteger isI64)
  pure { claim, maxAgeSeconds }

section Documents

variable (uuids : UuidFormat)

/-- The document of a claim mapping. -/
def ClaimMapping.json (claims : ClaimMapping) : Value :=
  .object
    [("subject", claims.subject.json uuids), ("profile", claims.profile.json),
      ("groups", writeNullable .string claims.groups),
      ("departmentSnapshot", writeNullable DepartmentSnapshotClaim.json claims.departmentSnapshot)]

/-- The claim mapping of a document. -/
def ClaimMapping.ofJson (value : Value) : Option ClaimMapping := do
  let fields ← value.readFields ["subject", "profile", "groups", "departmentSnapshot"]
  let subject ← requiredField fields "subject" (SubjectMapping.ofJson uuids)
  let profile ← requiredField fields "profile" ProfileSettings.ofJson
  let groups ← optionalField fields "groups" readString
  let departmentSnapshot ←
    optionalField fields "departmentSnapshot" DepartmentSnapshotClaim.ofJson
  pure { subject, profile, groups, departmentSnapshot }

namespace ProviderSettings

/-- The document of settings. -/
def json (settings : ProviderSettings) : Value :=
  .object
    [("issuer", .string settings.issuer), ("clientId", .string settings.clientId),
      ("redirectUri", .string settings.redirectUri),
      ("scopes", .array (settings.scopes.map Value.string)),
      ("claims", settings.claims.json uuids), ("jit", .bool settings.jit)]

/-- The settings of a document. -/
def ofJson (value : Value) : Option ProviderSettings := do
  let fields ← value.readFields ["issuer", "clientId", "redirectUri", "scopes", "claims", "jit"]
  let issuer ← requiredField fields "issuer" readString
  let clientId ← requiredField fields "clientId" readString
  let redirectUri ← requiredField fields "redirectUri" readString
  let scopes ← requiredField fields "scopes" (readList readString)
  let claims ← requiredField fields "claims" (ClaimMapping.ofJson uuids)
  let jit ← requiredField fields "jit" readBool
  pure { issuer, clientId, redirectUri, scopes, claims, jit }

end ProviderSettings

end Documents

variable {parsers : Parsers}

/-- The claim mapping of the domain; a department mapping is judged by its constructor. -/
def ClaimMapping.intoDomain (claims : ClaimMapping) :
    Except FederationError IdentityAuthority.ClaimMapping := do
  let departmentSnapshot ←
    match claims.departmentSnapshot with
    | none => .ok none
    | some d => (IdentityAuthority.DepartmentSnapshotClaim.new d.claim d.maxAgeSeconds).map some
  .ok { subject := claims.subject, profile := claims.profile, groups := claims.groups,
        departmentSnapshot }

/-- `ProviderSettings::into_domain`. -/
def ProviderSettings.intoDomain (parsers : Parsers) (settings : ProviderSettings) :
    Except FederationError (IdentityAuthority.ProviderSettings parsers) := do
  let claims ← settings.claims.intoDomain
  IdentityAuthority.ProviderSettings.tryFrom parsers
    { issuer := settings.issuer, clientId := settings.clientId,
      redirectUri := settings.redirectUri, scopes := settings.scopes, claims,
      jit := settings.jit }

/-- The settings a client reads. -/
def ProviderSettings.ofDomain (settings : IdentityAuthority.ProviderSettings parsers) :
    ProviderSettings where
  issuer := settings.input.issuer
  clientId := settings.input.clientId
  redirectUri := settings.input.redirectUri
  scopes := settings.input.scopes
  claims :=
    { subject := settings.input.claims.subject
      profile := settings.input.claims.profile
      groups := settings.input.claims.groups
      departmentSnapshot :=
        settings.input.claims.departmentSnapshot.map fun d => ⟨d.claim, d.maxAgeSeconds⟩ }
  jit := settings.input.jit

/-- What becomes of a document that a client sends. -/
def ProviderSettings.receive (uuids : UuidFormat) (parsers : Parsers) (value : Value) :
    Option (IdentityAuthority.ProviderSettings parsers) := do
  ((← ofJson uuids value).intoDomain parsers).toOption

end Dto

theorem Dto.ClaimMapping.toOption_intoDomain (claims : Dto.ClaimMapping) :
    claims.intoDomain.toOption =
      (claims.departmentSnapshot.elim (some none) fun d =>
        ((DepartmentSnapshotClaim.new d.claim d.maxAgeSeconds).toOption).map some).bind
          fun departmentSnapshot =>
            some ⟨claims.subject, claims.profile, claims.groups, departmentSnapshot⟩ := by
  unfold intoDomain
  cases claims.departmentSnapshot with
  | none => rfl
  | some d =>
    simp only [Option.elim_some]
    cases DepartmentSnapshotClaim.new d.claim d.maxAgeSeconds <;> rfl

theorem Dto.ProviderSettings.toOption_intoDomain {parsers : Parsers}
    (settings : Dto.ProviderSettings) :
    (settings.intoDomain parsers).toOption =
      settings.claims.intoDomain.toOption.bind fun claims =>
        (IdentityAuthority.ProviderSettings.tryFrom parsers
          ⟨settings.issuer, settings.clientId, settings.redirectUri, settings.scopes, claims,
            settings.jit⟩).toOption := by
  unfold intoDomain
  cases settings.claims.intoDomain <;> rfl

section Names

/-- The names that a department mapping has in storage and on the wire. -/
def departmentName : Equiv.Perm String := Equiv.swap "max_age_seconds" "maxAgeSeconds"

/-- The names that a claim mapping has in storage and on the wire. -/
def claimName : Equiv.Perm String := Equiv.swap "department_snapshot" "departmentSnapshot"

/-- The names that settings have in storage and on the wire. -/
def settingsName : Equiv.Perm String :=
  (Equiv.swap "client_id" "clientId").trans (Equiv.swap "redirect_uri" "redirectUri")

/-- The document of a department mapping under the names of the wire. -/
def departmentNames : Value → Value :=
  renameFields ["claim", "max_age_seconds"] departmentName fun _ value => value

/-- The parts of a claim mapping under the names of the wire. -/
def claimPart (name : String) (value : Value) : Value :=
  if name = "department_snapshot" then departmentNames value else value

/-- The document of a claim mapping under the names of the wire. -/
def claimNames : Value → Value :=
  renameFields ["subject", "profile", "groups", "department_snapshot"] claimName claimPart

/-- The parts of settings under the names of the wire. -/
def settingsPart (name : String) (value : Value) : Value :=
  if name = "claims" then claimNames value else value

/-- The document of settings under the names of the wire. -/
def wireNames : Value → Value :=
  renameFields ["issuer", "client_id", "redirect_uri", "scopes", "claims", "jit"] settingsName
    settingsPart

variable {uuids : UuidFormat} {parsers : Parsers}

/-- A department mapping is judged alike under either names. -/
theorem ofJson_departmentNames (value : Value) :
    ((Dto.DepartmentSnapshotClaim.ofJson (departmentNames value)).bind fun d =>
      (DepartmentSnapshotClaim.new d.claim d.maxAgeSeconds).toOption) =
      DepartmentSnapshotClaim.ofJson value := by
  have hnames : ["claim", "max_age_seconds"].map departmentName = ["claim", "maxAgeSeconds"] := by
    decide
  simp only [Dto.DepartmentSnapshotClaim.ofJson, DepartmentSnapshotClaim.ofJson, departmentNames,
    readFields_rename hnames]
  cases value.readFields ["claim", "max_age_seconds"] with
  | none => rfl
  | some fields =>
    have hclaim : requiredField (renamedFields departmentName (fun _ v => v) fields) "claim"
        readString = requiredField fields "claim" readString :=
      requiredField_rename "claim" (by decide) (fun _ => rfl) fields
    have hage : requiredField (renamedFields departmentName (fun _ v => v) fields) "maxAgeSeconds"
        (readInteger isI64) = requiredField fields "max_age_seconds" (readInteger isI64) :=
      requiredField_rename "max_age_seconds" (by decide) (fun _ => rfl) fields
    simp only [Option.map_some, Option.bind_eq_bind, Option.bind_some, Option.bind_assoc,
      Option.pure_def, hclaim, hage]

/-- A department mapping that may be left out is judged alike under either names. -/
theorem optionalField_departmentNames (fields : Fields) :
    ((optionalField (renamedFields claimName claimPart fields) "departmentSnapshot"
        Dto.DepartmentSnapshotClaim.ofJson).bind fun department =>
      department.elim (some none) fun d =>
        ((DepartmentSnapshotClaim.new d.claim d.maxAgeSeconds).toOption).map some) =
      optionalField fields "department_snapshot" DepartmentSnapshotClaim.ofJson := by
  have hother : ∀ v, departmentNames v = .null → v = .null := fun v h => renameFields_eq_null v h
  have hrename : optionalField (renamedFields claimName claimPart fields) "departmentSnapshot"
      (fun v => (Dto.DepartmentSnapshotClaim.ofJson v).bind fun d =>
        (DepartmentSnapshotClaim.new d.claim d.maxAgeSeconds).toOption) =
      optionalField fields "department_snapshot" DepartmentSnapshotClaim.ofJson :=
    optionalField_rename "department_snapshot" (by decide) rfl hother ofJson_departmentNames fields
  rw [← hrename]
  exact readNullable_bind _ _ _

/-- A claim mapping is judged alike under either names. -/
theorem ofJson_claimNames (value : Value) :
    ((Dto.ClaimMapping.ofJson uuids (claimNames value)).bind fun claims =>
      claims.intoDomain.toOption) = ClaimMapping.ofJson uuids value := by
  have hnames : ["subject", "profile", "groups", "department_snapshot"].map claimName =
      ["subject", "profile", "groups", "departmentSnapshot"] := by decide
  simp only [Dto.ClaimMapping.ofJson, ClaimMapping.ofJson, claimNames, readFields_rename hnames]
  cases value.readFields ["subject", "profile", "groups", "department_snapshot"] with
  | none => rfl
  | some fields =>
    have hsubject : requiredField (renamedFields claimName claimPart fields) "subject"
        (SubjectMapping.ofJson uuids) =
          requiredField fields "subject" (SubjectMapping.ofJson uuids) :=
      requiredField_rename "subject" (by decide) (fun _ => rfl) fields
    have hprofile : requiredField (renamedFields claimName claimPart fields) "profile"
        ProfileSettings.ofJson = requiredField fields "profile" ProfileSettings.ofJson :=
      requiredField_rename "profile" (by decide) (fun _ => rfl) fields
    have hgroups : optionalField (renamedFields claimName claimPart fields) "groups" readString =
        optionalField fields "groups" readString :=
      optionalField_rename "groups" (by decide) rfl (fun _ h => h) (fun _ => rfl) fields
    simp only [Option.map_some, Option.bind_eq_bind, Option.bind_some, Option.bind_assoc,
      Option.pure_def, hsubject, hprofile, hgroups, ← optionalField_departmentNames,
      Dto.ClaimMapping.toOption_intoDomain]

/-- Settings are accepted alike, and as one value, under either names. -/
theorem receive_wireNames (value : Value) :
    Dto.ProviderSettings.receive uuids parsers (wireNames value) =
      ProviderSettings.ofJson uuids parsers value := by
  have hnames : ["issuer", "client_id", "redirect_uri", "scopes", "claims", "jit"].map settingsName =
      ["issuer", "clientId", "redirectUri", "scopes", "claims", "jit"] := by decide
  simp only [Dto.ProviderSettings.receive, ProviderSettings.ofJson, Dto.ProviderSettings.ofJson,
    ProviderSettingsInput.ofJson, wireNames, readFields_rename hnames]
  cases value.readFields ["issuer", "client_id", "redirect_uri", "scopes", "claims", "jit"] with
  | none => rfl
  | some fields =>
    have hissuer : requiredField (renamedFields settingsName settingsPart fields) "issuer"
        readString = requiredField fields "issuer" readString :=
      requiredField_rename "issuer" (by decide) (fun _ => rfl) fields
    have hclient : requiredField (renamedFields settingsName settingsPart fields) "clientId"
        readString = requiredField fields "client_id" readString :=
      requiredField_rename "client_id" (by decide) (fun _ => rfl) fields
    have hredirect : requiredField (renamedFields settingsName settingsPart fields) "redirectUri"
        readString = requiredField fields "redirect_uri" readString :=
      requiredField_rename "redirect_uri" (by decide) (fun _ => rfl) fields
    have hscopes : requiredField (renamedFields settingsName settingsPart fields) "scopes"
        (readList readString) = requiredField fields "scopes" (readList readString) :=
      requiredField_rename "scopes" (by decide) (fun _ => rfl) fields
    have hjit : requiredField (renamedFields settingsName settingsPart fields) "jit" readBool =
        requiredField fields "jit" readBool :=
      requiredField_rename "jit" (by decide) (fun _ => rfl) fields
    have hclaims : (requiredField (renamedFields settingsName settingsPart fields) "claims"
        (Dto.ClaimMapping.ofJson uuids)).bind (fun claims => claims.intoDomain.toOption) =
          requiredField fields "claims" (ClaimMapping.ofJson uuids) := by
      have hrename : requiredField (renamedFields settingsName settingsPart fields) "claims"
          (Dto.ClaimMapping.ofJson uuids) = requiredField fields "claims" fun v =>
            Dto.ClaimMapping.ofJson uuids (claimNames v) :=
        requiredField_rename "claims" (by decide) (fun _ => rfl) fields
      rw [hrename]
      simp only [requiredField, Option.bind_assoc, ofJson_claimNames]
    simp only [Option.map_some, Option.bind_eq_bind, Option.bind_some, Option.bind_assoc,
      Option.pure_def, hissuer, hclient, hredirect, hscopes, hjit, ← hclaims,
      Dto.ProviderSettings.toOption_intoDomain]
    -- on the wire the claims are judged after the last field was read
    cases requiredField fields "jit" readBool with
    | none => simp only [Option.bind_none, Option.bind_fun_none]
    | some jit => simp only [Option.bind_some]

theorem departmentNames_object (claim age : Value) :
    departmentNames (.object [("claim", claim), ("max_age_seconds", age)]) =
      .object [("claim", claim), ("maxAgeSeconds", age)] := by
  have hclaim : departmentName "claim" = "claim" := by decide
  have hage : departmentName "max_age_seconds" = "maxAgeSeconds" := by decide
  simp only [departmentNames, renameFields, List.map_cons, List.map_nil, hclaim, hage]

theorem claimNames_object (subject profile groups department : Value) :
    claimNames (.object [("subject", subject), ("profile", profile), ("groups", groups),
        ("department_snapshot", department)]) =
      .object [("subject", subject), ("profile", profile), ("groups", groups),
        ("departmentSnapshot", departmentNames department)] := by
  have hsubject : claimName "subject" = "subject" := by decide
  have hprofile : claimName "profile" = "profile" := by decide
  have hgroups : claimName "groups" = "groups" := by decide
  have hdepartment : claimName "department_snapshot" = "departmentSnapshot" := by decide
  simp [claimNames, renameFields, claimPart, hsubject, hprofile, hgroups, hdepartment]

theorem wireNames_object (issuer clientId redirectUri scopes claims jit : Value) :
    wireNames (.object [("issuer", issuer), ("client_id", clientId), ("redirect_uri", redirectUri),
        ("scopes", scopes), ("claims", claims), ("jit", jit)]) =
      .object [("issuer", issuer), ("clientId", clientId), ("redirectUri", redirectUri),
        ("scopes", scopes), ("claims", claimNames claims), ("jit", jit)] := by
  have hissuer : settingsName "issuer" = "issuer" := by decide
  have hclient : settingsName "client_id" = "clientId" := by decide
  have hredirect : settingsName "redirect_uri" = "redirectUri" := by decide
  have hscopes : settingsName "scopes" = "scopes" := by decide
  have hclaims : settingsName "claims" = "claims" := by decide
  have hjit : settingsName "jit" = "jit" := by decide
  simp [wireNames, renameFields, settingsPart, hissuer, hclient, hredirect, hscopes, hclaims, hjit]

/-- What a client reads is the stored document under the names of the wire. -/
theorem json_ofDomain (settings : ProviderSettings parsers) :
    (Dto.ProviderSettings.ofDomain settings).json uuids = wireNames (settings.json uuids) := by
  have hdepartment : writeNullable Dto.DepartmentSnapshotClaim.json
      (settings.input.claims.departmentSnapshot.map fun d => ⟨d.claim, d.maxAgeSeconds⟩) =
      departmentNames (writeNullable DepartmentSnapshotClaim.json
        settings.input.claims.departmentSnapshot) := by
    cases settings.input.claims.departmentSnapshot with
    | none => rfl
    | some d => exact (departmentNames_object _ _).symm
  simp only [ProviderSettings.json, ProviderSettingsInput.json, ClaimMapping.json, wireNames_object,
    claimNames_object, ← hdepartment]
  rfl

end Names

end IdentityAuthority
