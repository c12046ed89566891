import IdentityAuthority.Http.ProviderDto
import IdentityAuthority.Json.Shape
import IdentityAuthority.Json.Unique
import IdentityAuthority.Operations.Providers

/-!
# One meaning of provider settings

Settings are constructed from input, restored from storage and received from clients. The three
accept the same settings as the same value, what is stored is small enough to be stored and can be
restored, and a client that writes back what it read changes nothing.
-/

namespace IdentityAuthority

open Json Value

section Size

variable {uuids : UuidFormat} {parsers : Parsers}

/-- A part of a bounded text takes at most twice the size of the text in quotes. -/
theorem quote_part_le (before after : String) {s : String} {limit : ℕ}
    (h : boundedText (before ++ s ++ after) limit = true) : utf8Size (quote s) ≤ 2 + 2 * limit := by
  simp only [boundedText, printable, isControl, Bool.and_eq_true, decide_eq_true_eq,
    List.all_eq_true, Bool.not_eq_true', Bool.or_eq_false_iff, decide_eq_false_iff_not,
    String.toList_append, List.mem_append, String.utf8ByteSize_append] at h
  have hcontrol : ∀ c ∈ s.toList, 32 ≤ c.toNat :=
    fun c hc => not_lt.mp (h.2 c (.inl (.inr hc))).1
  have hquote := utf8Size_quote_le hcontrol
  omega

/-- A bounded text takes at most twice its size in quotes. -/
theorem quote_bounded_le {s : String} {limit : ℕ} (h : boundedText s limit = true) :
    utf8Size (quote s) ≤ 2 + 2 * limit := by
  apply quote_part_le "" ""
  rwa [String.empty_append, String.append_empty]

/-- A name in letters and digits is quoted as it is. -/
theorem quote_alphanumeric {s : String} (h : ∀ c ∈ s.toList, c.isAlphanum = true ∨ c = '_') :
    utf8Size (quote s) = 2 + s.utf8ByteSize := by
  apply utf8Size_quote_plain
  intro c hc
  rcases h c hc with halnum | rfl
  · have hrange := toNat_of_isAlphanum halnum
    have hne : ∀ d : Char, d.toNat < 48 ∨ d.toNat = 92 → c ≠ d := by
      rintro d hd rfl
      omega
    exact escape_plain (by omega) (hne _ (by decide)) (hne _ (by decide))
  · decide

theorem quote_claimName_le {name : String} (h : claimNameValid name = true) :
    utf8Size (quote name) ≤ 66 := by
  simp only [claimNameValid, Bool.and_eq_true, decide_eq_true_eq, List.all_eq_true,
    Bool.or_eq_true] at h
  have hquote := quote_alphanumeric h.1.2
  omega

theorem quote_departmentClaim_le {name : String} (h : departmentClaimValid name = true) :
    utf8Size (quote name) ≤ 66 := by
  simp only [departmentClaimValid, Bool.and_eq_true, decide_eq_true_eq, List.all_eq_true,
    Bool.or_eq_true] at h
  have hquote := quote_alphanumeric h.1.2
  omega

/-- A scope is quoted as it is. -/
theorem quote_scope_le {scope : String} (h : scopeValid scope = true) :
    utf8Size (quote scope) ≤ 130 := by
  simp only [scopeValid, Bool.and_eq_true, decide_eq_true_eq, List.all_eq_true] at h
  have hquote : utf8Size (quote scope) = 2 + scope.utf8ByteSize := by
    apply utf8Size_quote_plain
    intro c hc
    obtain ⟨⟨⟨hlow, -⟩, hmark⟩, hslash⟩ := h.1.2 c hc
    exact escape_plain (by omega) hmark hslash
  omega

/-- The scopes of settings, as they are stored. -/
theorem spacedSize_scopes_le {scopes : List String} (hlength : scopes.length ≤ 16)
    (h : ∀ scope ∈ scopes, scopeValid scope = true) :
    spacedSize (.array (scopes.map Value.string)) ≤ 2112 := by
  have hsum : ((scopes.map Value.string).map spacedSize).sum ≤ scopes.length * 130 := by
    have hle := List.sum_le_card_nsmul ((scopes.map Value.string).map spacedSize) 130 (by
      simp only [List.map_map, List.mem_map, Function.comp_apply]
      rintro n ⟨scope, hscope, rfl⟩
      exact quote_scope_le (h scope hscope))
    simpa using hle
  rw [spacedSize_array, List.length_map]
  omega

/-- What valid settings keep to, as far as their size depends on it. -/
structure ProviderSettings.Bounds (settings : ProviderSettings parsers) : Prop where
  issuer : boundedText settings.input.issuer 2048 = true
  clientId : boundedText settings.input.clientId 256 = true
  redirectUri : boundedText settings.input.redirectUri 2048 = true
  scopes_length : settings.input.scopes.length ≤ 16
  scopes : ∀ scope ∈ settings.input.scopes, scopeValid scope = true
  profileAge : validProfileAge settings.input.claims.profile.maxAgeSeconds = true
  extensions : ∀ name ∈ settings.input.claims.profile.extensionsClaim, claimNameValid name = true
  groups : ∀ name ∈ settings.input.claims.groups, claimNameValid name = true
  tenant : ∀ tenant, settings.input.claims.subject = .entra tenant →
    settings.input.issuer =
      "https://login.microsoftonline.com/" ++ parsers.uuidText tenant ++ "/v2.0"

theorem ProviderSettings.bounds (settings : ProviderSettings parsers) : settings.Bounds := by
  have hvalid := settings.valid
  simp only [ProviderSettingsInput.valid, Bool.and_eq_true, decide_eq_true_eq] at hvalid
  obtain ⟨⟨⟨⟨⟨⟨⟨⟨⟨⟨⟨⟨hsubject, hissuer⟩, hclient⟩, hredirect⟩, -⟩, -⟩, hlength⟩, -⟩, hprofile⟩,
    hscopes⟩, -⟩, -⟩, hnamed⟩ := hvalid
  simp only [ProfileSettings.valid, Bool.and_eq_true] at hprofile
  rw [List.all_eq_true] at hscopes hnamed
  refine ⟨hissuer, hclient, hredirect, hlength, hscopes, hprofile.1, ?_, ?_, ?_⟩
  · intro name hname
    exact hnamed name (by simp [Option.mem_def.mp hname])
  · intro name hname
    exact hnamed name (by simp [Option.mem_def.mp hname])
  · intro tenant htenant
    simp only [htenant, Bool.and_eq_true, decide_eq_true_eq] at hsubject
    exact hsubject.1

/-- What may be nothing takes no more than a value or `null`. -/
theorem spacedSize_writeNullable_le {α : Type} {write : α → Value} {o : Option α} {n : ℕ}
    (hnull : 4 ≤ n) (h : ∀ a ∈ o, spacedSize (write a) ≤ n) :
    spacedSize (writeNullable write o) ≤ n := by
  cases o with
  | none => exact hnull
  | some a => exact h a rfl

theorem DepartmentSnapshotClaim.spacedSize_json_le (department : DepartmentSnapshotClaim) :
    spacedSize department.json ≤ 101 := by
  have hclaim := quote_departmentClaim_le department.claim_valid
  have hage : spacedSize (.number (.integer department.maxAgeSeconds)) ≤ 3 := by
    have hvalid := department.maxAge_valid
    simp only [validMaxAge, decide_eq_true_eq] at hvalid
    simp only [minTtlSeconds, maxTtlSeconds] at hvalid
    apply spacedSize_integer_le (by decide)
    · omega
    · omega
  have hnames : utf8Size (quote "claim") = 7 ∧ utf8Size (quote "max_age_seconds") = 17 := by decide
  simp only [json, spacedSize_object, spacedSize_string, hnames, List.map_cons, List.map_nil,
    List.sum_cons, List.sum_nil, List.length_cons, List.length_nil]
  omega

theorem ProfileSettings.spacedSize_json_le {settings : ProfileSettings}
    (hage : validProfileAge settings.maxAgeSeconds = true)
    (hname : ∀ name ∈ settings.extensionsClaim, claimNameValid name = true) :
    spacedSize settings.json ≤ 111 := by
  have hextensions : spacedSize (writeNullable .string settings.extensionsClaim) ≤ 66 :=
    spacedSize_writeNullable_le (by decide) fun name h => quote_claimName_le (hname name h)
  have hseconds : spacedSize (.number (.integer settings.maxAgeSeconds)) ≤ 5 := by
    simp only [validProfileAge, decide_eq_true_eq] at hage
    apply spacedSize_integer_le (by decide)
    · omega
    · omega
  have hnames : utf8Size (quote "extensionsClaim") = 17 ∧ utf8Size (quote "maxAgeSeconds") = 15 := by
    decide
  simp only [json, spacedSize_object, hnames, List.map_cons, List.map_nil, List.sum_cons,
    List.sum_nil, List.length_cons, List.length_nil]
  omega

theorem SubjectMapping.spacedSize_json_le {subject : SubjectMapping}
    (h : ∀ tenant, subject = .entra tenant → utf8Size (quote (uuids.text tenant)) ≤ 4098) :
    spacedSize (subject.json uuids) ≤ 4127 := by
  have hnames : utf8Size (quote "kind") = 6 ∧ utf8Size (quote "tenant") = 8 ∧
      utf8Size (quote "oidc") = 6 ∧ utf8Size (quote "entra") = 7 := by decide
  cases subject with
  | oidc =>
    simp only [json, spacedSize_object, spacedSize_string, hnames, List.map_cons, List.map_nil,
      List.sum_cons, List.sum_nil, List.length_cons, List.length_nil]
    omega
  | entra tenant =>
    have htenant := h tenant rfl
    simp only [json, spacedSize_object, spacedSize_string, hnames, List.map_cons, List.map_nil,
      List.sum_cons, List.sum_nil, List.length_cons, List.length_nil]
    omega

/-- The stored document of settings has room in its column. -/
theorem ProviderSettings.spacedSize_json_le (hformat : parsers.uuidText = uuids.text)
    (settings : ProviderSettings parsers) : spacedSize (settings.json uuids) ≤ 16384 := by
  have hbounds := settings.bounds
  have hissuer := quote_bounded_le hbounds.issuer
  have hclient := quote_bounded_le hbounds.clientId
  have hredirect := quote_bounded_le hbounds.redirectUri
  have hscopes := spacedSize_scopes_le hbounds.scopes_length hbounds.scopes
  have hjit := spacedSize_bool_le settings.input.jit
  have hclaims : spacedSize (settings.input.claims.json uuids) ≤ 4520 := by
    have hsubject : spacedSize (settings.input.claims.subject.json uuids) ≤ 4127 := by
      apply SubjectMapping.spacedSize_json_le
      intro tenant htenant
      have hwhole := hbounds.issuer
      rw [hbounds.tenant tenant htenant, hformat] at hwhole
      exact quote_part_le _ _ hwhole
    have hprofile := ProfileSettings.spacedSize_json_le hbounds.profileAge hbounds.extensions
    have hgroups : spacedSize (writeNullable .string settings.input.claims.groups) ≤ 66 :=
      spacedSize_writeNullable_le (by decide) fun name h => quote_claimName_le (hbounds.groups name h)
    have hdepartment : spacedSize (writeNullable DepartmentSnapshotClaim.json
        settings.input.claims.departmentSnapshot) ≤ 101 :=
      spacedSize_writeNullable_le (by decide) fun department _ => department.spacedSize_json_le
    have hnames : utf8Size (quote "subject") = 9 ∧ utf8Size (quote "profile") = 9 ∧
        utf8Size (quote "groups") = 8 ∧ utf8Size (quote "department_snapshot") = 21 := by decide
    simp only [ClaimMapping.json, spacedSize_object, hnames, List.map_cons, List.map_nil,
      List.sum_cons, List.sum_nil, List.length_cons, List.length_nil]
    omega
  have hnames : utf8Size (quote "issuer") = 8 ∧ utf8Size (quote "client_id") = 11 ∧
      utf8Size (quote "redirect_uri") = 14 ∧ utf8Size (quote "scopes") = 8 ∧
      utf8Size (quote "claims") = 8 ∧ utf8Size (quote "jit") = 5 := by decide
  simp only [json, ProviderSettingsInput.json, spacedSize_object, spacedSize_string, hnames,
    List.map_cons, List.map_nil, List.sum_cons, List.sum_nil, List.length_cons, List.length_nil]
  omega

end Size

section Values

variable (uuids : UuidFormat) (parsers : Parsers)

/-- Settings as they are stated, in texts and numbers, before any of them is judged. -/
structure SettingsValue where
  issuer : String
  clientId : String
  redirectUri : String
  scopes : List String
  /-- The tenant of Entra subjects, as a UUID is written; without one, subjects are OIDC's. -/
  tenant : Option String
  profile : ProfileSettings
  groups : Option String
  departmentSnapshot : Option (String × ℤ)
  jit : Bool

/-- The names on which storage and the wire differ. -/
structure SettingsNames where
  clientId : String
  redirectUri : String
  departmentSnapshot : String
  maxAgeSeconds : String

/-- The names in storage. -/
def SettingsNames.storage : SettingsNames :=
  ⟨"client_id", "redirect_uri", "department_snapshot", "max_age_seconds"⟩

/-- The names on the wire. -/
def SettingsNames.wire : SettingsNames :=
  ⟨"clientId", "redirectUri", "departmentSnapshot", "maxAgeSeconds"⟩

namespace SettingsValue

/-- The document of the subject mapping. -/
def subjectDocument (value : SettingsValue) : Value :=
  match value.tenant with
  | none => .object [("kind", .string "oidc")]
  | some tenant => .object [("kind", .string "entra"), ("tenant", .string tenant)]

/-- The document of the department mapping under the names of a codec. -/
def departmentDocument (names : SettingsNames) (value : SettingsValue) : Value :=
  match value.departmentSnapshot with
  | none => .null
  | some (claim, age) =>
    .object [("claim", .string claim), (names.maxAgeSeconds, .number (.integer age))]

/-- The document of the claim mapping under the names of a codec. -/
def claimsDocument (names : SettingsNames) (value : SettingsValue) : Value :=
  .object
    [("subject", value.subjectDocument), ("profile", value.profile.json),
      ("groups", writeNullable .string value.groups),
      (names.departmentSnapshot, value.departmentDocument names)]

/-- The document that states the settings under the names of a codec. -/
def document (names : SettingsNames) (value : SettingsValue) : Value :=
  .object
    [("issuer", .string value.issuer), (names.clientId, .string value.clientId),
      (names.redirectUri, .string value.redirectUri),
      ("scopes", .array (value.scopes.map Value.string)),
      ("claims", value.claimsDocument names), ("jit", .bool value.jit)]

/-- The subject mapping that is stated. -/
def subject (value : SettingsValue) : Option SubjectMapping :=
  match value.tenant with
  | none => some .oidc
  | some tenant => (uuids.parse tenant).map .entra

/-- The department mapping that is stated, if its constructor accepts it. -/
def department (value : SettingsValue) : Option (Option DepartmentSnapshotClaim) :=
  match value.departmentSnapshot with
  | none => some none
  | some (claim, age) => ((DepartmentSnapshotClaim.new claim age).toOption).map some

/-- What the constructors make of the settings. -/
def construct (value : SettingsValue) : Option (ProviderSettings parsers) := do
  let subject ← value.subject uuids
  let departmentSnapshot ← value.department
  (ProviderSettings.tryFrom parsers
    { issuer := value.issuer
      clientId := value.clientId
      redirectUri := value.redirectUri
      scopes := value.scopes
      claims := { subject, profile := value.profile, groups := value.groups, departmentSnapshot }
      jit := value.jit }).toOption

variable {parsers}

/-- Settings are stated on the wire as in storage, under the names of the wire. -/
theorem document_wire (value : SettingsValue) :
    value.document .wire = wireNames (value.document .storage) := by
  have hdepartment : value.departmentDocument .wire =
      departmentNames (value.departmentDocument .storage) := by
    unfold departmentDocument
    cases value.departmentSnapshot with
    | none => rfl
    | some department => exact (departmentNames_object _ _).symm
  have hclaims : value.claimsDocument .wire = claimNames (value.claimsDocument .storage) := by
    unfold claimsDocument
    rw [hdepartment]
    exact (claimNames_object _ _ _ _).symm
  unfold document
  rw [hclaims]
  exact (wireNames_object _ _ _ _ _ _).symm

/-- A subject mapping is read as it is stated. -/
theorem ofJson_subjectDocument (value : SettingsValue) :
    SubjectMapping.ofJson uuids value.subjectDocument = value.subject uuids := by
  unfold subjectDocument subject
  cases value.tenant with
  | none => rfl
  | some tenant =>
    have hfields : (Value.object [("kind", .string "entra"), ("tenant", .string tenant)]).readFields
        ["kind", "tenant"] = some _ := readFields_object rfl (by decide)
    have hkind : (Value.object [("kind", .string "entra"), ("tenant", .string tenant)]).readVariant
        "kind" = some "entra" := rfl
    simp [SubjectMapping.ofJson, hkind, hfields, requiredField]

/-- A department mapping is judged as it is stated. -/
theorem readNullable_departmentDocument (value : SettingsValue) :
    (value.departmentDocument .storage).readNullable DepartmentSnapshotClaim.ofJson =
      value.department := by
  unfold departmentDocument department
  cases value.departmentSnapshot with
  | none => rfl
  | some department =>
    obtain ⟨claim, age⟩ := department
    have hfields : (Value.object [("claim", .string claim),
        ("max_age_seconds", .number (.integer age))]).readFields ["claim", "max_age_seconds"] =
          some _ := readFields_object rfl (by decide)
    by_cases hage : isI64 age = true
    · simp [SettingsNames.storage, readNullable, DepartmentSnapshotClaim.ofJson, hfields,
        requiredField, readInteger, hage]
    · have hinvalid : ¬ validMaxAge age = true := by
        intro hvalid
        simp only [validMaxAge, decide_eq_true_eq] at hvalid
        simp only [minTtlSeconds, maxTtlSeconds] at hvalid
        simp only [isI64, decide_eq_true_eq] at hage
        simp only [i64Min, i64Max] at hage
        omega
      simp [SettingsNames.storage, readNullable, DepartmentSnapshotClaim.ofJson, hfields,
        requiredField, readInteger, hage, DepartmentSnapshotClaim.new, hinvalid, Except.toOption]

/-- A claim mapping is read as it is stated. -/
theorem ofJson_claimsDocument (value : SettingsValue) :
    ClaimMapping.ofJson uuids (value.claimsDocument .storage) =
      if isU32 value.profile.maxAgeSeconds then do
        let subject ← value.subject uuids
        let departmentSnapshot ← value.department
        some ⟨subject, value.profile, value.groups, departmentSnapshot⟩
      else none := by
  have hfields : (value.claimsDocument .storage).readFields
      ["subject", "profile", "groups", "department_snapshot"] =
        some (member [("subject", value.subjectDocument), ("profile", value.profile.json),
          ("groups", writeNullable .string value.groups),
          ("department_snapshot", value.departmentDocument .storage)]) :=
    readFields_object rfl (by decide)
  have hgroups : (writeNullable .string value.groups).readNullable readString =
      some value.groups := readNullable_writeNullable (fun _ _ => rfl) rfl
  have hprofile := value.profile.ofJson_json
  have hsubject := value.ofJson_subjectDocument uuids
  have hdepartment := value.readNullable_departmentDocument
  by_cases hage : isU32 value.profile.maxAgeSeconds = true
  · simp [ClaimMapping.ofJson, hfields, requiredField, optionalField, hgroups, hprofile, hage,
      hsubject, hdepartment]
  · simp [ClaimMapping.ofJson, hfields, requiredField, hprofile, hage]

/-- Storage reads the settings as they are stated, around the claim mapping. -/
theorem ofJson_document (value : SettingsValue) :
    ProviderSettingsInput.ofJson uuids (value.document .storage) =
      (ClaimMapping.ofJson uuids (value.claimsDocument .storage)).map fun claims =>
        { issuer := value.issuer
          clientId := value.clientId
          redirectUri := value.redirectUri
          scopes := value.scopes
          claims
          jit := value.jit } := by
  have hfields : (value.document .storage).readFields
      ["issuer", "client_id", "redirect_uri", "scopes", "claims", "jit"] =
        some (member [("issuer", .string value.issuer), ("client_id", .string value.clientId),
          ("redirect_uri", .string value.redirectUri),
          ("scopes", .array (value.scopes.map Value.string)),
          ("claims", value.claimsDocument .storage), ("jit", .bool value.jit)]) :=
    readFields_object rfl (by decide)
  have hscopes : (Value.array (value.scopes.map Value.string)).readList readString =
      some value.scopes := readList_map fun _ _ => rfl
  cases hclaims : ClaimMapping.ofJson uuids (value.claimsDocument .storage) with
  | none => simp [ProviderSettingsInput.ofJson, hfields, requiredField, hscopes, hclaims]
  | some claims =>
    simp [ProviderSettingsInput.ofJson, hfields, requiredField, readBool, hscopes, hclaims]

/-- Storage restores settings exactly where the constructors accept them. -/
theorem restore_document (value : SettingsValue) :
    ProviderSettings.ofJson uuids parsers (value.document .storage) =
      value.construct uuids parsers := by
  unfold ProviderSettings.ofJson construct
  rw [ofJson_document, ofJson_claimsDocument]
  by_cases hage : isU32 value.profile.maxAgeSeconds = true
  · rw [if_pos hage]
    cases value.subject uuids with
    | none => rfl
    | some subject => cases value.department <;> rfl
  · rw [if_neg hage]
    have hinvalid : ∀ input : ProviderSettingsInput, input.claims.profile = value.profile →
        (ProviderSettings.tryFrom parsers input).toOption = none := by
      intro input hsame
      have hnot : ¬ input.valid parsers = true := by
        intro hvalid
        have hvalidAge := ProviderSettingsInput.isU32_of_valid hvalid
        rw [hsame] at hvalidAge
        exact hage hvalidAge
      simp [ProviderSettings.tryFrom, hnot, Except.toOption]
    cases value.subject uuids with
    | none => rfl
    | some subject =>
      cases value.department with
      | none => rfl
      | some department => exact (hinvalid _ rfl).symm

end SettingsValue

end Values

/-- Settings mean one thing to the constructor, to storage and to clients. -/
structure SettingsCodecs (uuids : UuidFormat) (parsers : Parsers) : Prop where
  /-- Settings convert to their input and back. -/
  input : ∀ settings : ProviderSettings parsers,
    ProviderSettings.tryFrom parsers settings.input = .ok settings
  /-- What is stored of settings restores them. -/
  storage : ∀ settings : ProviderSettings parsers,
    ProviderSettings.ofJson uuids parsers (stored (settings.json uuids)) = some settings
  /-- What a client reads of settings, it may send back: it is received as the settings. -/
  wire : ∀ (settings : ProviderSettings parsers) document,
    render .compact document =
        render .compact ((Dto.ProviderSettings.ofDomain settings).json uuids) →
      Dto.ProviderSettings.receive uuids parsers document = some settings
  /-- What is stored of settings passes the check of its column. -/
  column : ∀ settings : ProviderSettings parsers,
    (stored (settings.json uuids)).IsObject ∧ spacedSize (stored (settings.json uuids)) ≤ 16384
  /-- Input is accepted, as one value, by all three or by none. -/
  inputs : ∀ input : ProviderSettingsInput,
    ProviderSettings.ofJson uuids parsers (stored (input.json uuids)) =
        (ProviderSettings.tryFrom parsers input).toOption ∧
      Dto.ProviderSettings.receive uuids parsers (wireNames (input.json uuids)) =
        (ProviderSettings.tryFrom parsers input).toOption
  /-- Settings however stated are accepted, as one value, by all three or by none. -/
  values : ∀ value : SettingsValue,
    ProviderSettings.ofJson uuids parsers (stored (value.document .storage)) =
        value.construct uuids parsers ∧
      Dto.ProviderSettings.receive uuids parsers (value.document .wire) =
        value.construct uuids parsers
  /-- Any document is accepted, as one value, by storage and from clients, or by neither. -/
  documents : ∀ document : Value,
    Dto.ProviderSettings.receive uuids parsers (wireNames document) =
      ProviderSettings.ofJson uuids parsers (stored document)
  /-- Setting a provider to what a client read of it leaves its settings as they are. -/
  edits : ∀ (view next : ProviderView parsers) document settings credentials profile,
    render .compact document =
        render .compact ((Dto.ProviderSettings.ofDomain view.settings).json uuids) →
      Dto.ProviderSettings.receive uuids parsers document = some settings →
        (ProviderEdit.settings settings credentials profile).set view = .ok next →
          next.settings = view.settings

section Codecs

variable {uuids : UuidFormat} {parsers : Parsers}

/-- Settings are restored from their document. -/
theorem ProviderSettings.ofJson_json (settings : ProviderSettings parsers) :
    ofJson uuids parsers (settings.json uuids) = some settings := by
  have hinput : ofJson uuids parsers (settings.json uuids) =
      (tryFrom parsers settings.input).toOption := ofJson_input uuids settings.input
  rw [hinput, settings.tryFrom_input]
  rfl

/-- Settings are received as a client read them, from any text that says the same. -/
theorem receive_ofDomain {settings : ProviderSettings parsers} {document : Value}
    (h : render .compact document =
      render .compact ((Dto.ProviderSettings.ofDomain settings).json uuids)) :
    Dto.ProviderSettings.receive uuids parsers document = some settings := by
  have hdocument := render_injective h
  rw [hdocument, json_ofDomain, receive_wireNames]
  exact settings.ofJson_json

end Codecs

/-- Provider settings have one meaning in their three codecs, if the UUID of a tenant has one text. -/
theorem settings_codecs (uuids : UuidFormat) (parsers : Parsers)
    (hformat : parsers.uuidText = uuids.text) : SettingsCodecs uuids parsers := by
  constructor
  case input => exact ProviderSettings.tryFrom_input
  case storage =>
    intro settings
    rw [ProviderSettings.ofJson_stored]
    exact settings.ofJson_json
  case wire =>
    intro settings document h
    exact receive_ofDomain h
  case column =>
    intro settings
    constructor
    · exact ⟨_, rfl⟩
    · rw [spacedSize_stored]
      exact settings.spacedSize_json_le hformat
  case inputs =>
    intro input
    have hinput : ProviderSettings.ofJson uuids parsers (input.json uuids) =
        (ProviderSettings.tryFrom parsers input).toOption :=
      ProviderSettings.ofJson_input uuids input
    constructor
    · rw [ProviderSettings.ofJson_stored, hinput]
    · rw [receive_wireNames, hinput]
  case values =>
    intro value
    have hvalue : ProviderSettings.ofJson uuids parsers (value.document .storage) =
        value.construct uuids parsers := value.restore_document uuids
    constructor
    · rw [ProviderSettings.ofJson_stored, hvalue]
    · rw [value.document_wire, receive_wireNames, hvalue]
  case documents =>
    intro document
    rw [receive_wireNames, ProviderSettings.ofJson_stored]
  case edits =>
    intro view next document settings credentials profile hread hreceive hset
    rw [receive_ofDomain hread] at hreceive
    cases hreceive
    simp only [ProviderEdit.set, ne_eq, not_true_eq_false, if_false] at hset
    cases hversion : ProviderEdit.step view.credentialVersion with
    | error e =>
      rw [hversion] at hset
      cases hset
    | ok credentialVersion =>
      cases hepoch : ProviderEdit.step view.revocationEpoch with
      | error e =>
        rw [hversion, hepoch] at hset
        cases hset
      | ok revocationEpoch =>
        rw [hversion, hepoch] at hset
        cases hset
        rfl

/-- A reader of the two URLs below. -/
def sampleParsers : Parsers where
  parseUrl s :=
    if s = "https://idp.test" ∨ s = "https://host.test/callback" then
      some ⟨"https", true, false, false, false, false⟩
    else none
  uuidText := UuidFormat.hyphenated.text

/-- Settings of a provider with groups and a department. -/
def sampleSettings : SettingsValue where
  issuer := "https://idp.test"
  clientId := "client"
  redirectUri := "https://host.test/callback"
  scopes := ["openid"]
  tenant := none
  profile := ⟨none, 14400⟩
  groups := some "groups"
  departmentSnapshot := some ("organization_snapshot", 60)
  jit := true

theorem sampleSettings_codecs :
    (sampleSettings.construct .hyphenated sampleParsers).isSome = true ∧
      SettingsCodecs .hyphenated sampleParsers :=
  ⟨by decide +kernel, settings_codecs .hyphenated sampleParsers rfl⟩

end IdentityAuthority
