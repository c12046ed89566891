import IdentityAuthority.Core.Identifiers
import IdentityAuthority.Json.Codec
import IdentityAuthority.Storage.AuthFacts

/-!
# The document of authentication facts

The one persisted form of authentication facts. Collecting, decoding and judging facts are three
validators written apart: here they agree, from the claims of a login to every later read of its
session.
-/

namespace IdentityAuthority

open Json

section Wire

/-- `Acr::as_str`. -/
def Acr.wire : Acr → String
  | unspecified => "unspecified"
  | mfa => "mfa"

/-- `Amr::as_str`. -/
def Amr.wire : Amr → String
  | mfa => "mfa"
  | otp => "otp"
  | pwd => "pwd"

/-- The wire text of a reason. -/
def FactUnavailableReason.wire : FactUnavailableReason → String
  | localIdentity => "local_identity"
  | notConfigured => "not_configured"
  | claimMissing => "claim_missing"
  | notYetValid => "not_yet_valid"

/-- The wire text of a reason. -/
def DepartmentUnavailableReason.wire : DepartmentUnavailableReason → String
  | localIdentity => "local_identity"
  | notConfigured => "not_configured"
  | claimMissing => "claim_missing"
  | invalidClaim => "invalid_claim"
  | notYetValid => "not_yet_valid"

/-- All strengths. -/
def Acr.all : List Acr := [.unspecified, .mfa]

/-- All methods. -/
def Amr.all : List Amr := [.mfa, .otp, .pwd]

/-- All reasons. -/
def FactUnavailableReason.all : List FactUnavailableReason :=
  [.localIdentity, .notConfigured, .claimMissing, .notYetValid]

/-- All reasons. -/
def DepartmentUnavailableReason.all : List DepartmentUnavailableReason :=
  [.localIdentity, .notConfigured, .claimMissing, .invalidClaim, .notYetValid]

theorem Acr.read_wire (a : Acr) : (Value.string a.wire).readEnum Acr.all Acr.wire = some a :=
  Value.readEnum_string (by cases a <;> decide) (by cases a <;> decide)

theorem Amr.read_wire (a : Amr) : (Value.string a.wire).readEnum Amr.all Amr.wire = some a :=
  Value.readEnum_string (by cases a <;> decide) (by cases a <;> decide)

theorem FactUnavailableReason.read_wire (r : FactUnavailableReason) :
    (Value.string r.wire).readEnum FactUnavailableReason.all FactUnavailableReason.wire = some r :=
  Value.readEnum_string (by cases r <;> decide) (by cases r <;> decide)

theorem DepartmentUnavailableReason.read_wire (r : DepartmentUnavailableReason) :
    (Value.string r.wire).readEnum DepartmentUnavailableReason.all
      DepartmentUnavailableReason.wire = some r :=
  Value.readEnum_string (by cases r <;> decide) (by cases r <;> decide)

end Wire

section Documents

/-- An integer in a document. -/
def integerJson (n : ℤ) : Value := .number (.integer n)

/-- The document of an assurance. -/
def Assurance.json (assurance : Assurance) : Value :=
  .object
    [("auth_time", Value.writeNullable integerJson assurance.authTime),
      ("acr", .string assurance.acr.wire),
      ("amr", .array (assurance.amr.map fun a => .string a.wire))]

/-- An assurance is read through the checks of `Assurance::new`; its time may be left out. -/
def Assurance.ofJson (value : Value) : Option Assurance := do
  let members ← value.readRecord ["auth_time", "acr", "amr"]
  let authTime ← ((Value.member members "auth_time").getD .null).readNullable
    (Value.readInteger isI64)
  let acr ← (← Value.member members "acr").readEnum Acr.all Acr.wire
  let amr ← (← Value.member members "amr").readList (Value.readEnum Amr.all Amr.wire)
  (Assurance.new authTime acr amr).toOption

/-- The document of a code. -/
def DepartmentId.json (id : DepartmentId) : Value := .string id.text

/-- A code is read through the checks of `DepartmentId::new`. -/
def DepartmentId.ofJson (value : Value) : Option DepartmentId := do
  (DepartmentId.new (← value.readString)).toOption

/-- The document of a node. -/
def DepartmentNode.json (node : DepartmentNode) : Value :=
  .object
    [("id", node.id.json), ("displayName", .string node.displayName),
      ("parentId", Value.writeNullable DepartmentId.json node.parentId)]

/-- A node is read through the checks of `DepartmentNode::new`. -/
def DepartmentNode.ofJson (value : Value) : Option DepartmentNode := do
  let members ← value.readRecord ["id", "displayName", "parentId"]
  let id ← DepartmentId.ofJson (← Value.member members "id")
  let displayName ← (← Value.member members "displayName").readString
  let parentId ← (← Value.member members "parentId").readNullable DepartmentId.ofJson
  (DepartmentNode.new id displayName parentId).toOption

/-- The document of a tree. -/
def DepartmentSnapshot.json (snapshot : DepartmentSnapshot) : Value :=
  .object
    [("version", integerJson 1), ("sourceRevision", .string snapshot.sourceRevision),
      ("nodes", .array (snapshot.nodes.map DepartmentNode.json)),
      ("memberships", .array (snapshot.memberships.map DepartmentId.json))]

/-- A tree is read through the checks of `DepartmentSnapshot::new`. -/
def DepartmentSnapshot.ofJson (value : Value) : Option DepartmentSnapshot := do
  let members ← value.readRecord ["version", "sourceRevision", "nodes", "memberships"]
  let version ← (← Value.member members "version").readInteger isI64
  let sourceRevision ← (← Value.member members "sourceRevision").readString
  let nodes ← (← Value.member members "nodes").readList DepartmentNode.ofJson
  let memberships ← (← Value.member members "memberships").readList DepartmentId.ofJson
  if version ≠ 1 then none
  (DepartmentSnapshot.new sourceRevision nodes memberships).toOption

variable (uuids : UuidFormat)

/-- A UUID is read from its text. -/
def UuidFormat.ofJson (value : Value) : Option Uuid := do
  uuids.parse (← value.readString)

/-- The document of the group facts. -/
def GroupSnapshot.json : GroupSnapshot → Value
  | unavailable reason =>
    .object [("status", .string "unavailable"), ("reason", .string reason.wire)]
  | available snapshotId observedAt expiresAt values =>
    .object
      [("status", .string "available"), ("snapshot_id", .string (uuids.text snapshotId)),
        ("observed_at", integerJson observedAt), ("expires_at", integerJson expiresAt),
        ("values", .array (values.map Value.string))]

/-- The group facts of a document. -/
def GroupSnapshot.ofJson (value : Value) : Option GroupSnapshot :=
  match value.readTag "status" with
  | some "unavailable" => do
    let members ← value.readRecord ["status", "reason"]
    let reason ← (← Value.member members "reason").readEnum FactUnavailableReason.all
      FactUnavailableReason.wire
    pure (unavailable reason)
  | some "available" => do
    let members ← value.readRecord
      ["status", "snapshot_id", "observed_at", "expires_at", "values"]
    let snapshotId ← uuids.ofJson (← Value.member members "snapshot_id")
    let observedAt ← (← Value.member members "observed_at").readInteger isI64
    let expiresAt ← (← Value.member members "expires_at").readInteger isI64
    let values ← (← Value.member members "values").readList Value.readString
    pure (available snapshotId observedAt expiresAt values)
  | _ => none

/-- The document of the department facts. -/
def DepartmentObservation.json : DepartmentObservation → Value
  | unavailable reason =>
    .object [("status", .string "unavailable"), ("reason", .string reason.wire)]
  | available snapshotId observedAt expiresAt snapshot =>
    .object
      [("status", .string "available"), ("snapshot_id", .string (uuids.text snapshotId)),
        ("observed_at", integerJson observedAt), ("expires_at", integerJson expiresAt),
        ("snapshot", snapshot.json)]

/-- The department facts of a document. -/
def DepartmentObservation.ofJson (value : Value) : Option DepartmentObservation :=
  match value.readTag "status" with
  | some "unavailable" => do
    let members ← value.readRecord ["status", "reason"]
    let reason ← (← Value.member members "reason").readEnum DepartmentUnavailableReason.all
      DepartmentUnavailableReason.wire
    pure (unavailable reason)
  | some "available" => do
    let members ← value.readRecord
      ["status", "snapshot_id", "observed_at", "expires_at", "snapshot"]
    let snapshotId ← uuids.ofJson (← Value.member members "snapshot_id")
    let observedAt ← (← Value.member members "observed_at").readInteger isI64
    let expiresAt ← (← Value.member members "expires_at").readInteger isI64
    let snapshot ← DepartmentSnapshot.ofJson (← Value.member members "snapshot")
    pure (available snapshotId observedAt expiresAt snapshot)
  | _ => none

namespace AuthenticationFacts

/-- The document of authentication facts, of format 3. -/
def json (facts : AuthenticationFacts) : Value :=
  .object
    [("format_version", integerJson 3),
      ("provider_config_version", integerJson facts.providerConfigVersion),
      ("assurance", facts.assurance.json), ("groups", facts.groups.json uuids),
      ("department_snapshot", facts.departmentSnapshot.json uuids)]

/-- The facts of a document, before their windows and lists are judged. -/
def ofJson (value : Value) : Option AuthenticationFacts := do
  let members ← value.readRecord
    ["format_version", "provider_config_version", "assurance", "groups", "department_snapshot"]
  let formatVersion ← (← Value.member members "format_version").readInteger isI64
  let providerConfigVersion ←
    (← Value.member members "provider_config_version").readInteger isI64
  let assurance ← Assurance.ofJson (← Value.member members "assurance")
  let groups ← GroupSnapshot.ofJson uuids (← Value.member members "groups")
  let departmentSnapshot ←
    DepartmentObservation.ofJson uuids (← Value.member members "department_snapshot")
  if formatVersion ≠ 3 then none
  pure { providerConfigVersion, assurance, groups, departmentSnapshot }

/-- `AuthenticationFacts::decode`, from the document. -/
def decodeDocument (value : Value) : Except Failure AuthenticationFacts :=
  match ofJson uuids value with
  | some facts => facts.decode
  | none => .error .corrupt

/-- `octet_length($1::jsonb::text)` of the document. -/
def textSize (facts : AuthenticationFacts) : ℕ := spacedSize (facts.json uuids)

/-- `AuthenticationFacts::encode`, to the document: one that is too large withholds its department
and is measured again. -/
def encodeDocument (facts : AuthenticationFacts) : Except Failure Value :=
  let value := facts.json uuids
  if spacedSize value ≤ 32768 then .ok value
  else
    match facts.departmentSnapshot with
    | .unavailable _ => .error .rejected
    | .available _ _ _ _ =>
      let value := value.setMember "department_snapshot"
        ((DepartmentObservation.unavailable .invalidClaim).json uuids)
      if spacedSize value ≤ 32768 then .ok value else .error .rejected

end AuthenticationFacts

end Documents

section RoundTrip

variable (uuids : UuidFormat)

/-- A number that a field of type `i64` can have; the fields of a document are. -/
def GroupSnapshot.Fits : GroupSnapshot → Prop
  | unavailable _ => True
  | available _ observedAt expiresAt _ => isI64 observedAt = true ∧ isI64 expiresAt = true

/-- The same for the department facts. -/
def DepartmentObservation.Fits : DepartmentObservation → Prop
  | unavailable _ => True
  | available _ observedAt expiresAt _ => isI64 observedAt = true ∧ isI64 expiresAt = true

/-- All numbers of the facts are of type `i64`. -/
structure AuthenticationFacts.Fits (facts : AuthenticationFacts) : Prop where
  providerConfigVersion : isI64 facts.providerConfigVersion = true
  authTime : ∀ t ∈ facts.assurance.authTime, isI64 t = true
  groups : facts.groups.Fits
  departmentSnapshot : facts.departmentSnapshot.Fits

theorem Assurance.ofJson_json {assurance : Assurance}
    (hfits : ∀ t ∈ assurance.authTime, isI64 t = true) :
    Assurance.ofJson assurance.json = some assurance := by
  have htime : (Value.writeNullable integerJson assurance.authTime).readNullable
      (Value.readInteger isI64) = some assurance.authTime :=
    Value.readNullable_writeNullable (fun t ht => Value.readInteger_number (hfits t ht)) rfl
  have hacr := Acr.read_wire assurance.acr
  have hamr : (Value.array (assurance.amr.map fun a => Value.string a.wire)).readList
      (Value.readEnum Amr.all Amr.wire) = some assurance.amr :=
    Value.readList_map fun a _ => Amr.read_wire a
  have hnew : Assurance.new assurance.authTime assurance.acr assurance.amr = .ok assurance := by
    simp only [Assurance.new]
    exact dif_pos ⟨assurance.authTime_pos, assurance.mfa_authTime, assurance.amr_canonical⟩
  simp [Assurance.ofJson, Assurance.json, Value.readRecord, htime, hacr,
    hamr, hnew, Except.toOption]

@[simp] theorem DepartmentId.ofJson_json (id : DepartmentId) :
    DepartmentId.ofJson id.json = some id := by
  simp [DepartmentId.ofJson, DepartmentId.json, id.new_text, Except.toOption]

@[simp] theorem DepartmentNode.ofJson_json (node : DepartmentNode) :
    DepartmentNode.ofJson node.json = some node := by
  have hparent : (Value.writeNullable DepartmentId.json node.parentId).readNullable
      DepartmentId.ofJson = some node.parentId :=
    Value.readNullable_writeNullable (fun id _ => id.ofJson_json) rfl
  simp [DepartmentNode.ofJson, DepartmentNode.json, Value.readRecord,
    hparent, node.new_eq, Except.toOption]

@[simp] theorem DepartmentSnapshot.ofJson_json (snapshot : DepartmentSnapshot) :
    DepartmentSnapshot.ofJson snapshot.json = some snapshot := by
  have hversion : (integerJson 1).readInteger isI64 = some 1 := by decide
  have hnodes : (Value.array (snapshot.nodes.map DepartmentNode.json)).readList
      DepartmentNode.ofJson = some snapshot.nodes :=
    Value.readList_map fun node _ => node.ofJson_json
  have hmemberships : (Value.array (snapshot.memberships.map DepartmentId.json)).readList
      DepartmentId.ofJson = some snapshot.memberships :=
    Value.readList_map fun id _ => id.ofJson_json
  simp [DepartmentSnapshot.ofJson, DepartmentSnapshot.json, Value.readRecord,
    hversion, hnodes, hmemberships, snapshot.new_eq, Except.toOption]

theorem GroupSnapshot.ofJson_json {groups : GroupSnapshot} (hfits : groups.Fits) :
    GroupSnapshot.ofJson uuids (groups.json uuids) = some groups := by
  cases groups with
  | unavailable reason =>
    simp [GroupSnapshot.ofJson, GroupSnapshot.json, Value.readTag, Value.readRecord,
      reason.read_wire]
  | available snapshotId observedAt expiresAt values =>
    have hobserved := Value.readInteger_number hfits.1
    have hexpires := Value.readInteger_number hfits.2
    have hvalues : (Value.array (values.map Value.string)).readList Value.readString = some values :=
      Value.readList_map fun _ _ => rfl
    simp [GroupSnapshot.ofJson, GroupSnapshot.json, Value.readTag, Value.readRecord,
      UuidFormat.ofJson, uuids.parse_text, integerJson, hobserved, hexpires, hvalues]

theorem DepartmentObservation.ofJson_json {department : DepartmentObservation}
    (hfits : department.Fits) :
    DepartmentObservation.ofJson uuids (department.json uuids) = some department := by
  cases department with
  | unavailable reason =>
    simp [DepartmentObservation.ofJson, DepartmentObservation.json, Value.readTag, Value.readRecord,
      reason.read_wire]
  | available snapshotId observedAt expiresAt snapshot =>
    have hobserved := Value.readInteger_number hfits.1
    have hexpires := Value.readInteger_number hfits.2
    simp [DepartmentObservation.ofJson, DepartmentObservation.json, Value.readTag, Value.readRecord,
      UuidFormat.ofJson, uuids.parse_text, integerJson, hobserved,
      hexpires]

/-- Whatever facts are written are read back. -/
theorem AuthenticationFacts.ofJson_json {facts : AuthenticationFacts} (hfits : facts.Fits) :
    ofJson uuids (facts.json uuids) = some facts := by
  have hrecord : (facts.json uuids).readRecord
      ["format_version", "provider_config_version", "assurance", "groups",
        "department_snapshot"] = some _ := Value.readRecord_object rfl (by decide)
  have hformat : (integerJson 3).readInteger isI64 = some 3 := by decide
  have hversion : (integerJson facts.providerConfigVersion).readInteger isI64 =
      some facts.providerConfigVersion := Value.readInteger_number hfits.providerConfigVersion
  have hassurance := Assurance.ofJson_json hfits.authTime
  have hgroups := GroupSnapshot.ofJson_json uuids hfits.groups
  have hdepartment := DepartmentObservation.ofJson_json uuids hfits.departmentSnapshot
  simp [ofJson, hrecord, hformat, hversion, hassurance, hgroups,
    hdepartment]

end RoundTrip

section Storing

variable (uuids : UuidFormat) {facts : AuthenticationFacts}

/-- What remains of a department where it is withheld. -/
def DepartmentObservation.withheld : DepartmentObservation → DepartmentObservation
  | unavailable reason => unavailable reason
  | available _ _ _ _ => unavailable .invalidClaim

/-- Replacing the department in the document is replacing it in the facts. -/
theorem AuthenticationFacts.setMember_json (department : DepartmentObservation) :
    (facts.json uuids).setMember "department_snapshot" (department.json uuids) =
      AuthenticationFacts.json uuids { facts with departmentSnapshot := department } := by
  simp [json, Value.setMember]

/-- The document that is stored is that of the facts that storage keeps. -/
theorem AuthenticationFacts.encodeDocument_eq :
    facts.encodeDocument uuids = (facts.encode (textSize uuids)).map (json uuids) := by
  unfold encodeDocument encode textSize
  simp only
  split
  · rfl
  · cases facts.departmentSnapshot with
    | unavailable reason => rfl
    | available id observed expires snapshot =>
      simp only [setMember_json]
      split <;> rfl

/-- Encoding fails only where the facts are too large without a department as well. -/
theorem AuthenticationFacts.encode_error {size : AuthenticationFacts → ℕ} {e : Failure}
    (h : facts.encode size = .error e) :
    32768 < size { facts with departmentSnapshot := facts.departmentSnapshot.withheld } := by
  unfold encode at h
  split at h
  · cases h
  · rename_i hsize
    cases hdepartment : facts.departmentSnapshot with
    | unavailable reason =>
      have hsame : { facts with departmentSnapshot := .unavailable reason } = facts := by
        rw [← hdepartment]
      simp only [DepartmentObservation.withheld, hsame]
      omega
    | available id observed expires snapshot =>
      simp only [hdepartment] at h
      split at h
      · cases h
      · rename_i hwithheld
        simp only [DepartmentObservation.withheld]
        omega

/-- What encoding keeps: the facts, or the facts without their department where they were too
large. -/
theorem AuthenticationFacts.encode_keeps {size : AuthenticationFacts → ℕ}
    {stored : AuthenticationFacts} (h : facts.encode size = .ok stored) :
    stored = facts ∨ 32768 < size facts ∧
      stored = { facts with departmentSnapshot := .unavailable .invalidClaim } := by
  unfold encode at h
  split at h
  · cases h
    exact .inl rfl
  · rename_i hsize
    cases hdepartment : facts.departmentSnapshot with
    | unavailable reason => simp [hdepartment] at h
    | available id observed expires snapshot =>
      simp only [hdepartment] at h
      split at h
      · cases h
        exact .inr ⟨by omega, rfl⟩
      · cases h

/-- Facts without their department are still facts of the type. -/
theorem AuthenticationFacts.Fits.withhold (h : facts.Fits) (reason : DepartmentUnavailableReason) :
    AuthenticationFacts.Fits { facts with departmentSnapshot := .unavailable reason } :=
  ⟨h.providerConfigVersion, h.authTime, h.groups, trivial⟩

/-- A document that was stored for decodable facts is decoded, to the facts that were kept. -/
theorem AuthenticationFacts.decodeDocument_of_encodeDocument {value : Value} (hfits : facts.Fits)
    (hdecodable : facts.decodable = true) (h : facts.encodeDocument uuids = .ok value) :
    decodeDocument uuids value = .ok facts ∨ 32768 < facts.textSize uuids ∧
      decodeDocument uuids value =
        .ok { facts with departmentSnapshot := .unavailable .invalidClaim } := by
  rw [encodeDocument_eq] at h
  cases hencode : facts.encode (textSize uuids) with
  | error e => simp [hencode, Except.map] at h
  | ok stored =>
    simp only [hencode, Except.map, Except.ok.injEq] at h
    subst h
    have hstored := encode_decodable hencode hdecodable
    rcases encode_keeps hencode with rfl | ⟨hsize, rfl⟩
    · refine .inl ?_
      simp only [decodeDocument, ofJson_json uuids hfits]
      exact decode_eq_ok.mpr ⟨hstored, rfl⟩
    · refine .inr ⟨hsize, ?_⟩
      simp only [decodeDocument, ofJson_json uuids (hfits.withhold .invalidClaim)]
      exact decode_eq_ok.mpr ⟨hstored, rfl⟩

end Storing

end IdentityAuthority
