import IdentityAuthority.Core.Failure
import IdentityAuthority.Core.Federation

/-!
# Stored authentication facts

The facts of an upstream authentication as the database keeps them with a session. They
are collected once from verified claims, and what they say about groups and department is
judged anew at every read.
-/

namespace IdentityAuthority

/-- What was observed about groups. -/
inductive GroupSnapshot
  | unavailable (reason : FactUnavailableReason)
  | available (snapshotId : Uuid) (observedAt expiresAt : ℤ) (values : List String)
deriving DecidableEq

/-- What was observed about the department. -/
inductive DepartmentObservation
  | unavailable (reason : DepartmentUnavailableReason)
  | available (snapshotId : Uuid) (observedAt expiresAt : ℤ) (snapshot : DepartmentSnapshot)
deriving DecidableEq

/-- The facts of one upstream authentication. -/
structure AuthenticationFacts where
  providerConfigVersion : ℤ
  assurance : Assurance
  groups : GroupSnapshot
  departmentSnapshot : DepartmentObservation
deriving DecidableEq

/-- Group facts as a session may show them. -/
inductive Groups
  | available (source : FactSource) (snapshotId : Uuid) (providerConfigVersion observedAt
      expiresAt : ℤ) (values : List String)
  | unavailable (reason : FactUnavailableReason)
  | expired
deriving DecidableEq

/-- `Groups::structurally_valid_at`. -/
def Groups.structurallyValidAt (groups : Groups) (now : ℤ) : Bool :=
  match groups with
  | .available _ _ version observedAt expiresAt values =>
    decide (0 < version) && acceptableObservation observedAt now &&
      validSnapshotWindow observedAt expiresAt && canonicalValues values
  | _ => true

/-- Department facts as a session may show them. -/
inductive DepartmentFacts
  | available (source : FactSource) (providerConfigVersion : ℤ) (snapshotId : Uuid)
      (observedAt expiresAt : ℤ) (snapshot : DepartmentSnapshot)
  | unavailable (reason : DepartmentUnavailableReason)
  | expired
deriving DecidableEq

namespace DepartmentObservation

/-- The department as verified claims assert it; the claim must be one the mapping knows. -/
def collect (claims : UpstreamClaims) (mapping : Option DepartmentSnapshotClaim)
    (snapshotId : Uuid) (now : ℤ) : Except FederationError DepartmentObservation :=
  match claims.departmentSnapshot, mapping with
  | .notConfigured, none => .ok (.unavailable .notConfigured)
  | .missing, some _ => .ok (.unavailable .claimMissing)
  | .invalid, some _ => .ok (.unavailable .invalidClaim)
  | .present snapshot, some mapping =>
    match factsExpiresAt mapping.maxAgeSeconds claims.issuedAt claims.expiresAt now with
    | .ok deadline => .ok (.available snapshotId claims.issuedAt deadline snapshot)
    | .error e => .error e
  | _, _ => .error .claims

/-- `DepartmentObservation::validate`. -/
def valid : DepartmentObservation → Bool
  | unavailable reason => [.notConfigured, .claimMissing, .invalidClaim].contains reason
  | available _ observedAt expiresAt _ => validSnapshotWindow observedAt expiresAt

/-- Judges the observation at a time (`DepartmentFacts::new`). -/
def facts (observation : DepartmentObservation) (source : FactSource) (version now : ℤ) :
    Except Failure DepartmentFacts :=
  match observation with
  | unavailable reason => .ok (.unavailable reason)
  | available snapshotId observedAt expiresAt snapshot =>
    if acceptableObservation observedAt now = false then .error .rejected
    else if now < observedAt then .ok (.unavailable .notYetValid)
    else if expiresAt ≤ now then .ok .expired
    else .ok (.available source version snapshotId observedAt expiresAt snapshot)

end DepartmentObservation

namespace AuthenticationFacts

/-- The facts of verified claims under a provider version and a deployment policy. -/
def collect (claims : UpstreamClaims) (version : ℤ) (policy : GroupFactsMaxAge)
    (mapping : Option DepartmentSnapshotClaim) (groupsId departmentId : Uuid) (now : ℤ) :
    Except FederationError AuthenticationFacts :=
  if claims.valid = false then .error .claims
  else do
    let deadline ← factsExpiresAt policy.seconds claims.issuedAt claims.expiresAt now
    if version < 1 then .error .claims
    let department ← DepartmentObservation.collect claims mapping departmentId now
    pure
      { providerConfigVersion := version
        assurance := claims.assurance
        groups :=
          match claims.groups with
          | .notConfigured => .unavailable .notConfigured
          | .missing => .unavailable .claimMissing
          | .present values => .available groupsId claims.issuedAt deadline values
        departmentSnapshot := department }

/-- Stored facts are ones `collect` produces. -/
def decodable (facts : AuthenticationFacts) : Bool :=
  decide (1 ≤ facts.providerConfigVersion) && facts.departmentSnapshot.valid &&
    match facts.groups with
    | .unavailable reason => [.notConfigured, .claimMissing].contains reason
    | .available _ observedAt expiresAt values =>
      validSnapshotWindow observedAt expiresAt && canonicalValues values

/-- `AuthenticationFacts::decode`. -/
def decode (facts : AuthenticationFacts) : Except Failure AuthenticationFacts :=
  if facts.decodable then .ok facts else .error .corrupt

/-- The facts to store: the department is withheld where the whole would be too large.
The size is that of the database's text of the document. -/
def encode (size : AuthenticationFacts → ℕ) (facts : AuthenticationFacts) :
    Except Failure AuthenticationFacts :=
  if size facts ≤ 32768 then .ok facts
  else
    match facts.departmentSnapshot with
    | .unavailable _ => .error .rejected
    | .available _ _ _ _ =>
      let withheld := { facts with departmentSnapshot := .unavailable .invalidClaim }
      if size withheld ≤ 32768 then .ok withheld else .error .rejected

/-- The group facts a session may show at a time. -/
def project (facts : AuthenticationFacts) (source : FactSource) (now : ℤ) :
    Except Failure Groups :=
  match facts.groups with
  | .unavailable reason => .ok (.unavailable reason)
  | .available snapshotId observedAt expiresAt values =>
    if acceptableObservation observedAt now = false then .error .rejected
    else if now < observedAt then .ok (.unavailable .notYetValid)
    else if expiresAt ≤ now then .ok .expired
    else .ok (.available source snapshotId facts.providerConfigVersion observedAt expiresAt values)

variable {facts stored : AuthenticationFacts}

theorem decode_eq_ok : facts.decode = .ok stored ↔ facts.decodable = true ∧ stored = facts := by
  unfold decode
  split <;> simp [*, eq_comm]

/-- Encoding keeps everything but the department. -/
theorem encode_eq_ok {size : AuthenticationFacts → ℕ} (h : facts.encode size = .ok stored) :
    stored.providerConfigVersion = facts.providerConfigVersion ∧
      stored.assurance = facts.assurance ∧ stored.groups = facts.groups ∧
      (stored.departmentSnapshot = facts.departmentSnapshot ∨
        stored.departmentSnapshot = .unavailable .invalidClaim) := by
  unfold encode at h
  split at h
  · cases h
    exact ⟨rfl, rfl, rfl, .inl rfl⟩
  · cases hdepartment : facts.departmentSnapshot with
    | unavailable reason => simp [hdepartment] at h
    | available id observed expires snapshot =>
      simp only [hdepartment] at h
      split at h
      · cases h
        exact ⟨rfl, rfl, rfl, .inr rfl⟩
      · cases h

/-- Collected facts carry the version and the assurance they were collected under. -/
theorem collect_eq_ok {claims : UpstreamClaims} {version now : ℤ} {policy : GroupFactsMaxAge}
    {mapping : Option DepartmentSnapshotClaim} {groupsId departmentId : Uuid}
    (h : collect claims version policy mapping groupsId departmentId now = .ok facts) :
    claims.valid = true ∧ facts.providerConfigVersion = version ∧
      facts.assurance = claims.assurance := by
  unfold collect at h
  split at h
  · cases h
  · rename_i hvalid
    simp only [bind, Except.bind] at h
    cases hdeadline : factsExpiresAt policy.seconds claims.issuedAt claims.expiresAt now with
    | error e => simp [hdeadline] at h
    | ok deadline =>
      simp only [hdeadline] at h
      split at h
      · cases h
      · cases hdepartment : DepartmentObservation.collect claims mapping departmentId now with
        | error e => simp [hdepartment] at h
        | ok department =>
          simp only [hdepartment, pure, Except.pure] at h
          cases h
          exact ⟨by simpa using hvalid, rfl, rfl⟩

/-- The deadline of observed facts lies in an admissible window. -/
theorem factsExpiresAt_window {maxAge issuedAt expiresAt now deadline : ℤ}
    (hage : validMaxAge maxAge = true)
    (h : factsExpiresAt maxAge issuedAt expiresAt now = .ok deadline) :
    validSnapshotWindow issuedAt deadline = true := by
  unfold factsExpiresAt at h
  split at h
  · rename_i hacceptable
    simp only [acceptableObservation, Bool.and_eq_true, decide_eq_true_eq] at hacceptable
    have hage : 1 ≤ maxAge ∧ maxAge ≤ 300 := of_decide_eq_true hage
    cases hsum : checkedAdd issuedAt maxAge with
    | none => simp [hsum] at h
    | some sum =>
      obtain ⟨-, rfl⟩ := checkedAdd_eq_some.mp hsum
      simp only [hsum, Except.ok.injEq] at h
      subst h
      simp only [validSnapshotWindow, Bool.and_eq_true, decide_eq_true_eq]
      refine ⟨⟨by omega, decide_eq_true ?_⟩, decide_eq_true ?_⟩
      · unfold i64Min i64Max
        omega
      · unfold minTtlSeconds maxTtlSeconds
        omega
  · cases h

/-- A collected department is one that storage can decode. -/
theorem collectDepartment_valid {claims : UpstreamClaims} {mapping : Option DepartmentSnapshotClaim}
    {id : Uuid} {now : ℤ} {department : DepartmentObservation}
    (h : DepartmentObservation.collect claims mapping id now = .ok department) :
    department.valid = true := by
  unfold DepartmentObservation.collect at h
  split at h
  · cases h
    decide
  · cases h
    decide
  · cases h
    decide
  · rename_i snapshot mapping _
    cases hdeadline : factsExpiresAt mapping.maxAgeSeconds claims.issuedAt claims.expiresAt now with
    | error e => simp [hdeadline] at h
    | ok deadline =>
      simp only [hdeadline] at h
      cases h
      exact factsExpiresAt_window mapping.maxAge_valid hdeadline
  · cases h

/-- Collected facts are ones that storage can decode. -/
theorem collect_decodable {claims : UpstreamClaims} {version now : ℤ} {policy : GroupFactsMaxAge}
    {mapping : Option DepartmentSnapshotClaim} {groupsId departmentId : Uuid}
    (h : collect claims version policy mapping groupsId departmentId now = .ok facts) :
    facts.decodable = true := by
  unfold collect at h
  split at h
  · cases h
  · rename_i hvalid
    have hgroups : claims.groups.valid = true := by
      simp only [UpstreamClaims.valid, Bool.and_eq_true, Bool.not_eq_false] at hvalid
      exact hvalid.1.1.2
    simp only [bind, Except.bind] at h
    cases hdeadline : factsExpiresAt policy.seconds claims.issuedAt claims.expiresAt now with
    | error e => simp [hdeadline] at h
    | ok deadline =>
      have hwindow := factsExpiresAt_window policy.valid hdeadline
      simp only [hdeadline] at h
      split at h
      · cases h
      · rename_i hversion
        cases hdepartment : DepartmentObservation.collect claims mapping departmentId now with
        | error e => simp [hdepartment] at h
        | ok department =>
          have hdepartmentValid := collectDepartment_valid hdepartment
          simp only [hdepartment, pure, Except.pure] at h
          cases h
          simp only [decodable, hdepartmentValid, Bool.and_true, Bool.and_eq_true,
            decide_eq_true_eq]
          refine ⟨by omega, ?_⟩
          cases hclaimed : claims.groups with
          | notConfigured => rfl
          | missing => rfl
          | present values =>
            rw [hclaimed] at hgroups
            simp only [hwindow, Bool.true_and]
            exact hgroups

/-- Encoding keeps facts decodable. -/
theorem encode_decodable {size : AuthenticationFacts → ℕ} (h : facts.encode size = .ok stored)
    (hdecodable : facts.decodable = true) : stored.decodable = true := by
  obtain ⟨hversion, -, hgroups, hdepartment⟩ := encode_eq_ok h
  simp only [decodable, Bool.and_eq_true] at hdecodable
  simp only [decodable, hversion, hgroups, Bool.and_eq_true]
  refine ⟨⟨hdecodable.1.1, ?_⟩, hdecodable.2⟩
  rcases hdepartment with heq | heq
  · rw [heq]
    exact hdecodable.1.2
  · rw [heq]
    decide

end AuthenticationFacts

end IdentityAuthority
