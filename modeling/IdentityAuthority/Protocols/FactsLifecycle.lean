import IdentityAuthority.Storage.FactsCodec

/-!
# From claims to shown facts

Facts are collected once, stored, decoded at every use and judged at the time of the use. Groups and
department each have a window that is fixed when they are collected; what is shown of them follows
the window, and neither depends on the other.
-/

namespace IdentityAuthority

section Windows

/-- Where a time stands to a window. -/
inductive WindowPhase
  | early
  | inside
  | past
deriving DecidableEq

/-- The phase of a window at a time; its end belongs to the past. -/
def windowPhase (observedAt expiresAt t : ℤ) : WindowPhase :=
  if t < observedAt then .early else if expiresAt ≤ t then .past else .inside

/-- What is shown of a fact is what its window demands. -/
structure FollowsWindow {α : Type} (observedAt expiresAt t : ℤ) (early inside past shown : α) :
    Prop where
  inside : shown = inside ↔ observedAt ≤ t ∧ t < expiresAt
  early : shown = early ↔ t < observedAt
  past : shown = past ↔ expiresAt ≤ t

variable {α : Type} {observedAt expiresAt t t' : ℤ}

theorem windowPhase_eq_inside :
    windowPhase observedAt expiresAt t = .inside ↔ observedAt ≤ t ∧ t < expiresAt := by
  unfold windowPhase
  split
  · simp
    omega
  · split
    · simp
      omega
    · simp
      omega

theorem windowPhase_eq_early : windowPhase observedAt expiresAt t = .early ↔ t < observedAt := by
  unfold windowPhase
  split
  · simp [*]
  · split <;> simp [*]

theorem windowPhase_eq_past (h : observedAt < expiresAt) :
    windowPhase observedAt expiresAt t = .past ↔ expiresAt ≤ t := by
  unfold windowPhase
  split
  · simp
    omega
  · split <;> simp [*]

/-- A value that reads off the phase of a window follows the window. -/
theorem FollowsWindow.of_phase {early inside past : α} (h : observedAt < expiresAt)
    (hinside : inside ≠ early) (hpast : inside ≠ past) (hearly : early ≠ past) :
    FollowsWindow observedAt expiresAt t early inside past
      (match windowPhase observedAt expiresAt t with
        | .early => early
        | .inside => inside
        | .past => past) := by
  refine ⟨?_, ?_, ?_⟩
  · rw [← windowPhase_eq_inside]
    cases windowPhase observedAt expiresAt t <;> simp [hinside.symm, hpast.symm]
  · have hphase := @windowPhase_eq_early observedAt expiresAt t
    rw [← hphase]
    cases windowPhase observedAt expiresAt t <;> simp [hinside, hearly.symm]
  · rw [← windowPhase_eq_past h]
    cases windowPhase observedAt expiresAt t <;> simp [hpast, hearly]

/-- An observation that is acceptable stays so. -/
theorem acceptableObservation_later (h : acceptableObservation observedAt t = true) (hle : t ≤ t')
    (hfits : isI64 t' = true) : acceptableObservation observedAt t' = true := by
  simp only [acceptableObservation, isI64, Bool.and_eq_true, decide_eq_true_eq] at h hfits ⊢
  unfold i64Min i64Max maxFutureSkewSeconds at *
  omega

end Windows

section Shown

variable {facts : AuthenticationFacts} {source : FactSource} {id : Uuid}
  {observedAt expiresAt version t t' : ℤ} {values : List String} {snapshot : DepartmentSnapshot}

/-- What a session shows of group facts is read off the phase of their window. -/
theorem AuthenticationFacts.project_eq (hgroups : facts.groups = .available id observedAt expiresAt values)
    (hacceptable : acceptableObservation observedAt t = true) :
    facts.project source t = .ok
      (match windowPhase observedAt expiresAt t with
        | .early => .unavailable .notYetValid
        | .inside =>
          .available source id facts.providerConfigVersion observedAt expiresAt values
        | .past => .expired) := by
  unfold project windowPhase
  simp only [hgroups, hacceptable, Bool.true_eq_false, if_false]
  split
  · rfl
  · split <;> rfl

/-- What a session shows of department facts is read off the phase of their window. -/
theorem DepartmentObservation.facts_eq (hacceptable : acceptableObservation observedAt t = true) :
    (DepartmentObservation.available id observedAt expiresAt snapshot).facts source version t = .ok
      (match windowPhase observedAt expiresAt t with
        | .early => .unavailable .notYetValid
        | .inside => .available source version id observedAt expiresAt snapshot
        | .past => .expired) := by
  unfold facts windowPhase
  simp only [hacceptable, Bool.true_eq_false, if_false]
  split
  · rfl
  · split <;> rfl

/-- Group facts that were shown as expired are never shown as anything else. -/
theorem AuthenticationFacts.project_expired (h : facts.project source t = .ok .expired) (hle : t ≤ t')
    (hfits : isI64 t' = true) : facts.project source t' = .ok .expired := by
  unfold project at h ⊢
  cases hgroups : facts.groups with
  | unavailable reason => simp [hgroups] at h
  | available id observedAt expiresAt values =>
    simp only [hgroups] at h ⊢
    split at h
    · cases h
    · rename_i hacceptable
      have hlater := acceptableObservation_later (by simpa using hacceptable) hle hfits
      split at h
      · cases h
      · split at h
        · rw [if_neg (by simp [hlater]), if_neg (by omega), if_pos (by omega)]
        · cases h

/-- Department facts that were shown as expired are never shown as anything else. -/
theorem DepartmentObservation.facts_expired {department : DepartmentObservation}
    (h : department.facts source version t = .ok .expired) (hle : t ≤ t')
    (hfits : isI64 t' = true) : department.facts source version t' = .ok .expired := by
  cases department with
  | unavailable reason => simp [facts] at h
  | available id observedAt expiresAt snapshot =>
    simp only [facts] at h ⊢
    split at h
    · cases h
    · rename_i hacceptable
      have hlater := acceptableObservation_later (by simpa using hacceptable) hle hfits
      split at h
      · cases h
      · split at h
        · rw [if_neg (by simp [hlater]), if_neg (by omega), if_pos (by omega)]
        · cases h

end Shown

section Collected

variable {claims : UpstreamClaims} {policy : GroupFactsMaxAge}
  {mapping : Option DepartmentSnapshotClaim} {groupsId departmentId : Uuid} {version now t : ℤ}
  {facts : AuthenticationFacts} {source : FactSource} {maxAge limit : ℤ}

/-- The fixed deadline of facts: the end of their lifetime, or that of the token. -/
def UpstreamClaims.deadline (claims : UpstreamClaims) (maxAge : ℤ) : ℤ :=
  min (claims.issuedAt + maxAge) claims.expiresAt

/-- All numbers of the claims are of type `i64`. -/
structure UpstreamClaims.Fits (claims : UpstreamClaims) : Prop where
  issuedAt : isI64 claims.issuedAt = true
  expiresAt : isI64 claims.expiresAt = true
  authTime : ∀ t ∈ claims.assurance.authTime, isI64 t = true

/-- A deadline that is computed is the fixed one, of an observation that is acceptable. -/
theorem factsExpiresAt_eq_ok
    (h : factsExpiresAt maxAge claims.issuedAt claims.expiresAt now = .ok limit) :
    acceptableObservation claims.issuedAt now = true ∧ claims.issuedAt < claims.expiresAt ∧
      isI64 (claims.issuedAt + maxAge) = true ∧ limit = claims.deadline maxAge := by
  unfold factsExpiresAt at h
  split at h
  · rename_i hacceptable
    simp only [Bool.and_eq_true, decide_eq_true_eq] at hacceptable
    cases hsum : checkedAdd claims.issuedAt maxAge with
    | none => simp [hsum] at h
    | some sum =>
      obtain ⟨hrange, rfl⟩ := checkedAdd_eq_some.mp hsum
      simp only [hsum, Except.ok.injEq] at h
      exact ⟨hacceptable.1, hacceptable.2.1, hrange, h.symm⟩
  · cases h

/-- A fixed deadline is of type `i64` where what it is computed from is. -/
theorem UpstreamClaims.deadline_fits (hfits : claims.Fits)
    (hrange : isI64 (claims.issuedAt + maxAge) = true) : isI64 (claims.deadline maxAge) = true := by
  unfold deadline
  rcases min_choice (claims.issuedAt + maxAge) claims.expiresAt with h | h
  · rw [h]
    exact hrange
  · rw [h]
    exact hfits.expiresAt

/-- A fixed deadline lies after the observation, and at most five minutes after it. -/
theorem UpstreamClaims.deadline_window (hage : validMaxAge maxAge = true)
    (h : claims.issuedAt < claims.expiresAt) :
    claims.issuedAt < claims.deadline maxAge ∧
      claims.deadline maxAge ≤ claims.issuedAt + 300 := by
  have hage : 1 ≤ maxAge ∧ maxAge ≤ 300 := of_decide_eq_true hage
  unfold deadline
  omega

/-- What a successful collection consists of. -/
theorem AuthenticationFacts.collect_parts
    (h : collect claims version policy mapping groupsId departmentId now = .ok facts) :
    ∃ deadline department,
      factsExpiresAt policy.seconds claims.issuedAt claims.expiresAt now = .ok deadline ∧
      DepartmentObservation.collect claims mapping departmentId now = .ok department ∧
      facts.departmentSnapshot = department ∧
      facts.groups =
        match claims.groups with
        | .notConfigured => .unavailable .notConfigured
        | .missing => .unavailable .claimMissing
        | .present values => .available groupsId claims.issuedAt deadline values := by
  unfold collect at h
  split at h
  · cases h
  · simp only [bind, Except.bind] at h
    cases hdeadline : factsExpiresAt policy.seconds claims.issuedAt claims.expiresAt now with
    | error e => simp [hdeadline] at h
    | ok deadline =>
      simp only [hdeadline] at h
      split at h
      · cases h
      · cases hdepartment : DepartmentObservation.collect claims mapping departmentId now with
        | error e => simp [hdepartment] at h
        | ok department =>
          simp only [hdepartment, pure, Except.pure] at h
          cases h
          exact ⟨deadline, department, rfl, rfl, rfl, rfl⟩

/-- The department of a successful collection. -/
theorem DepartmentObservation.collect_eq_ok {department : DepartmentObservation}
    (h : collect claims mapping departmentId now = .ok department) :
    (claims.departmentSnapshot = .notConfigured ∧ mapping = none ∧
      department = .unavailable .notConfigured) ∨
    (claims.departmentSnapshot = .missing ∧ mapping.isSome = true ∧
      department = .unavailable .claimMissing) ∨
    (claims.departmentSnapshot = .invalid ∧ mapping.isSome = true ∧
      department = .unavailable .invalidClaim) ∨
    ∃ snapshot, ∃ lifetime : DepartmentSnapshotClaim,
      claims.departmentSnapshot = .present snapshot ∧ mapping = some lifetime ∧
      isI64 (claims.issuedAt + lifetime.maxAgeSeconds) = true ∧
      department = .available departmentId claims.issuedAt
        (claims.deadline lifetime.maxAgeSeconds) snapshot := by
  unfold collect at h
  cases hclaimed : claims.departmentSnapshot with
  | notConfigured =>
    cases mapping with
    | none => exact .inl ⟨rfl, rfl, by simpa [hclaimed, eq_comm] using h⟩
    | some lifetime => simp [hclaimed] at h
  | missing =>
    cases mapping with
    | none => simp [hclaimed] at h
    | some lifetime => exact .inr (.inl ⟨rfl, rfl, by simpa [hclaimed, eq_comm] using h⟩)
  | invalid =>
    cases mapping with
    | none => simp [hclaimed] at h
    | some lifetime => exact .inr (.inr (.inl ⟨rfl, rfl, by simpa [hclaimed, eq_comm] using h⟩))
  | present snapshot =>
    cases mapping with
    | none => simp [hclaimed] at h
    | some lifetime =>
      simp only [hclaimed] at h
      cases hdeadline : factsExpiresAt lifetime.maxAgeSeconds claims.issuedAt claims.expiresAt now with
      | error e => simp [hdeadline] at h
      | ok deadline =>
        obtain ⟨-, -, hrange, rfl⟩ := factsExpiresAt_eq_ok hdeadline
        simp only [hdeadline, Except.ok.injEq] at h
        exact .inr (.inr (.inr ⟨snapshot, lifetime, rfl, rfl, hrange, h.symm⟩))

/-- Collected facts are of type `i64` where the claims are. -/
theorem AuthenticationFacts.collect_fits (hfits : claims.Fits) (hversion : isI64 version = true)
    (h : collect claims version policy mapping groupsId departmentId now = .ok facts) :
    facts.Fits := by
  obtain ⟨-, hversion', hassurance⟩ := collect_eq_ok h
  obtain ⟨deadline, department, hdeadline, hdepartment, hsame, hgroups⟩ := collect_parts h
  obtain ⟨-, -, hrange, rfl⟩ := factsExpiresAt_eq_ok hdeadline
  refine ⟨by rw [hversion', hversion], by rw [hassurance]; exact hfits.authTime, ?_, ?_⟩
  · rw [hgroups]
    cases claims.groups with
    | notConfigured => trivial
    | missing => trivial
    | present values => exact ⟨hfits.issuedAt, UpstreamClaims.deadline_fits hfits hrange⟩
  · rw [hsame]
    rcases DepartmentObservation.collect_eq_ok hdepartment with
      ⟨-, -, rfl⟩ | ⟨-, -, rfl⟩ | ⟨-, -, rfl⟩ | ⟨snapshot, lifetime, -, -, hrange, rfl⟩
    · trivial
    · trivial
    · trivial
    · exact ⟨hfits.issuedAt, UpstreamClaims.deadline_fits hfits hrange⟩

/-- The groups of the claims, as collected facts keep them. -/
def UpstreamClaims.observedGroups (claims : UpstreamClaims) (policy : GroupFactsMaxAge) (id : Uuid) :
    GroupSnapshot :=
  match claims.groups with
  | .notConfigured => .unavailable .notConfigured
  | .missing => .unavailable .claimMissing
  | .present values => .available id claims.issuedAt (claims.deadline policy.seconds) values

/-- Group facts as they must be shown: by presence of the claim, and by their window. -/
structure GroupsShown (claims : UpstreamClaims) (policy : GroupFactsMaxAge) (id : Uuid) (version : ℤ)
    (source : FactSource) (t : ℤ) (shown : Groups) : Prop where
  notConfigured : claims.groups = .notConfigured → shown = .unavailable .notConfigured
  missing : claims.groups = .missing → shown = .unavailable .claimMissing
  present : ∀ values, claims.groups = .present values →
    FollowsWindow claims.issuedAt (claims.deadline policy.seconds) t (.unavailable .notYetValid)
      (.available source id version claims.issuedAt (claims.deadline policy.seconds) values)
      .expired shown

/-- Department facts as they must be shown. -/
structure DepartmentShown (claims : UpstreamClaims) (mapping : Option DepartmentSnapshotClaim)
    (id : Uuid) (version : ℤ) (source : FactSource) (t : ℤ) (shown : DepartmentFacts) : Prop where
  notConfigured : claims.departmentSnapshot = .notConfigured → shown = .unavailable .notConfigured
  missing : claims.departmentSnapshot = .missing → shown = .unavailable .claimMissing
  invalid : claims.departmentSnapshot = .invalid → shown = .unavailable .invalidClaim
  present : ∀ snapshot, ∀ lifetime ∈ mapping, claims.departmentSnapshot = .present snapshot →
    FollowsWindow claims.issuedAt (claims.deadline lifetime.maxAgeSeconds) t
      (.unavailable .notYetValid)
      (.available source version id claims.issuedAt (claims.deadline lifetime.maxAgeSeconds) snapshot)
      .expired shown

/-- Decodable facts that are shown are structurally valid at that time. -/
theorem AuthenticationFacts.project_structurallyValid {shown : Groups}
    (hdecodable : facts.decodable = true) (h : facts.project source t = .ok shown) :
    shown.structurallyValidAt t = true := by
  unfold project at h
  simp only [decodable, Bool.and_eq_true, decide_eq_true_eq] at hdecodable
  obtain ⟨⟨hversion, -⟩, hgroupsValid⟩ := hdecodable
  cases hgroups : facts.groups with
  | unavailable reason =>
    simp only [hgroups, Except.ok.injEq] at h
    rw [← h]
    rfl
  | available id observedAt expiresAt values =>
    simp only [hgroups] at h hgroupsValid
    split at h
    · cases h
    · rename_i hacceptable
      split at h
      · cases h
        rfl
      · split at h
        · cases h
          rfl
        · cases h
          simp only [Groups.structurallyValidAt, Bool.and_eq_true, decide_eq_true_eq]
          simp only [Bool.and_eq_true] at hgroupsValid
          exact ⟨⟨⟨by omega, by simpa using hacceptable⟩, hgroupsValid.1⟩, hgroupsValid.2⟩

/-- Collected group facts are shown as they must be, at every later time. -/
theorem AuthenticationFacts.project_shown
    (h : collect claims version policy mapping groupsId departmentId now = .ok facts) (hle : now ≤ t)
    (hfits : isI64 t = true) : ∃ shown, facts.project source t = .ok shown ∧
      GroupsShown claims policy groupsId version source t shown := by
  obtain ⟨-, hversion, -⟩ := collect_eq_ok h
  obtain ⟨limit, department, hlimit, -, -, hgroups⟩ := collect_parts h
  obtain ⟨hacceptable, hexpires, -, rfl⟩ := factsExpiresAt_eq_ok hlimit
  have hlater := acceptableObservation_later hacceptable hle hfits
  cases hclaimed : claims.groups with
  | notConfigured =>
    rw [hclaimed] at hgroups
    refine ⟨_, by simp only [project, hgroups], fun _ => rfl, ?_, ?_⟩ <;> simp [hclaimed]
  | missing =>
    rw [hclaimed] at hgroups
    refine ⟨_, by simp only [project, hgroups], ?_, fun _ => rfl, ?_⟩ <;> simp [hclaimed]
  | present values =>
    rw [hclaimed] at hgroups
    refine ⟨_, project_eq hgroups hlater, by simp [hclaimed], by simp [hclaimed], ?_⟩
    intro values' hvalues
    rw [hclaimed, UpstreamGroups.present.injEq] at hvalues
    subst hvalues
    rw [hversion]
    exact FollowsWindow.of_phase (UpstreamClaims.deadline_window policy.valid hexpires).1 (by simp)
      (by simp) (by simp)

/-- Collected department facts are shown as they must be, at every later time. -/
theorem AuthenticationFacts.department_shown
    (h : collect claims version policy mapping groupsId departmentId now = .ok facts) (hle : now ≤ t)
    (hfits : isI64 t = true) : ∃ shown,
      facts.departmentSnapshot.facts source version t = .ok shown ∧
        DepartmentShown claims mapping departmentId version source t shown := by
  obtain ⟨limit, department, hlimit, hdepartment, hsame, -⟩ := collect_parts h
  obtain ⟨hacceptable, hexpires, -, rfl⟩ := factsExpiresAt_eq_ok hlimit
  have hlater := acceptableObservation_later hacceptable hle hfits
  rw [hsame]
  rcases DepartmentObservation.collect_eq_ok hdepartment with
    ⟨hclaimed, -, rfl⟩ | ⟨hclaimed, -, rfl⟩ | ⟨hclaimed, -, rfl⟩ |
      ⟨snapshot, lifetime, hclaimed, hmapping, -, rfl⟩
  · exact ⟨_, rfl, fun _ => rfl, by simp [hclaimed], by simp [hclaimed], by simp [hclaimed]⟩
  · exact ⟨_, rfl, by simp [hclaimed], fun _ => rfl, by simp [hclaimed], by simp [hclaimed]⟩
  · exact ⟨_, rfl, by simp [hclaimed], by simp [hclaimed], fun _ => rfl, by simp [hclaimed]⟩
  · refine ⟨_, DepartmentObservation.facts_eq hlater, by simp [hclaimed], by simp [hclaimed],
      by simp [hclaimed], ?_⟩
    intro snapshot' lifetime' hmem hpresent
    rw [hclaimed, UpstreamDepartmentSnapshot.present.injEq] at hpresent
    rw [hmapping, Option.mem_some_iff] at hmem
    subst hpresent hmem
    exact FollowsWindow.of_phase
      (UpstreamClaims.deadline_window lifetime.maxAge_valid hexpires).1 (by simp) (by simp) (by simp)

end Collected

/-- What holds of facts that were collected from claims: their document, what is shown of them at
every later time, and what their parts depend on. -/
structure FactsLifecycle (uuids : UuidFormat) (claims : UpstreamClaims) (policy : GroupFactsMaxAge)
    (mapping : Option DepartmentSnapshotClaim) (groupsId departmentId : Uuid) (version now : ℤ)
    (facts : AuthenticationFacts) : Prop where
  decodes : ∀ value, facts.encodeDocument uuids = .ok value →
    AuthenticationFacts.decodeDocument uuids value = .ok facts ∨ 32768 < facts.textSize uuids ∧
      AuthenticationFacts.decodeDocument uuids value =
        .ok { facts with departmentSnapshot := .unavailable .invalidClaim }
  tooLarge : ∀ e, facts.encodeDocument uuids = .error e → 32768 < AuthenticationFacts.textSize uuids
    { facts with departmentSnapshot := facts.departmentSnapshot.withheld }
  groupsDeadline : claims.issuedAt < claims.deadline policy.seconds ∧
    claims.deadline policy.seconds ≤ claims.issuedAt + 300
  departmentDeadline : ∀ lifetime ∈ mapping,
    claims.issuedAt < claims.deadline lifetime.maxAgeSeconds ∧
      claims.deadline lifetime.maxAgeSeconds ≤ claims.issuedAt + 300
  groups : ∀ source t, now ≤ t → isI64 t = true → ∃ shown, facts.project source t = .ok shown ∧
    shown.structurallyValidAt t = true ∧
      GroupsShown claims policy groupsId version source t shown
  department : ∀ source t, now ≤ t → isI64 t = true →
    ∃ shown, facts.departmentSnapshot.facts source version t = .ok shown ∧
      DepartmentShown claims mapping departmentId version source t shown
  groupsExpired : ∀ source t t', facts.project source t = .ok .expired → t ≤ t' →
    isI64 t' = true → facts.project source t' = .ok .expired
  departmentExpired : ∀ source t t', facts.departmentSnapshot.facts source version t = .ok .expired →
    t ≤ t' → isI64 t' = true → facts.departmentSnapshot.facts source version t' = .ok .expired
  groupsIndependent : ∀ (claims' : UpstreamClaims) mapping' departmentId' facts' source t,
    AuthenticationFacts.collect claims' version policy mapping' groupsId departmentId' now =
      .ok facts' →
    claims'.groups = claims.groups → claims'.issuedAt = claims.issuedAt →
    claims'.expiresAt = claims.expiresAt → facts'.project source t = facts.project source t
  departmentIndependent : ∀ (claims' : UpstreamClaims) policy' groupsId' facts' source t,
    AuthenticationFacts.collect claims' version policy' mapping groupsId' departmentId now =
      .ok facts' →
    claims'.departmentSnapshot = claims.departmentSnapshot → claims'.issuedAt = claims.issuedAt →
    claims'.expiresAt = claims.expiresAt →
    facts'.departmentSnapshot.facts source version t = facts.departmentSnapshot.facts source version t

section Lifecycle

variable {claims claims' : UpstreamClaims} {policy : GroupFactsMaxAge}
  {mapping : Option DepartmentSnapshotClaim} {groupsId departmentId : Uuid} {version now : ℤ}
  {facts facts' : AuthenticationFacts}

/-- Groups are collected from the groups claim and the two times alone. -/
theorem AuthenticationFacts.collect_groups
    (h : collect claims version policy mapping groupsId departmentId now = .ok facts) :
    facts.providerConfigVersion = version ∧
      facts.groups = claims.observedGroups policy groupsId := by
  obtain ⟨limit, department, hlimit, -, -, hgroups⟩ := collect_parts h
  obtain ⟨-, -, -, rfl⟩ := factsExpiresAt_eq_ok hlimit
  exact ⟨(collect_eq_ok h).2.1, hgroups⟩

/-- The department is collected from the department claim, its mapping and the two times alone. -/
theorem DepartmentObservation.collect_congr {department department' : DepartmentObservation}
    (h : collect claims mapping departmentId now = .ok department)
    (h' : collect claims' mapping departmentId now = .ok department')
    (hclaimed : claims'.departmentSnapshot = claims.departmentSnapshot)
    (hissued : claims'.issuedAt = claims.issuedAt) (hexpires : claims'.expiresAt = claims.expiresAt) :
    department' = department := by
  unfold collect at h h'
  rw [hclaimed, hissued, hexpires] at h'
  exact Except.ok.inj (h'.symm.trans h)

/-- The codec and the lifecycle of facts: whatever is collected and stored is decoded again, and is
shown by its windows at every later time. -/
theorem facts_lifecycle (uuids : UuidFormat) (hfits : claims.Fits) (hversion : isI64 version = true)
    (h : AuthenticationFacts.collect claims version policy mapping groupsId departmentId now =
      .ok facts) :
    FactsLifecycle uuids claims policy mapping groupsId departmentId version now facts := by
  have hdecodable := AuthenticationFacts.collect_decodable h
  have hfactsFit := AuthenticationFacts.collect_fits hfits hversion h
  obtain ⟨limit, department, hlimit, hdepartment, hsame, -⟩ := AuthenticationFacts.collect_parts h
  obtain ⟨-, hexpires, -, rfl⟩ := factsExpiresAt_eq_ok hlimit
  obtain ⟨hfactsVersion, hgroups⟩ := AuthenticationFacts.collect_groups h
  refine ⟨?_, ?_, UpstreamClaims.deadline_window policy.valid hexpires, ?_, ?_, ?_, ?_, ?_, ?_, ?_⟩
  · exact fun value hencode =>
      AuthenticationFacts.decodeDocument_of_encodeDocument uuids hfactsFit hdecodable hencode
  · intro e hencode
    rw [AuthenticationFacts.encodeDocument_eq] at hencode
    cases hkept : facts.encode (AuthenticationFacts.textSize uuids) with
    | error e => exact AuthenticationFacts.encode_error hkept
    | ok stored => simp [hkept, Except.map] at hencode
  · exact fun lifetime _ => UpstreamClaims.deadline_window lifetime.maxAge_valid hexpires
  · intro source t hle hrange
    obtain ⟨shown, hproject, hshown⟩ := AuthenticationFacts.project_shown h hle hrange
    exact ⟨shown, hproject, AuthenticationFacts.project_structurallyValid hdecodable hproject, hshown⟩
  · exact fun source t hle hrange => AuthenticationFacts.department_shown h hle hrange
  · exact fun source t t' hexpired hle hrange =>
      AuthenticationFacts.project_expired hexpired hle hrange
  · exact fun source t t' hexpired hle hrange =>
      DepartmentObservation.facts_expired hexpired hle hrange
  · intro claims' mapping' departmentId' facts' source t h' hclaimed hissued hexp
    obtain ⟨hfactsVersion', hgroups'⟩ := AuthenticationFacts.collect_groups h'
    have hobserved : claims'.observedGroups policy groupsId = claims.observedGroups policy groupsId := by
      simp only [UpstreamClaims.observedGroups, UpstreamClaims.deadline, hclaimed, hissued, hexp]
    simp only [AuthenticationFacts.project, hgroups, hgroups', hobserved, hfactsVersion, hfactsVersion']
  · intro claims' policy' groupsId' facts' source t h' hclaimed hissued hexp
    obtain ⟨-, department', -, hdepartment', hsame', -⟩ := AuthenticationFacts.collect_parts h'
    rw [hsame, hsame', DepartmentObservation.collect_congr hdepartment hdepartment' hclaimed hissued hexp]

end Lifecycle

section Login

/-- One department, and membership in it. -/
def staffDepartment : DepartmentSnapshot where
  sourceRevision := "r1"
  nodes := [⟨⟨"dept", by decide⟩, "Department", none, by decide⟩]
  memberships := [⟨"dept", by decide⟩]
  tree := by decide

/-- The claims of a login with groups and a department. -/
def staffClaims : UpstreamClaims where
  issuer := "https://idp.test"
  subject := .oidc "subject"
  profile := .absent
  groups := .present ["staff"]
  departmentSnapshot := .present staffDepartment
  issuedAt := 1000
  expiresAt := 1600
  assurance := ⟨some 1000, .unspecified, [.pwd], by decide, by decide, by decide⟩

/-- The claim that carries the department, for a minute. -/
def staffMapping : DepartmentSnapshotClaim := ⟨"organization_snapshot", 60, by decide, by decide⟩

/-- What is collected from that login. -/
def staffFacts : Except FederationError AuthenticationFacts :=
  AuthenticationFacts.collect staffClaims 1 ⟨300, validMaxAge_five_minutes⟩ (some staffMapping) (Uuid.newV4 0)
    (Uuid.newV4 1) 1000

/-- The facts of that login are stored, decoded and shown as they must be. -/
theorem staff_lifecycle : ∃ facts, staffFacts = .ok facts ∧
    FactsLifecycle .hyphenated staffClaims ⟨300, validMaxAge_five_minutes⟩ (some staffMapping) (Uuid.newV4 0)
      (Uuid.newV4 1) 1 1000 facts := by
  have hok : staffFacts.toOption.isSome = true := by decide
  cases hfacts : staffFacts with
  | error e => simp [hfacts, Except.toOption] at hok
  | ok facts =>
    exact ⟨facts, rfl,
      facts_lifecycle .hyphenated ⟨by decide, by decide, by decide⟩ (by decide) hfacts⟩

end Login

end IdentityAuthority
