import IdentityAuthority.Storage.Sessions

/-!
# Deadlines of a loaded session

The reading a session is judged at is anchored at an instant of the process. What is loaded
carries the instants at which it ends: the session, its groups and its department. A time that is
too far ahead has no instant, and the session is refused.
-/

namespace IdentityAuthority

open Relational

/-- An instant of the process's own clock, in nanoseconds; its seconds are an `i64`. -/
structure Instant where
  nanos : ℤ
  seconds_i64 : isI64 (nanos / 1000000000) = true
deriving DecidableEq

/-- `Instant::checked_add` of a duration in microseconds. -/
def Instant.checkedAdd (instant : Instant) (micros : ℤ) : Option Instant :=
  if h : isI64 ((instant.nanos + micros * 1000) / 1000000000) = true then some ⟨_, h⟩ else none

/-- The instant is not within `10^12` seconds of the last one. -/
def Instant.HasRoom (instant : Instant) : Prop :=
  instant.nanos / 1000000000 + 1000000000000 ≤ i64Max

/-- A reading of the database's clock, and an instant before it. -/
structure TimeSample where
  started : Instant
  micros : ℤ

namespace TimeSample

/-- Whole seconds of the reading. -/
def seconds (sample : TimeSample) : ℤ := IdentityAuthority.seconds sample.micros

/-- The instant of a time in seconds; a time that is over is the start of the sample. -/
def deadline (sample : TimeSample) (seconds : ℤ) : Except Failure Instant :=
  if seconds ≤ 0 then .error .corrupt
  else
    -- The reading is floored to microseconds, so the last one is given up.
    let remaining := seconds * 1000000 - sample.micros - 1
    if remaining ≤ 0 then .ok sample.started
    else if remaining < 2 ^ 64 then
      match sample.started.checkedAdd remaining with
      | some instant => .ok instant
      | none => .error .corrupt
    else .error .corrupt

variable {sample : TimeSample}

/-- A time at most `10^12` seconds ahead has a deadline. -/
theorem deadline_succeeds {seconds : ℤ} (hroom : sample.started.HasRoom) (hpos : 0 < seconds)
    (hahead : seconds ≤ sample.seconds + 1000000000000) :
    ∃ instant, sample.deadline seconds = .ok instant := by
  have hstarted := of_decide_eq_true sample.started.seconds_i64
  unfold Instant.HasRoom i64Max at hroom
  unfold TimeSample.seconds IdentityAuthority.seconds at hahead
  unfold i64Min i64Max at hstarted
  have hremaining : seconds * 1000000 - sample.micros - 1 < 1000000000000000000 := by omega
  unfold deadline
  rw [if_neg (by omega)]
  by_cases hover : seconds * 1000000 - sample.micros - 1 ≤ 0
  · exact ⟨_, if_pos hover⟩
  · simp only [if_neg hover]
    rw [if_pos (by omega)]
    have hfits : isI64 ((sample.started.nanos + (seconds * 1000000 - sample.micros - 1) * 1000) /
        1000000000) = true := by
      apply decide_eq_true
      unfold i64Min i64Max
      omega
    refine ⟨⟨_, hfits⟩, ?_⟩
    rw [Instant.checkedAdd, dif_pos hfits]

end TimeSample

/-- When the groups of a session end (`GroupFacts::new`). -/
def Groups.deadline (groups : Groups) (sample : TimeSample) : Except Failure Instant :=
  match groups with
  | .available _ _ _ _ expiresAt _ => sample.deadline expiresAt
  | _ => .ok sample.started

/-- When the department of a session ends, where it has one (`DepartmentFacts::new`). -/
def DepartmentFacts.deadline (department : DepartmentFacts) (sample : TimeSample) :
    Except Failure (Option Instant) :=
  match department with
  | .available _ _ _ _ expiresAt _ =>
    match sample.deadline expiresAt with
    | .ok instant => .ok (some instant)
    | .error e => .error e
  | _ => .ok none

/-- The instants at which a loaded session and its facts end. -/
structure Deadlines where
  department : Option Instant
  groups : Instant
  expires : Instant

/-- The deadlines of a loaded session, at the reading it was loaded at. -/
def Loaded.deadlines (loaded : Loaded) (started : Instant) : Except Failure Deadlines := do
  let sample : TimeSample := ⟨started, loaded.micros⟩
  let department ← loaded.departmentSnapshot.deadline sample
  let groups ← loaded.groups.deadline sample
  let expires ← sample.deadline loaded.lifetime.idleExpiresAt
  .ok { department, groups, expires }

/-- `by_id` with the deadlines of what it loads. -/
def timedById (env : Env) (key : AccountKey) (sid : SessionId) (checks : Option PlatformVerifier)
    (started : Instant) : Action (Loaded × Deadlines) := do
  let loaded ← byId env key sid checks
  let deadlines ← Tx.ofExcept (loaded.deadlines started)
  pure (loaded, deadlines)

/-- `touch` with the deadline of the renewed session. -/
def timedTouch (loaded : Loaded) (started : Instant) : Action (Loaded × Instant) := do
  let touched ← touch loaded
  let expires ← Tx.ofExcept
    ((⟨started, loaded.micros⟩ : TimeSample).deadline touched.lifetime.idleExpiresAt)
  pure (touched, expires)

/-- Authentication facts that a time does not refuse: nothing was observed more than the skew after
it. -/
structure AuthenticationFacts.Timely (facts : AuthenticationFacts) (now : ℤ) : Prop where
  authTime : ∀ t ∈ facts.assurance.authTime, t ≤ now + maxFutureSkewSeconds
  groups : ∀ id observedAt expiresAt values,
    facts.groups = .available id observedAt expiresAt values →
      observedAt ≤ now + maxFutureSkewSeconds
  department : ∀ id observedAt expiresAt snapshot,
    facts.departmentSnapshot = .available id observedAt expiresAt snapshot →
      observedAt ≤ now + maxFutureSkewSeconds

namespace AuthenticationFacts

variable {facts stored : AuthenticationFacts} {now now' : ℤ}

/-- What a time does not refuse, no later one does. -/
theorem Timely.mono (h : facts.Timely now) (hnow : now ≤ now') : facts.Timely now' where
  authTime t ht := (h.authTime t ht).trans (by omega)
  groups id observed expires values hgroups :=
    (h.groups id observed expires values hgroups).trans (by omega)
  department id observed expires snapshot hdepartment :=
    (h.department id observed expires snapshot hdepartment).trans (by omega)

/-- Encoding withholds at most the department. -/
theorem Timely.encode {size : AuthenticationFacts → ℕ} (h : facts.Timely now)
    (hencode : facts.encode size = .ok stored) : stored.Timely now := by
  obtain ⟨-, hassurance, hgroups, hdepartment⟩ := encode_eq_ok hencode
  refine ⟨?_, ?_, ?_⟩
  · rw [hassurance]
    exact h.authTime
  · rw [hgroups]
    exact h.groups
  · intro id observed expires snapshot havailable
    rcases hdepartment with hsame | hwithheld
    · exact h.department id observed expires snapshot (hsame.symm.trans havailable)
    · rw [hwithheld] at havailable
      cases havailable

/-- A deadline is given only to what was observed in time. -/
theorem observed_le_of_expiresAt {maxAge issuedAt expiresAt deadline : ℤ}
    (h : factsExpiresAt maxAge issuedAt expiresAt now = .ok deadline) :
    issuedAt ≤ now + maxFutureSkewSeconds := by
  unfold factsExpiresAt at h
  split at h
  · rename_i hacceptable
    simp only [acceptableObservation, Bool.and_eq_true, decide_eq_true_eq] at hacceptable
    omega
  · cases h

/-- A department is collected only if it was observed in time. -/
theorem observed_le_of_collect {claims : UpstreamClaims} {mapping : Option DepartmentSnapshotClaim}
    {drawn id : Uuid} {observedAt expiresAt : ℤ} {snapshot : DepartmentSnapshot}
    (h : DepartmentObservation.collect claims mapping drawn now =
      .ok (.available id observedAt expiresAt snapshot)) :
    observedAt ≤ now + maxFutureSkewSeconds := by
  unfold DepartmentObservation.collect at h
  split at h
  · cases h
  · cases h
  · cases h
  · rename_i snapshot mapping _
    cases hdeadline : factsExpiresAt mapping.maxAgeSeconds claims.issuedAt claims.expiresAt now with
    | error e => simp [hdeadline] at h
    | ok deadline =>
      simp only [hdeadline] at h
      cases h
      exact observed_le_of_expiresAt hdeadline
  · cases h

/-- Facts that are collected are in time where the assurance is accepted. -/
theorem collect_timely {claims : UpstreamClaims} {version started : ℤ} {policy : GroupFactsMaxAge}
    {mapping : Option DepartmentSnapshotClaim} {groupsId departmentId : Uuid}
    {mode : AuthenticationMode} (haccepted : claims.assurance.accepted mode started now = true)
    (h : collect claims version policy mapping groupsId departmentId now = .ok facts) :
    facts.Timely now := by
  have hassurance := of_decide_eq_true haccepted
  have hsame := (collect_eq_ok h).2.2
  unfold collect at h
  split at h
  · cases h
  · simp only [bind, Except.bind] at h
    cases hdeadline : factsExpiresAt policy.seconds claims.issuedAt claims.expiresAt now with
    | error e => simp [hdeadline] at h
    | ok deadline =>
      have hobserved := observed_le_of_expiresAt hdeadline
      simp only [hdeadline] at h
      split at h
      · cases h
      · cases hdepartment : DepartmentObservation.collect claims mapping departmentId now with
        | error e => simp [hdepartment] at h
        | ok department =>
          simp only [hdepartment] at h
          cases h
          refine ⟨fun t ht => ?_, fun id observed expires values hgroups => ?_,
            fun id observed expires snapshot hsnapshot => ?_⟩
          · have hle := hassurance.2.2.1 t ht
            unfold saturatingAdd i64Min i64Max at hle
            unfold maxFutureSkewSeconds
            omega
          · simp only at hgroups
            split at hgroups <;> cases hgroups
            exact hobserved
          · exact observed_le_of_collect (hdepartment.trans (congrArg _ hsnapshot))

/-- An observation in a stored window is acceptable at any time it is not too far ahead of. -/
theorem acceptable_of_window {observedAt expiresAt : ℤ}
    (hwindow : validSnapshotWindow observedAt expiresAt = true)
    (hobserved : observedAt ≤ now + maxFutureSkewSeconds) (hpos : 0 < now) (hmax : now ≤ i64Max) :
    acceptableObservation observedAt now = true := by
  simp only [validSnapshotWindow, Bool.and_eq_true, decide_eq_true_eq] at hwindow
  have hafter := hwindow.1.1
  have hskew : observedAt - now ≤ maxFutureSkewSeconds := by omega
  have hfits : isI64 (observedAt - now) = true := by
    apply decide_eq_true
    unfold i64Min
    unfold i64Max at hmax ⊢
    unfold maxFutureSkewSeconds at hskew
    omega
  simp only [acceptableObservation, Bool.and_eq_true, decide_eq_true_eq]
  exact ⟨⟨⟨hafter, hpos⟩, hfits⟩, hskew⟩

/-- A window ends soon after it was observed. -/
theorem expiresAt_of_window {observedAt expiresAt : ℤ}
    (hwindow : validSnapshotWindow observedAt expiresAt = true) :
    0 < expiresAt ∧ expiresAt ≤ observedAt + maxTtlSeconds := by
  simp only [validSnapshotWindow, Bool.and_eq_true, decide_eq_true_eq] at hwindow
  have hpos := hwindow.1.1
  have hage := of_decide_eq_true hwindow.2
  unfold minTtlSeconds at hage
  omega

variable {sample : TimeSample}

/-- The groups of stored facts can be shown at any time that does not refuse the facts. -/
theorem project_succeeds (hdecodable : facts.decodable = true) (h : facts.Timely now)
    (hpos : 0 < now) (hmax : now ≤ i64Max) (hroom : sample.started.HasRoom)
    (hsample : sample.seconds = now) (source : FactSource) :
    ∃ groups, facts.project source now = .ok groups ∧ groups.structurallyValidAt now = true ∧
      ∃ instant, groups.deadline sample = .ok instant := by
  simp only [decodable, Bool.and_eq_true, decide_eq_true_eq] at hdecodable
  obtain ⟨⟨hversion, -⟩, hstored⟩ := hdecodable
  unfold project
  cases hgroups : facts.groups with
  | unavailable reason => exact ⟨_, rfl, rfl, _, rfl⟩
  | available id observed expires values =>
    simp only [hgroups, Bool.and_eq_true] at hstored ⊢
    obtain ⟨hwindow, hcanonical⟩ := hstored
    have hobserved := h.groups id observed expires values hgroups
    have hacceptable := acceptable_of_window hwindow hobserved hpos hmax
    obtain ⟨hexpires, hsoon⟩ := expiresAt_of_window hwindow
    rw [if_neg (by simp [hacceptable])]
    by_cases hearly : now < observed
    · rw [if_pos hearly]
      exact ⟨_, rfl, rfl, _, rfl⟩
    · rw [if_neg hearly]
      by_cases hover : expires ≤ now
      · rw [if_pos hover]
        exact ⟨_, rfl, rfl, _, rfl⟩
      · rw [if_neg hover]
        refine ⟨_, rfl, ?_, sample.deadline_succeeds hroom hexpires ?_⟩
        · simp only [Groups.structurallyValidAt, Bool.and_eq_true, decide_eq_true_eq]
          exact ⟨⟨⟨by omega, hacceptable⟩, hwindow⟩, hcanonical⟩
        · unfold maxTtlSeconds at hsoon
          omega

/-- So can the department. -/
theorem department_succeeds (hdecodable : facts.decodable = true) (h : facts.Timely now)
    (hpos : 0 < now) (hmax : now ≤ i64Max) (hroom : sample.started.HasRoom)
    (hsample : sample.seconds = now) (source : FactSource) (version : ℤ) :
    ∃ department, facts.departmentSnapshot.facts source version now = .ok department ∧
      ∃ instant, department.deadline sample = .ok instant := by
  simp only [decodable, Bool.and_eq_true, decide_eq_true_eq] at hdecodable
  have hvalid := hdecodable.1.2
  unfold DepartmentObservation.facts
  cases hdepartment : facts.departmentSnapshot with
  | unavailable reason => exact ⟨_, rfl, _, rfl⟩
  | available id observed expires snapshot =>
    rw [hdepartment] at hvalid
    have hwindow : validSnapshotWindow observed expires = true := hvalid
    have hobserved := h.department id observed expires snapshot hdepartment
    have hacceptable := acceptable_of_window hwindow hobserved hpos hmax
    obtain ⟨hexpires, hsoon⟩ := expiresAt_of_window hwindow
    simp only
    rw [if_neg (by simp [hacceptable])]
    by_cases hearly : now < observed
    · rw [if_pos hearly]
      exact ⟨_, rfl, _, rfl⟩
    · rw [if_neg hearly]
      by_cases hover : expires ≤ now
      · rw [if_pos hover]
        exact ⟨_, rfl, _, rfl⟩
      · rw [if_neg hover]
        obtain ⟨instant, hinstant⟩ : ∃ instant, sample.deadline expires = .ok instant := by
          apply sample.deadline_succeeds hroom hexpires
          unfold maxTtlSeconds at hsoon
          omega
        refine ⟨_, rfl, some instant, ?_⟩
        simp only [DepartmentFacts.deadline, hinstant]

/-- The assurance of facts is accepted for a session at any time that does not refuse them. -/
theorem login_accepted {started : ℤ} (h : facts.Timely now) (hstarted : 0 < started)
    (hnow : started ≤ now) (hmax : now + maxFutureSkewSeconds ≤ i64Max) :
    facts.assurance.accepted .login started now = true := by
  apply decide_eq_true
  refine ⟨hstarted, hnow, fun t ht => ?_, by simp, by simp⟩
  have htime := h.authTime t ht
  unfold maxFutureSkewSeconds at htime hmax
  unfold saturatingAdd
  omega

end AuthenticationFacts

end IdentityAuthority
