import IdentityAuthority.Storage.Deadlines

/-!
# Expiry on the process's clock

Wherever something is handed out until a time of the database's clock, the process turns
the time into an instant of its own clock, from a reading it took after that instant's
anchor. Sessions, groups and departments use a sample; profiles, personnel windows and
upstream token proofs compute their own. Every access compares the process's clock with
the instant.
-/

namespace IdentityAuthority

/-- An instant is its nanoseconds. -/
theorem Instant.nanos_injective : Function.Injective Instant.nanos := by
  rintro ⟨m, _⟩ ⟨n, _⟩ rfl
  rfl

instance : LinearOrder Instant := LinearOrder.lift' Instant.nanos Instant.nanos_injective

theorem Instant.lt_iff {instant instant' : Instant} :
    instant < instant' ↔ instant.nanos < instant'.nanos := Iff.rfl

theorem Instant.le_iff {instant instant' : Instant} :
    instant ≤ instant' ↔ instant.nanos ≤ instant'.nanos := Iff.rfl

theorem Instant.min_nanos (instant instant' : Instant) :
    (min instant instant').nanos = min instant.nanos instant'.nanos := by
  by_cases h : instant ≤ instant'
  · rw [min_eq_left h, min_eq_left (Instant.le_iff.mp h)]
  · have hlt := lt_of_not_ge h
    rw [min_eq_right hlt.le, min_eq_right (Instant.lt_iff.mp hlt).le]

theorem Instant.checkedAdd_eq_some {instant next : Instant} {micros : ℤ} :
    instant.checkedAdd micros = some next ↔ next.nanos = instant.nanos + micros * 1000 := by
  unfold Instant.checkedAdd
  constructor
  · intro h
    split at h
    · cases h
      rfl
    · cases h
  · intro h
    have hfits := next.seconds_i64
    rw [h] at hfits
    rw [dif_pos hfits]
    exact congrArg some (Instant.nanos_injective h.symm)

/-- `i64::saturating_mul`. -/
def saturatingMul (m n : ℤ) : ℤ := max i64Min (min i64Max (m * n))

/-- `i64::checked_mul`. -/
def checkedMul (m n : ℤ) : Option ℤ := if isI64 (m * n) then some (m * n) else none

@[simp] theorem checkedMul_eq_some {m n k : ℤ} :
    checkedMul m n = some k ↔ isI64 (m * n) = true ∧ k = m * n := by
  unfold checkedMul
  split <;> simp [*, eq_comm]

/-- `Duration`. -/
structure Duration where
  secs : ℕ
  nanos : ℕ
  secs_u64 : secs < 2 ^ 64
  nanos_lt : nanos < 1000000000
deriving DecidableEq

namespace Duration

/-- `Duration::is_zero`. -/
def isZero (duration : Duration) : Bool := decide (duration.secs = 0 ∧ duration.nanos = 0)

/-- The whole duration in nanoseconds. -/
def total (duration : Duration) : ℤ := duration.secs * 1000000000 + duration.nanos

end Duration

namespace TimeSample

/-- `TimeSample::for_facts` without a controlled clock. -/
def forFacts (sample : TimeSample) : TimeSample :=
  { sample with micros := max sample.micros (saturatingMul sample.seconds 1000000) }

/-- `TimeSample::within_age`: the time is less than an age ago, at an instant. -/
def withinAge (sample : TimeSample) (authenticated : ℤ) (maxAge : Duration) (now : Instant) :
    Bool :=
  if maxAge.isZero then false
  else if isI64 maxAge.secs then
    match checkedAdd authenticated maxAge.secs with
    | some ending =>
      match sample.deadline ending with
      | .ok deadline => decide (now < deadline)
      | .error _ => false
    | none => false
  else false

end TimeSample

/-- Microseconds from a reading to a time in seconds, the last one given up, none if it is over. -/
def remainingMicros (ending micros : ℤ) : ℤ :=
  max 0 (saturatingSub (saturatingSub (saturatingMul ending 1000000) micros) 1)

/-- The deadline part of `read_profile`: whether a profile that ends is available at a reading, and
until when the answer may be used. -/
def profileExpiry (ending micros : ℤ) (sampled expires : Instant) :
    Except Failure (Bool × Instant) :=
  if ending ≤ micros.tdiv 1000000 then .ok (false, expires)
  else
    match sampled.checkedAdd (remainingMicros ending micros) with
    | some instant => .ok (true, min expires instant)
    | none => .error .corrupt

/-- The earlier of two boundaries, where there are any. -/
def earlierBoundary : Option ℤ → Option ℤ → Option ℤ
  | some a, some b => some (min a b)
  | some a, none => some a
  | none, b => b

/-- Until when `read_window` says its rows hold: the next boundary among sessions and profiles, the
department's, the actor's, and a minute at most. -/
def windowUntil (next department actorUntil : Option ℤ) (micros : ℤ) : ℤ :=
  min (min ((earlierBoundary next department).getD i64Max) (actorUntil.getD i64Max))
    (saturatingAdd (micros.tdiv 1000000) 60)

/-- The deadline part of `read_window`. -/
def windowExpiry (validUntil micros : ℤ) (sampled expires : Instant) : Except Failure Instant :=
  match sampled.checkedAdd (remainingMicros validUntil micros) with
  | some instant => .ok (min expires instant)
  | none => .error .rejected

/-- `proof_expiry`, with nothing where it panics: adding a duration to an instant does when there
is no such instant. -/
def proofExpiry (exp nowMs : ℤ) (sampled budget : Instant) : Option (Except Failure Instant) :=
  match checkedMul exp 1000 with
  | none => some (.error .rejected)
  | some millis =>
    match checkedSub millis nowMs with
    | none => some (.error .rejected)
    | some remaining =>
      if 0 < remaining then
        (sampled.checkedAdd (min (remaining * 1000) 10000000)).map fun instant =>
          .ok (min budget instant)
      else some (.error .rejected)

/-- A proof is live at an instant (`check_live`, `live`, `view`). -/
def live (expires now : Instant) : Bool := decide (now < expires)

/-- The deadline of a session proof (`checked_expiry`). -/
def sessionExpiry (sample : TimeSample) (idleExpiresAt : ℤ) (budget : Instant) :
    Except Failure Instant := do
  let expires ← sample.deadline idleExpiresAt
  .ok (min budget expires)

/-- Why trusted facts are not shown. -/
inductive FactAccessError
  | proofExpired
  | snapshotExpired
deriving DecidableEq, Repr

/-- Groups that are shown, with the deadlines of the proof and of the snapshot (`TrustedGroups`). -/
structure TrustedGroups where
  source : FactSource
  snapshotId : Uuid
  providerConfigVersion : ℤ
  observedAt : ℤ
  expiresAt : ℤ
  values : List String
  proof : Instant
  expires : Instant

/-- What a session shows of its groups. -/
inductive VerifiedGroups
  | available (groups : TrustedGroups)
  | unavailable (reason : FactUnavailableReason)
  | expired

/-- `GroupFacts::view_at`. -/
def Groups.viewAt (groups : Groups) (expires proof now : Instant) :
    Except FactAccessError VerifiedGroups :=
  if proof ≤ now then .error .proofExpired
  else
    match groups with
    | .unavailable reason => .ok (.unavailable reason)
    | .expired => .ok .expired
    | .available source snapshotId version observedAt expiresAt values =>
      if expires ≤ now then .ok .expired
      else .ok (.available
        { source, snapshotId, providerConfigVersion := version, observedAt, expiresAt, values, proof,
          expires })

/-- `TrustedGroups::values_at`. -/
def TrustedGroups.valuesAt (groups : TrustedGroups) (now : Instant) :
    Except FactAccessError (List String) :=
  if groups.proof ≤ now then .error .proofExpired
  else if groups.expires ≤ now then .error .snapshotExpired
  else .ok groups.values

/-- A department that is shown, with the deadlines of the proof and of the snapshot
(`TrustedDepartmentSnapshot`). -/
structure TrustedDepartment where
  source : FactSource
  providerConfigVersion : ℤ
  snapshotId : Uuid
  observedAt : ℤ
  expiresAt : ℤ
  snapshot : DepartmentSnapshot
  proof : Instant
  expires : Instant

/-- What a session shows of its department. -/
inductive VerifiedDepartment
  | available (department : TrustedDepartment)
  | unavailable (reason : DepartmentUnavailableReason)
  | expired

/-- `DepartmentFacts::view_at`; only available facts have an instant at which they end. -/
def DepartmentFacts.viewAt (department : DepartmentFacts) (expires : Option Instant)
    (proof now : Instant) : Except FactAccessError VerifiedDepartment :=
  if proof ≤ now then .error .proofExpired
  else
    match department, expires with
    | .unavailable reason, _ => .ok (.unavailable reason)
    | .available source version snapshotId observedAt expiresAt snapshot, some expires =>
      if expires ≤ now then .ok .expired
      else .ok (.available
        { source, providerConfigVersion := version, snapshotId, observedAt, expiresAt, snapshot,
          proof, expires })
    | _, _ => .ok .expired

/-- `TrustedDepartmentSnapshot::snapshot_at`. -/
def TrustedDepartment.snapshotAt (department : TrustedDepartment) (now : Instant) :
    Except FactAccessError DepartmentSnapshot :=
  if department.proof ≤ now then .error .proofExpired
  else if department.expires ≤ now then .error .snapshotExpired
  else .ok department.snapshot

section Bounds

variable {sample : TimeSample} {ending micros : ℤ}

/-- What remains never exceeds what truly remains, and fits the type it is converted to. -/
theorem remainingMicros_bounds (hmicros : isI64 micros = true) :
    0 ≤ remainingMicros ending micros ∧
      remainingMicros ending micros ≤ max 0 (ending * 1000000 - micros - 1) ∧
      remainingMicros ending micros ≤ i64Max := by
  have hrange := of_decide_eq_true hmicros
  unfold remainingMicros saturatingSub saturatingMul
  unfold i64Min i64Max at *
  omega

/-- The difference of a time and a reading is far inside an `i128`. -/
theorem difference_i128 (hending : isI64 ending = true) (hmicros : isI64 micros = true) :
    -(2 ^ 127) ≤ ending * 1000000 - micros - 1 ∧ ending * 1000000 - micros - 1 < 2 ^ 127 := by
  have hfirst := of_decide_eq_true hending
  have hsecond := of_decide_eq_true hmicros
  unfold i64Min i64Max at hfirst hsecond
  omega

/-- Without a controlled clock facts are judged at the sample itself. -/
theorem forFacts_eq (hpos : 0 < sample.micros) (hmicros : isI64 sample.micros = true) :
    sample.forFacts = sample := by
  have hrange := of_decide_eq_true hmicros
  have hfloor : saturatingMul sample.seconds 1000000 ≤ sample.micros := by
    unfold saturatingMul TimeSample.seconds IdentityAuthority.seconds
    unfold i64Min i64Max at *
    omega
  unfold TimeSample.forFacts
  rw [max_eq_left hfloor]

/-- A deadline lies where the sample puts it. -/
theorem TimeSample.deadline_nanos {seconds : ℤ} {deadline : Instant}
    (h : sample.deadline seconds = .ok deadline) :
    deadline.nanos = sample.started.nanos + max 0 (seconds * 1000000 - sample.micros - 1) * 1000 := by
  unfold TimeSample.deadline at h
  split at h
  · cases h
  · dsimp only at h
    split at h
    · rename_i hover
      cases h
      rw [max_eq_left hover]
      omega
    · rename_i hover
      split at h
      · split at h
        · rename_i instant hadd
          cases h
          rw [Instant.checkedAdd_eq_some.mp hadd, max_eq_right (by omega)]
        · cases h
      · cases h

end Bounds

end IdentityAuthority
