import IdentityAuthority.Storage.Expiry
import IdentityAuthority.Operations.ProfileReads

/-!
# Deadlines against the wall clock

The process's clock and the database's advance together, at a fixed distance that nobody
knows. A deadline of the process is computed from one reading of the database's clock,
which comes back at any time after its anchor. Before the deadline the database's clock
must not have reached the time the deadline stands for.

A time stamp of the database has whole microseconds. Four of the five computations give up
the microsecond that the reading may have lost. The proof of an upstream token rounds the
stamp up to a millisecond instead, which adds nothing where the stamp is a whole one.
-/

namespace IdentityAuthority

/-- The distance of the database's clock from the process's, in nanoseconds. -/
structure Clocks where
  offset : ℝ

namespace Clocks

/-- The database's clock at a time of the process's. -/
def database (clocks : Clocks) (m : ℝ) : ℝ := m + clocks.offset

/-- The time stamp that `clock_timestamp()` gives, in whole microseconds. -/
noncomputable def timestamp (clocks : Clocks) (m : ℝ) : ℤ := ⌊clocks.database m / 1000⌋

/-- The database's clock has not reached a time in seconds. -/
def Before (clocks : Clocks) (m : ℝ) (seconds : ℤ) : Prop :=
  clocks.database m < seconds * 1000000000

end Clocks

/-- The process's clock shows an instant: it counts whole nanoseconds. -/
def Instant.Shown (now : Instant) (m : ℝ) : Prop := (now.nanos : ℝ) ≤ m ∧ m < now.nanos + 1

/-- A reading of the database's clock, at any time after the anchor that was shown before it. -/
structure Query where
  clocks : Clocks
  started : Instant
  answered : ℝ
  after : (started.nanos : ℝ) ≤ answered
  bigint : isI64 (clocks.timestamp answered) = true

namespace Query

variable {q : Query} {m : ℝ} {seconds : ℤ}

/-- `floor(extract(epoch FROM clock_timestamp()) * 1000000)::bigint`. -/
noncomputable def micros (q : Query) : ℤ := q.clocks.timestamp q.answered

/-- `ceil(extract(epoch FROM clock_timestamp()) * 1000)::bigint`. -/
noncomputable def millis (q : Query) : ℤ := -(-q.micros / 1000)

/-- The reading as a sample. -/
noncomputable def sample (q : Query) : TimeSample := ⟨q.started, q.micros⟩

/-- When a deadline from the reading can be asked for a time: since the anchor, and before it too
where the reading found the time still ahead. -/
def Consultable (q : Query) (m : ℝ) (seconds : ℤ) : Prop :=
  (q.started.nanos : ℝ) ≤ m ∨ q.micros < seconds * 1000000

/-- At the anchor the database's clock is at most in the microsecond of the reading. -/
theorem database_started (q : Query) :
    q.clocks.database q.started.nanos < (q.micros + 1) * 1000 := by
  have hfloor := Int.lt_floor_add_one (q.clocks.database q.answered / 1000)
  have hafter := q.after
  unfold micros Clocks.timestamp Clocks.database at *
  linarith

/-- Before an instant that gives the last microsecond up, the time is not reached. -/
theorem before_of_lt
    (hm : m < q.started.nanos + (max 0 (seconds * 1000000 - q.micros - 1) : ℤ) * 1000)
    (hconsultable : q.Consultable m seconds) : q.clocks.Before m seconds := by
  have hstarted := q.database_started
  by_cases hahead : 0 ≤ seconds * 1000000 - q.micros - 1
  · rw [max_eq_right hahead] at hm
    push_cast at hm
    unfold Clocks.Before
    unfold Clocks.database at *
    linarith
  · rw [max_eq_left (by omega)] at hm
    push_cast at hm
    rcases hconsultable with hsince | hfuture
    · linarith
    · omega

/-- What is shown before an instant is before it. -/
theorem lt_of_shown {now deadline : Instant} (hnow : now < deadline) (hshown : now.Shown m) :
    m < deadline.nanos := by
  have hle : now.nanos + 1 ≤ deadline.nanos := Instant.lt_iff.mp hnow
  have hcast : (now.nanos : ℝ) + 1 ≤ deadline.nanos := by exact_mod_cast hle
  have hlast := hshown.2
  linarith

/-- An instant shown since the anchor can be asked with. -/
theorem consultable_of_shown {now : Instant} (hsince : q.started ≤ now) (hshown : now.Shown m) :
    q.Consultable m seconds := by
  have hcast : (q.started.nanos : ℝ) ≤ now.nanos := by exact_mod_cast Instant.le_iff.mp hsince
  exact .inl (hcast.trans hshown.1)

/-- Before a deadline of the sample its time is not reached. -/
theorem before_deadline {deadline : Instant} (h : q.sample.deadline seconds = .ok deadline)
    (hm : m < deadline.nanos) (hconsultable : q.Consultable m seconds) :
    q.clocks.Before m seconds := by
  refine before_of_lt ?_ hconsultable
  rw [TimeSample.deadline_nanos h] at hm
  push_cast at hm ⊢
  exact hm

/-- Before an instant by the saturating computation its time is not reached. -/
theorem before_remaining {instant : Instant}
    (h : q.started.checkedAdd (remainingMicros seconds q.micros) = some instant)
    (hm : m < instant.nanos) (hconsultable : q.Consultable m seconds) :
    q.clocks.Before m seconds := by
  refine before_of_lt ?_ hconsultable
  have hle := (@remainingMicros_bounds seconds _ q.bigint).2.1
  have hcast : ((remainingMicros seconds q.micros : ℤ) : ℝ) ≤
      (max 0 (seconds * 1000000 - q.micros - 1) : ℤ) := by exact_mod_cast hle
  rw [Instant.checkedAdd_eq_some.mp h] at hm
  push_cast at hm hcast ⊢
  linarith

/-- The token's time is no time at all, or none after the reading. -/
def Rejects (q : Query) (exp : ℤ) : Prop :=
  isI64 (exp * 1000) = false ∨ isI64 (exp * 1000 - q.millis) = false ∨ exp * 1000 - q.millis ≤ 0

/-- The instant that the proof of a token adds up to exists. -/
def Representable (q : Query) (exp : ℤ) : Prop :=
  ∃ instant, q.started.checkedAdd (min ((exp * 1000 - q.millis) * 1000) 10000000) = some instant

/-- What keeps the proof of a token inside its time: the budget, ten seconds, or a reading that is
not behind the database's clock at the anchor. -/
def Bounded (q : Query) (exp : ℤ) (budget : Instant) : Prop :=
  q.clocks.database budget.nanos ≤ exp * 1000000000 ∨
    q.clocks.database q.started.nanos + 10000000000 ≤ exp * 1000000000 ∨
      q.clocks.database q.started.nanos ≤ q.millis * 1000000

theorem proofExpiry_of_rejects {exp : ℤ} {budget : Instant} (h : q.Rejects exp) :
    proofExpiry exp q.millis q.started budget = some (.error .rejected) := by
  unfold proofExpiry
  cases hmillis : checkedMul exp 1000 with
  | none => rfl
  | some millis =>
    obtain ⟨hfits, rfl⟩ := checkedMul_eq_some.mp hmillis
    dsimp only
    cases hremaining : checkedSub (exp * 1000) q.millis with
    | none => rfl
    | some remaining =>
      obtain ⟨hfits', rfl⟩ := checkedSub_eq_some.mp hremaining
      dsimp only
      rcases h with h | h | h
      · exact absurd (h.symm.trans hfits) (by decide)
      · exact absurd (h.symm.trans hfits') (by decide)
      · rw [if_neg (by omega)]

theorem proofExpiry_of_not_rejects {exp : ℤ} {budget : Instant} (h : ¬ q.Rejects exp) :
    proofExpiry exp q.millis q.started budget =
      (q.started.checkedAdd (min ((exp * 1000 - q.millis) * 1000) 10000000)).map fun instant =>
        .ok (min budget instant) := by
  unfold Rejects at h
  simp only [not_or, Bool.not_eq_false, not_le] at h
  obtain ⟨hmillis, hremaining, hpos⟩ := h
  unfold proofExpiry
  rw [checkedMul_eq_some.mpr ⟨hmillis, rfl⟩]
  dsimp only
  rw [checkedSub_eq_some.mpr ⟨hremaining, rfl⟩]
  dsimp only
  rw [if_pos hpos]

/-- The instant a proof ends at, in nanoseconds. -/
theorem proof_nanos {exp : ℤ} {budget instant : Instant}
    (h : q.started.checkedAdd (min ((exp * 1000 - q.millis) * 1000) 10000000) = some instant) :
    ((min budget instant).nanos : ℝ) = min (budget.nanos : ℝ)
      (q.started.nanos + min (((exp : ℝ) * 1000 - q.millis) * 1000000) 10000000000) := by
  have hnanos := Instant.checkedAdd_eq_some.mp h
  have hscaled : min ((exp * 1000 - q.millis) * 1000) 10000000 * 1000 =
      min ((exp * 1000 - q.millis) * 1000000) 10000000000 := by omega
  rw [Instant.min_nanos, hnanos, hscaled]
  push_cast
  rfl

/-- Before a proof ends its token's time is not reached, exactly where something bounds it. -/
theorem before_proof_iff {exp : ℤ} {budget instant : Instant}
    (h : q.started.checkedAdd (min ((exp * 1000 - q.millis) * 1000) 10000000) = some instant) :
    (∀ m : ℝ, m < (min budget instant).nanos → q.clocks.Before m exp) ↔ q.Bounded exp budget := by
  have hends : (∀ m : ℝ, m < (min budget instant).nanos → q.clocks.Before m exp) ↔
      q.clocks.database (min budget instant).nanos ≤ exp * 1000000000 := by
    unfold Clocks.Before Clocks.database
    constructor
    · intro hbefore
      refine le_of_forall_lt fun x hx => ?_
      have hx' := hbefore (x - q.clocks.offset) (by linarith)
      linarith
    · intro hle m hm
      linarith
  rw [hends, proof_nanos h]
  unfold Bounded Clocks.database
  rcases min_choice (budget.nanos : ℝ)
      (q.started.nanos + min (((exp : ℝ) * 1000 - q.millis) * 1000000) 10000000000) with
    hmin | hmin
  · rw [hmin]
    have hle := min_eq_left_iff.mp hmin
    constructor
    · exact fun hbudget => .inl hbudget
    · rintro (hbudget | hten | hreading)
      · exact hbudget
      · have hcap := min_le_right (((exp : ℝ) * 1000 - q.millis) * 1000000) 10000000000
        linarith
      · have hrest := min_le_left (((exp : ℝ) * 1000 - q.millis) * 1000000) 10000000000
        linarith
  · rw [hmin]
    have hle := min_eq_right_iff.mp hmin
    constructor
    · intro hends
      rcases min_choice (((exp : ℝ) * 1000 - q.millis) * 1000000) 10000000000 with hrest | hrest
      · rw [hrest] at hends
        exact .inr (.inr (by linarith))
      · rw [hrest] at hends
        exact .inr (.inl (by linarith))
    · rintro (hbudget | hten | hreading)
      · linarith
      · have hcap := min_le_right (((exp : ℝ) * 1000 - q.millis) * 1000000) 10000000000
        linarith
      · have hrest := min_le_left (((exp : ℝ) * 1000 - q.millis) * 1000000) 10000000000
        linarith

/-- A reading that takes a microsecond bounds the proof of every token. -/
theorem bounded_of_latency (hlatency : q.started.nanos + 1000 ≤ q.answered) (exp : ℤ)
    (budget : Instant) : q.Bounded exp budget := by
  have hfloor := Int.lt_floor_add_one (q.clocks.database q.answered / 1000)
  have hceil : q.micros ≤ q.millis * 1000 := by
    unfold millis
    omega
  have hcast : (q.micros : ℝ) ≤ q.millis * 1000 := by exact_mod_cast hceil
  refine .inr (.inr ?_)
  unfold micros Clocks.timestamp Clocks.database at *
  linarith

end Query

/-- What the deadlines of a reading keep: nothing is honoured once its time is reached, and no
computation wraps or panics. -/
structure NeverOutlives (q : Query) (exp : ℤ) (budget : Instant) : Prop where
  /-- `TimeSample::deadline`. -/
  sample : ∀ seconds deadline, q.sample.deadline seconds = .ok deadline →
    ∀ m : ℝ, m < deadline.nanos → q.Consultable m seconds → q.clocks.Before m seconds
  /-- A session proof is live only before the idle expiry. -/
  session : ∀ idleExpiresAt budget expires now m,
    sessionExpiry q.sample idleExpiresAt budget = .ok expires → live expires now = true →
      q.started ≤ now → now.Shown m → q.clocks.Before m idleExpiresAt
  /-- Groups are shown, and their values given, only before the snapshot expires. -/
  groups : ∀ (groups : Groups) expires proof now shown, groups.deadline q.sample = .ok expires →
    groups.viewAt expires proof now = .ok (.available shown) → q.started ≤ now →
      (∀ m, now.Shown m → q.clocks.Before m shown.expiresAt) ∧
        ∀ later values m, shown.valuesAt later = .ok values → q.started ≤ later → later.Shown m →
          q.clocks.Before m shown.expiresAt
  /-- So is a department. -/
  department : ∀ (department : DepartmentFacts) expires proof now shown,
    department.deadline q.sample = .ok expires →
      department.viewAt expires proof now = .ok (.available shown) → q.started ≤ now →
        (∀ m, now.Shown m → q.clocks.Before m shown.expiresAt) ∧
          ∀ later snapshot m, shown.snapshotAt later = .ok snapshot → q.started ≤ later →
            later.Shown m → q.clocks.Before m shown.expiresAt
  /-- An authentication is recent only before its age is over. -/
  recent : ∀ authenticated maxAge now m,
    q.sample.withinAge authenticated maxAge now = true → q.started ≤ now → now.Shown m →
      q.clocks.database m < authenticated * 1000000000 + maxAge.total
  /-- `read_profile`: an available profile is used only before it ends. -/
  profile : ∀ (row : ProfileObservationRow) absolute limits expires deadline,
    profileExpiry (row.deadline absolute limits) q.micros q.started expires =
        .ok (true, deadline) →
      ∀ m : ℝ, m < deadline.nanos → q.clocks.Before m (row.deadline absolute limits)
  /-- `read_window`: a window is used only before its rows change with time. -/
  window : ∀ next department actorUntil expires deadline,
    windowExpiry (windowUntil next department actorUntil q.micros) q.micros q.started expires =
        .ok deadline →
      ∀ m : ℝ, m < deadline.nanos →
        q.Consultable m (windowUntil next department actorUntil q.micros) →
          q.clocks.Before m (windowUntil next department actorUntil q.micros)
  /-- `proof_expiry`: the proof of a token is live only before the token expires. -/
  proof : ∀ deadline, proofExpiry exp q.millis q.started budget = some (.ok deadline) →
    ∀ m : ℝ, m < deadline.nanos → q.clocks.Before m exp
  /-- Adding to the anchor does not panic. -/
  panics : proofExpiry exp q.millis q.started budget ≠ none
  /-- No intermediate result leaves its type. -/
  wraps : ∀ seconds, isI64 seconds = true →
    (-(2 ^ 127) ≤ seconds * 1000000 - q.micros - 1 ∧ seconds * 1000000 - q.micros - 1 < 2 ^ 127) ∧
      0 ≤ remainingMicros seconds q.micros ∧ remainingMicros seconds q.micros ≤ i64Max

section Honoured

variable {q : Query} {m : ℝ} {now : Instant}

/-- Whole seconds, rounded towards zero, are the last whole ones at least. -/
theorem lt_tdiv_add_one (micros : ℤ) : micros < (micros.tdiv 1000000 + 1) * 1000000 := by
  rcases le_or_gt 0 micros with hpos | hneg
  · rw [Int.tdiv_eq_ediv_of_nonneg hpos]
    omega
  · have hdiv : micros.tdiv 1000000 = -(-micros / 1000000) := by
      rw [← Int.tdiv_eq_ediv_of_nonneg (by omega : 0 ≤ -micros), Int.neg_tdiv, neg_neg]
    omega

/-- A session proof. -/
theorem Query.before_session {idleExpiresAt : ℤ} {budget expires : Instant}
    (h : sessionExpiry q.sample idleExpiresAt budget = .ok expires) (hlive : live expires now = true)
    (hsince : q.started ≤ now) (hshown : now.Shown m) : q.clocks.Before m idleExpiresAt := by
  unfold sessionExpiry at h
  cases hdeadline : q.sample.deadline idleExpiresAt with
  | error e =>
    rw [hdeadline] at h
    cases h
  | ok deadline =>
    rw [hdeadline] at h
    cases h
    have hnow : now < deadline := lt_of_lt_of_le (of_decide_eq_true hlive) (min_le_right _ _)
    exact Query.before_deadline hdeadline (Query.lt_of_shown hnow hshown)
      (Query.consultable_of_shown hsince hshown)

/-- Shown groups carry the deadline of the reading. -/
theorem Query.before_groups {groups : Groups} {expires proof : Instant} {shown : TrustedGroups}
    (hdeadline : groups.deadline q.sample = .ok expires)
    (hview : groups.viewAt expires proof now = .ok (.available shown)) (hsince : q.started ≤ now) :
    (∀ m, now.Shown m → q.clocks.Before m shown.expiresAt) ∧
      ∀ later values m, shown.valuesAt later = .ok values → q.started ≤ later → later.Shown m →
        q.clocks.Before m shown.expiresAt := by
  unfold Groups.viewAt at hview
  split at hview
  · cases hview
  · split at hview
    · cases hview
    · cases hview
    · split at hview
      · cases hview
      · rename_i hlive
        cases hview
        constructor
        · intro m hshown
          exact Query.before_deadline hdeadline (Query.lt_of_shown (not_le.mp hlive) hshown)
            (Query.consultable_of_shown hsince hshown)
        · intro later values m hvalues hafter hshown
          unfold TrustedGroups.valuesAt at hvalues
          split at hvalues
          · cases hvalues
          · split at hvalues
            · cases hvalues
            · rename_i hlater
              exact Query.before_deadline hdeadline (Query.lt_of_shown (not_le.mp hlater) hshown)
                (Query.consultable_of_shown hafter hshown)

/-- So does a shown department. -/
theorem Query.before_department {department : DepartmentFacts} {expires : Option Instant}
    {proof : Instant} {shown : TrustedDepartment}
    (hdeadline : department.deadline q.sample = .ok expires)
    (hview : department.viewAt expires proof now = .ok (.available shown))
    (hsince : q.started ≤ now) :
    (∀ m, now.Shown m → q.clocks.Before m shown.expiresAt) ∧
      ∀ later snapshot m, shown.snapshotAt later = .ok snapshot → q.started ≤ later →
        later.Shown m → q.clocks.Before m shown.expiresAt := by
  unfold DepartmentFacts.viewAt at hview
  split at hview
  · cases hview
  · split at hview
    · cases hview
    · rename_i expiresAt _ instant
      split at hview
      · cases hview
      · rename_i hlive
        cases hview
        have hinstant : q.sample.deadline expiresAt = .ok instant := by
          simp only [DepartmentFacts.deadline] at hdeadline
          split at hdeadline
          · rename_i deadline hok
            cases hdeadline
            exact hok
          · cases hdeadline
        constructor
        · intro m hshown
          exact Query.before_deadline hinstant (Query.lt_of_shown (not_le.mp hlive) hshown)
            (Query.consultable_of_shown hsince hshown)
        · intro later snapshot m hsnapshot hafter hshown
          unfold TrustedDepartment.snapshotAt at hsnapshot
          split at hsnapshot
          · cases hsnapshot
          · split at hsnapshot
            · cases hsnapshot
            · rename_i hlater
              exact Query.before_deadline hinstant (Query.lt_of_shown (not_le.mp hlater) hshown)
                (Query.consultable_of_shown hafter hshown)
    · cases hview

/-- A recent authentication; the part of a second in its age is given up. -/
theorem Query.before_age {authenticated : ℤ} {maxAge : Duration}
    (h : q.sample.withinAge authenticated maxAge now = true) (hsince : q.started ≤ now)
    (hshown : now.Shown m) :
    q.clocks.database m < authenticated * 1000000000 + maxAge.total := by
  unfold TimeSample.withinAge at h
  split at h
  · cases h
  · split at h
    · split at h
      · rename_i ending hending
        obtain ⟨-, rfl⟩ := checkedAdd_eq_some.mp hending
        split at h
        · rename_i deadline hdeadline
          have hnow := of_decide_eq_true h
          have hbefore := Query.before_deadline hdeadline (Query.lt_of_shown hnow hshown)
            (Query.consultable_of_shown hsince hshown)
          have hnanos : (0 : ℝ) ≤ maxAge.nanos := by positivity
          unfold Clocks.Before at hbefore
          unfold Duration.total
          push_cast at hbefore ⊢
          linarith
        · cases h
      · cases h
    · cases h

/-- An available profile; the reading found its end ahead. -/
theorem Query.before_profile {ending : ℤ} {expires deadline : Instant}
    (h : profileExpiry ending q.micros q.started expires = .ok (true, deadline))
    (hm : m < deadline.nanos) : q.clocks.Before m ending := by
  unfold profileExpiry at h
  split at h
  · cases h
  · rename_i hahead
    split at h
    · rename_i instant hadd
      cases h
      have hle : (min expires instant).nanos ≤ instant.nanos :=
        Instant.le_iff.mp (min_le_right _ _)
      have hcast : ((min expires instant).nanos : ℝ) ≤ instant.nanos := by exact_mod_cast hle
      have hfuture : q.micros < ending * 1000000 := by
        have hwhole := lt_tdiv_add_one q.micros
        omega
      exact Query.before_remaining hadd (lt_of_lt_of_le hm hcast) (.inr hfuture)
    · cases h

/-- A personnel window. -/
theorem Query.before_window {validUntil : ℤ} {expires deadline : Instant}
    (h : windowExpiry validUntil q.micros q.started expires = .ok deadline)
    (hm : m < deadline.nanos) (hconsultable : q.Consultable m validUntil) :
    q.clocks.Before m validUntil := by
  unfold windowExpiry at h
  split at h
  · rename_i instant hadd
    cases h
    have hle : (min expires instant).nanos ≤ instant.nanos := Instant.le_iff.mp (min_le_right _ _)
    have hcast : ((min expires instant).nanos : ℝ) ≤ instant.nanos := by exact_mod_cast hle
    exact Query.before_remaining hadd (lt_of_lt_of_le hm hcast) hconsultable
  · cases h

end Honoured

/-- The deadlines of a reading keep their times exactly where the proof of the token does: it is
rejected, or it exists and something bounds it. -/
theorem neverOutlives_iff (q : Query) (exp : ℤ) (budget : Instant) :
    NeverOutlives q exp budget ↔
      q.Rejects exp ∨ q.Representable exp ∧ q.Bounded exp budget := by
  constructor
  · intro h
    by_cases hrejects : q.Rejects exp
    · exact .inl hrejects
    · have hexpiry := @Query.proofExpiry_of_not_rejects q exp budget hrejects
      cases hadd : q.started.checkedAdd (min ((exp * 1000 - q.millis) * 1000) 10000000) with
      | none =>
        rw [hadd, Option.map_none] at hexpiry
        exact absurd hexpiry h.panics
      | some instant =>
        rw [hadd, Option.map_some] at hexpiry
        exact .inr ⟨⟨instant, hadd⟩, (Query.before_proof_iff hadd).mp (h.proof _ hexpiry)⟩
  · intro h
    have hproof : (∀ deadline, proofExpiry exp q.millis q.started budget = some (.ok deadline) →
          ∀ m : ℝ, m < deadline.nanos → q.clocks.Before m exp) ∧
        proofExpiry exp q.millis q.started budget ≠ none := by
      rcases h with hrejects | ⟨⟨instant, hadd⟩, hbounded⟩
      · rw [Query.proofExpiry_of_rejects hrejects]
        exact ⟨by rintro deadline ⟨⟩, by simp⟩
      · by_cases hrejects : q.Rejects exp
        · rw [Query.proofExpiry_of_rejects hrejects]
          exact ⟨by rintro deadline ⟨⟩, by simp⟩
        · rw [Query.proofExpiry_of_not_rejects hrejects, hadd, Option.map_some]
          refine ⟨?_, by simp⟩
          rintro deadline ⟨⟩
          exact (Query.before_proof_iff hadd).mpr hbounded
    exact
      { sample := fun _ _ hdeadline _ hm hconsultable =>
          Query.before_deadline hdeadline hm hconsultable
        session := fun _ _ _ _ _ h hlive hsince hshown =>
          Query.before_session h hlive hsince hshown
        groups := fun _ _ _ _ _ hdeadline hview hsince =>
          Query.before_groups hdeadline hview hsince
        department := fun _ _ _ _ _ hdeadline hview hsince =>
          Query.before_department hdeadline hview hsince
        recent := fun _ _ _ _ h hsince hshown => Query.before_age h hsince hshown
        profile := fun _ _ _ _ _ h _ hm => Query.before_profile h hm
        window := fun _ _ _ _ _ h _ hm hconsultable => Query.before_window h hm hconsultable
        proof := hproof.1
        panics := hproof.2
        wraps := fun seconds hseconds =>
          have hbounds := @remainingMicros_bounds seconds _ q.bigint
          ⟨difference_i128 hseconds q.bigint, hbounds.1, hbounds.2.2⟩ }

/-- A reading 999 nanoseconds after second 1000, answered at once. -/
noncomputable def wholeMillisecond : Query where
  clocks := ⟨1000000000999⟩
  started := ⟨0, by decide⟩
  answered := 0
  after := by norm_num
  bigint := by
    have hfloor : (⟨1000000000999⟩ : Clocks).timestamp 0 = 1000000000 := by
      unfold Clocks.timestamp Clocks.database
      rw [Int.floor_eq_iff]
      norm_num
    rw [hfloor]
    decide

theorem wholeMillisecond_millis : wholeMillisecond.millis = 1000000 := by
  have hmicros : wholeMillisecond.micros = 1000000000 := by
    unfold Query.micros wholeMillisecond Clocks.timestamp Clocks.database
    rw [Int.floor_eq_iff]
    norm_num
  rw [Query.millis, hmicros]
  decide

/-- The proof of a token that expires at second 1001 is live a nanosecond before its deadline, when
the database's clock shows 998 nanoseconds past that second. -/
theorem proof_outlives :
    proofExpiry 1001 wholeMillisecond.millis wholeMillisecond.started ⟨5000000000, by decide⟩ =
        some (.ok ⟨1000000000, by decide⟩) ∧
      live ⟨1000000000, by decide⟩ ⟨999999999, by decide⟩ = true ∧
      wholeMillisecond.clocks.database 999999999 = 1001 * 1000000000 + 998 ∧
      ¬ NeverOutlives wholeMillisecond 1001 ⟨5000000000, by decide⟩ := by
  have hexpiry : proofExpiry 1001 wholeMillisecond.millis wholeMillisecond.started
      ⟨5000000000, by decide⟩ = some (.ok ⟨1000000000, by decide⟩) := by
    rw [wholeMillisecond_millis]
    decide
  have hdatabase : wholeMillisecond.clocks.database 999999999 = 1001 * 1000000000 + 998 := by
    unfold wholeMillisecond Clocks.database
    norm_num
  refine ⟨hexpiry, by decide, hdatabase, fun h => ?_⟩
  have hbefore := h.proof _ hexpiry 999999999 (by norm_num)
  unfold Clocks.Before at hbefore
  rw [hdatabase] at hbefore
  norm_num at hbefore

end IdentityAuthority
