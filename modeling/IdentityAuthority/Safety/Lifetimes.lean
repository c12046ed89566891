import IdentityAuthority.Storage.Deadlines

/-!
# Lifetimes over renewals

A lifetime is issued or loaded, and then renewed any number of times, at times in any
order. The constructor, the renewal and the checks of the table state one invariant, and
what is stored is what is loaded. A renewal can fail for lack of room in 64 bits.
-/

namespace IdentityAuthority

namespace SessionLifetime

/-- Renewal in place: a failing renewal leaves the lifetime as it is. -/
def renewed (lifetime : SessionLifetime) (now : ℤ) : SessionLifetime :=
  (lifetime.renew now).getD lifetime

/-- The lifetime after renewals at some times, one after the other. -/
def renewals (lifetime : SessionLifetime) (times : List ℤ) : SessionLifetime :=
  times.foldl renewed lifetime

/-- All times of a lifetime and of its policy are 64-bit values. -/
structure Fits (lifetime : SessionLifetime) : Prop where
  issuedAt : isI64 lifetime.issuedAt = true
  idleExpiresAt : isI64 lifetime.idleExpiresAt = true
  absoluteExpiresAt : isI64 lifetime.absoluteExpiresAt = true
  idle : isI64 lifetime.policy.idle = true
  absolute : isI64 lifetime.policy.absolute = true

/-- A lifetime as issuing or loading makes it, from 64-bit arguments. -/
inductive Begun (lifetime : SessionLifetime) : Prop
  | issued (now : ℤ) (policy : SessionPolicy) (hnow : isI64 now = true)
      (hpolicy : isI64 policy.absolute = true) (h : new now policy = some lifetime)
  | loaded (issuedAt idle absolute : ℤ) (policy : SessionPolicy)
      (hissued : isI64 issuedAt = true) (habsolute : isI64 absolute = true)
      (hpolicy : isI64 policy.absolute = true)
      (h : restore issuedAt idle absolute policy = some lifetime)

variable {start lifetime next : SessionLifetime} {now : ℤ} {times : List ℤ}

/-- The times between the first and the last one fit with them. -/
theorem Fits.intro (hissued : isI64 lifetime.issuedAt = true)
    (habsolute : isI64 lifetime.absoluteExpiresAt = true)
    (hpolicy : isI64 lifetime.policy.absolute = true) : lifetime.Fits := by
  have hfirst := of_decide_eq_true hissued
  have hlast := of_decide_eq_true habsolute
  have hlimit := of_decide_eq_true hpolicy
  have hstart := lifetime.issuedAt_lt
  have hend := lifetime.idle_le_absolute
  have hidle := lifetime.policy.idle_pos
  have hle := lifetime.policy.idle_le
  have hmin : i64Min ≤ 0 := by decide
  refine ⟨hissued, decide_eq_true ?_, habsolute, decide_eq_true ?_, hpolicy⟩
  · constructor <;> omega
  · constructor <;> omega

/-- Issuing and loading make lifetimes of 64-bit times. -/
theorem Begun.fits (h : lifetime.Begun) : lifetime.Fits := by
  cases h with
  | issued now policy hnow hpolicy h =>
    obtain ⟨hsame, hissued, -, habsolute⟩ := new_eq_some h
    unfold new at h
    simp only [Option.bind_eq_bind, Option.bind_eq_some_iff, checkedAdd_eq_some] at h
    obtain ⟨_, ⟨-, rfl⟩, _, ⟨hlast, rfl⟩, -⟩ := h
    rw [← hissued] at hnow
    rw [← habsolute] at hlast
    rw [← hsame] at hpolicy
    exact .intro hnow hlast hpolicy
  | loaded issuedAt idle absolute policy hissued habsolute hpolicy h =>
    obtain ⟨-, rfl, rfl, rfl, rfl⟩ := restore_eq_some.mp h
    exact .intro hissued habsolute hpolicy

/-- A renewal moves the idle expiry to what the policy gives, never back and never past the
absolute one. -/
theorem renew_idle (h : lifetime.renew now = some next) :
    next.idleExpiresAt = max lifetime.idleExpiresAt
      (min (now + lifetime.policy.idle) lifetime.absoluteExpiresAt) := by
  unfold renew at h
  split at h
  · cases h
    rfl
  · cases h

/-- A renewal in place is a renewal or nothing. -/
theorem renewed_cases (lifetime : SessionLifetime) (now : ℤ) :
    lifetime.renew now = some (lifetime.renewed now) ∨ lifetime.renewed now = lifetime := by
  unfold renewed
  cases h : lifetime.renew now with
  | some next => exact .inl rfl
  | none => exact .inr rfl

/-- A lifetime later in a run: nothing moved but the idle expiry, and that one forward. -/
structure Later (start lifetime : SessionLifetime) : Prop where
  policy : lifetime.policy = start.policy
  issuedAt : lifetime.issuedAt = start.issuedAt
  absoluteExpiresAt : lifetime.absoluteExpiresAt = start.absoluteExpiresAt
  idle_le : start.idleExpiresAt ≤ lifetime.idleExpiresAt

theorem Later.refl (lifetime : SessionLifetime) : lifetime.Later lifetime :=
  ⟨rfl, rfl, rfl, le_rfl⟩

theorem Later.trans (h : start.Later lifetime) (h' : lifetime.Later next) : start.Later next where
  policy := h'.policy.trans h.policy
  issuedAt := h'.issuedAt.trans h.issuedAt
  absoluteExpiresAt := h'.absoluteExpiresAt.trans h.absoluteExpiresAt
  idle_le := h.idle_le.trans h'.idle_le

/-- One renewal leads to a later lifetime. -/
theorem later_renew (h : lifetime.renew now = some next) : lifetime.Later next := by
  obtain ⟨-, hpolicy, hissued, habsolute, hidle⟩ := renew_eq_some h
  exact ⟨hpolicy, hissued, habsolute, hidle⟩

theorem later_renewed (lifetime : SessionLifetime) (now : ℤ) :
    lifetime.Later (lifetime.renewed now) := by
  rcases lifetime.renewed_cases now with h | h
  · exact later_renew h
  · rw [h]
    exact .refl lifetime

/-- So do renewals in any order of times. -/
theorem later_renewals (times : List ℤ) : ∀ start : SessionLifetime,
    start.Later (start.renewals times) := by
  induction times with
  | nil => exact fun start => .refl start
  | cons now times ih =>
    intro start
    have hfirst := later_renewed start now
    exact hfirst.trans (ih (start.renewed now))

/-- Renewals that all succeed lead to a later lifetime. -/
theorem later_of_foldlM : ∀ {times : List ℤ} {start : SessionLifetime},
    times.foldlM renew start = some lifetime → start.Later lifetime := by
  intro times
  induction times with
  | nil =>
    intro start h
    cases h
    exact .refl _
  | cons now times ih =>
    intro start h
    simp only [List.foldlM_cons, Option.bind_eq_bind, Option.bind_eq_some_iff] at h
    obtain ⟨next, hnext, hrest⟩ := h
    exact (later_renew hnext).trans (ih hrest)

/-- A later lifetime of a run that began in 64 bits stays there. -/
theorem Fits.later (hfits : start.Fits) (h : start.Later lifetime) : lifetime.Fits := by
  have hissued := hfits.issuedAt
  have habsolute := hfits.absoluteExpiresAt
  have hpolicy := hfits.absolute
  rw [← h.issuedAt] at hissued
  rw [← h.absoluteExpiresAt] at habsolute
  rw [← h.policy] at hpolicy
  exact .intro hissued habsolute hpolicy

/-- A lifetime of 64-bit times passes the check of its own fields. -/
theorem Fits.restore_self (h : lifetime.Fits) :
    restore lifetime.issuedAt lifetime.idleExpiresAt lifetime.absoluteExpiresAt lifetime.policy =
      some lifetime := by
  refine restore_eq_some.mpr ⟨?_, rfl, rfl, rfl, rfl⟩
  rw [lifetime.duration]
  exact h.absolute

end SessionLifetime

namespace SessionRow

/-- The row with the times of a lifetime. -/
def withLifetime (row : SessionRow) (lifetime : SessionLifetime) : SessionRow :=
  { row with
    issuedAt := lifetime.issuedAt
    idleTimeout := lifetime.policy.idle
    absoluteTimeout := lifetime.policy.absolute
    idleExpiresAt := lifetime.idleExpiresAt
    absoluteExpiresAt := lifetime.absoluteExpiresAt }

/-- The checks of the table on the times of a session. -/
structure TimesChecked (row : SessionRow) : Prop where
  issuedAt_pos : 0 < row.issuedAt
  idleTimeout_pos : 0 < row.idleTimeout
  idle_le : row.idleTimeout ≤ row.absoluteTimeout
  lifetime : row.issuedAt < row.idleExpiresAt ∧ row.idleExpiresAt ≤ row.absoluteExpiresAt
  duration : row.absoluteExpiresAt - row.issuedAt = row.absoluteTimeout
  bigint : ∀ n ∈ [row.issuedAt, row.idleTimeout, row.absoluteTimeout, row.idleExpiresAt,
    row.absoluteExpiresAt], isI64 n = true

variable {row : SessionRow} {lifetime next : SessionLifetime}

/-- The times of a lifetime pass the checks of the table. -/
theorem timesChecked_withLifetime (row : SessionRow) (h : lifetime.Fits) :
    (row.withLifetime lifetime).TimesChecked where
  issuedAt_pos := lifetime.issuedAt_pos
  idleTimeout_pos := lifetime.policy.idle_pos
  idle_le := lifetime.policy.idle_le
  lifetime := ⟨lifetime.issuedAt_lt, lifetime.idle_le_absolute⟩
  duration := lifetime.duration
  bigint := by
    simp only [withLifetime, List.forall_mem_cons, List.not_mem_nil, IsEmpty.forall_iff,
      implies_true, and_true]
    exact ⟨h.issuedAt, h.idle, h.absolute, h.idleExpiresAt, h.absoluteExpiresAt⟩

/-- A row checked before is checked with other times of the same session. -/
theorem Checked.withLifetime (hrow : row.Checked) (h : lifetime.Fits)
    (hissued : lifetime.issuedAt = row.issuedAt) : (row.withLifetime lifetime).Checked := by
  have htimes := timesChecked_withLifetime row h
  have hkind : (row.withLifetime lifetime).AuthenticationKind := by
    have hbefore := hrow.kind
    unfold AuthenticationKind at hbefore ⊢
    simpa only [SessionRow.withLifetime, hissued] using hbefore
  have hrevocation : ∀ t ∈ row.revokedAt, lifetime.issuedAt ≤ t := by
    rw [hissued]
    exact hrow.revocation
  exact
    { presentation := hrow.presentation
      kind := hkind
      source := hrow.source
      authEpoch_pos := hrow.authEpoch_pos
      membershipEpoch_pos := hrow.membershipEpoch_pos
      issuedAt_pos := htimes.issuedAt_pos
      idleTimeout_pos := htimes.idleTimeout_pos
      idle_le := htimes.idle_le
      lifetime := htimes.lifetime
      duration := htimes.duration
      absolute_i64 := h.absolute
      revocation := hrevocation
      profile := hrow.profile }

/-- What is stored of a lifetime is loaded again. -/
theorem lifetime_withLifetime (row : SessionRow) (h : lifetime.Fits) :
    (row.withLifetime lifetime).lifetime = some lifetime := by
  have hpolicy : SessionPolicy.new lifetime.policy.idle lifetime.policy.absolute =
      some lifetime.policy := by
    rw [SessionPolicy.new, dif_pos ⟨lifetime.policy.idle_pos, lifetime.policy.idle_le⟩]
  rw [SessionRow.lifetime]
  simp only [withLifetime, hpolicy, Option.bind_eq_bind, Option.bind_some]
  exact h.restore_self

/-- A loaded row has the times of its lifetime. -/
theorem withLifetime_of_lifetime (h : row.lifetime = some lifetime) :
    row.withLifetime lifetime = row := by
  simp only [SessionRow.lifetime, Option.bind_eq_bind, Option.bind_eq_some_iff] at h
  obtain ⟨policy, hpolicy, h⟩ := h
  obtain ⟨-, hsame, hissued, hidle, habsolute⟩ := SessionLifetime.restore_eq_some.mp h
  have htimeouts : policy.idle = row.idleTimeout ∧ policy.absolute = row.absoluteTimeout := by
    unfold SessionPolicy.new at hpolicy
    split at hpolicy
    · cases hpolicy
      exact ⟨rfl, rfl⟩
    · cases hpolicy
  simp only [withLifetime, hissued, hidle, habsolute, hsame, htimeouts]

/-- What a touch writes is the row with the times of the renewed lifetime. -/
theorem touched (h : row.lifetime = some lifetime) {now : ℤ}
    (hrenew : lifetime.renew now = some next) :
    { row with idleExpiresAt := next.idleExpiresAt } = row.withLifetime next := by
  obtain ⟨-, hpolicy, hissued, habsolute, -⟩ := SessionLifetime.renew_eq_some hrenew
  have hrow := withLifetime_of_lifetime h
  rw [← hrow]
  simp only [withLifetime, hpolicy, hissued, habsolute]

end SessionRow

/-- The row of a session to issue has the times of its lifetime. -/
theorem issuedRow_withLifetime {env : Env} {state : AccountState} {columns : AuthenticationColumns}
    {facts : Option AuthenticationFacts} {lifetime : SessionLifetime} {now : ℤ}
    {kind : CredentialKind} {secret : Secret} {id : SessionId}
    (h : SessionLifetime.new now env.sessionPolicy = some lifetime) :
    issuedRow env state columns facts lifetime now kind secret id =
      (issuedRow env state columns facts lifetime now kind secret id).withLifetime lifetime := by
  obtain ⟨hpolicy, hissued, -, -⟩ := SessionLifetime.new_eq_some h
  simp only [issuedRow, SessionRow.withLifetime, hpolicy, hissued]

/-- What holds of a lifetime reached in a run of renewals, and of its storage. -/
structure LifetimeRun (start lifetime : SessionLifetime) : Prop where
  ordered : lifetime.issuedAt < lifetime.idleExpiresAt ∧
    lifetime.idleExpiresAt ≤ lifetime.absoluteExpiresAt
  duration : lifetime.absoluteExpiresAt - lifetime.issuedAt = start.policy.absolute
  /-- Nothing moved but the idle expiry, and that one forward. -/
  later : start.Later lifetime
  /-- The next renewal never moves the idle expiry back. -/
  forward : ∀ now, lifetime.idleExpiresAt ≤ (lifetime.renewed now).idleExpiresAt
  renews : ∀ now next, lifetime.renew now = some next → next.idleExpiresAt =
    max lifetime.idleExpiresAt (min (now + lifetime.policy.idle) lifetime.absoluteExpiresAt)
  /-- A failing renewal changes nothing. -/
  fails : ∀ now, lifetime.renew now = none → lifetime.renewed now = lifetime
  restores : SessionLifetime.restore lifetime.issuedAt lifetime.idleExpiresAt
    lifetime.absoluteExpiresAt lifetime.policy = some lifetime
  /-- The checks of the table hold of its times, whatever else a row has. -/
  stored : ∀ row : SessionRow, (row.withLifetime lifetime).TimesChecked
  /-- A checked row of the session stays one. -/
  checked : ∀ row : SessionRow, row.Checked → row.issuedAt = start.issuedAt →
    (row.withLifetime lifetime).Checked
  /-- What is stored is loaded again. -/
  loaded : ∀ row : SessionRow, (row.withLifetime lifetime).lifetime = some lifetime
  /-- Issuing stores the lifetime it began with. -/
  issues : ∀ env state columns facts now kind secret id,
    SessionLifetime.new now env.sessionPolicy = some start →
      (issuedRow env state columns facts start now kind secret id).lifetime = some start
  /-- A touch stores the renewed lifetime. -/
  touches : ∀ (row : SessionRow) now next, row.lifetime = some lifetime →
    lifetime.renew now = some next →
      { row with idleExpiresAt := next.idleExpiresAt }.lifetime = some next

/-- A lifetime keeps its invariant over every run of renewals, in memory and in storage. -/
theorem lifetime_runs {start : SessionLifetime} (h : start.Begun) (times : List ℤ) :
    LifetimeRun start (start.renewals times) := by
  have hlater := SessionLifetime.later_renewals times start
  have hfits := h.fits.later hlater
  have hduration := (start.renewals times).duration
  rw [hlater.policy] at hduration
  exact
    { ordered := ⟨(start.renewals times).issuedAt_lt, (start.renewals times).idle_le_absolute⟩
      duration := hduration
      later := hlater
      forward := fun now => (SessionLifetime.later_renewed _ now).idle_le
      renews := fun _ _ hrenew => SessionLifetime.renew_idle hrenew
      fails := fun now hnone => by rw [SessionLifetime.renewed, hnone, Option.getD_none]
      restores := hfits.restore_self
      stored := fun row => row.timesChecked_withLifetime hfits
      checked := fun row hrow hissued => hrow.withLifetime hfits (hlater.issuedAt.trans hissued.symm)
      loaded := fun row => row.lifetime_withLifetime hfits
      issues := fun env state columns facts now kind secret id hnew => by
        rw [issuedRow_withLifetime hnew]
        exact SessionRow.lifetime_withLifetime _ h.fits
      touches := fun row now next hrow hrenew => by
        rw [SessionRow.touched hrow hrenew]
        exact row.lifetime_withLifetime (hfits.later (SessionLifetime.later_renew hrenew)) }

/-- A session of an hour, renewed inside five minutes, then too early and too late. -/
theorem lifetime_runs_hour :
    LifetimeRun ⟨⟨300, 3600, by decide, by decide⟩, 1000, 1300, 4600, by decide, by decide,
        by decide, by decide⟩
      (SessionLifetime.renewals ⟨⟨300, 3600, by decide, by decide⟩, 1000, 1300, 4600, by decide,
        by decide, by decide, by decide⟩ [1250, 900, 1600]) :=
  lifetime_runs (.issued 1000 ⟨300, 3600, by decide, by decide⟩ (by decide) (by decide)
    (by decide)) [1250, 900, 1600]

/-- A time in seconds has an instant at a reading: it is over, or it lies no further ahead than a
`u64` of microseconds and the process's clock can tell. -/
def TimeSample.Reaches (sample : TimeSample) (seconds : ℤ) : Prop :=
  seconds * 1000000 - sample.micros - 1 ≤ 0 ∨
    seconds * 1000000 - sample.micros - 1 < 2 ^ 64 ∧
      isI64 ((sample.started.nanos + (seconds * 1000000 - sample.micros - 1) * 1000) /
        1000000000) = true

/-- A deadline exists exactly where the reading reaches it. -/
theorem TimeSample.deadline_isOk_iff {sample : TimeSample} {seconds : ℤ} (hpos : 0 < seconds) :
    (∃ instant, sample.deadline seconds = .ok instant) ↔ sample.Reaches seconds := by
  unfold TimeSample.deadline TimeSample.Reaches
  rw [if_neg (by omega)]
  by_cases hover : seconds * 1000000 - sample.micros - 1 ≤ 0
  · simp only [hover, true_or, iff_true]
    exact ⟨_, rfl⟩
  · simp only [hover, false_or]
    by_cases hmicros : seconds * 1000000 - sample.micros - 1 < 2 ^ 64
    · simp only [hmicros, true_and, Instant.checkedAdd]
      by_cases hfits : isI64 ((sample.started.nanos +
          (seconds * 1000000 - sample.micros - 1) * 1000) / 1000000000) = true
      · simp [hfits]
      · simp [hfits]
    · simp only [hmicros, false_and, iff_false]
      rintro ⟨_, h⟩
      cases h

/-- A session inside its lifetime is renewed exactly where the time and the idle timeout have a
64-bit sum. -/
theorem SessionLifetime.renew_isSome_iff {lifetime : SessionLifetime} {t : ℤ}
    (hvalid : lifetime.validAt t = true) :
    (∃ next, lifetime.renew t = some next) ↔ t + lifetime.policy.idle ≤ i64Max := by
  have hlive := of_decide_eq_true hvalid
  have hissued := lifetime.issuedAt_pos
  have hidle := lifetime.policy.idle_pos
  have hmin : i64Min ≤ 0 := by decide
  have hfits : isI64 (t + lifetime.policy.idle) = true ↔ t + lifetime.policy.idle ≤ i64Max := by
    unfold isI64
    rw [decide_eq_true_iff]
    omega
  rw [← hfits]
  unfold SessionLifetime.renew
  rw [hvalid, Bool.true_and]
  by_cases h : isI64 (t + lifetime.policy.idle) = true
  · simp [h]
  · simp [h]

/-- A session that was issued and since renewed, at a time of its lifetime, is renewed again and
has a deadline exactly where the sum and the deadline fit. -/
theorem timeouts_fit_iff {policy : SessionPolicy} {start lifetime : SessionLifetime}
    {issued t : ℤ} {times : List ℤ} {sample : TimeSample}
    (hstart : SessionLifetime.new issued policy = some start)
    (hrenewals : times.foldlM SessionLifetime.renew start = some lifetime)
    (hvalid : lifetime.validAt t = true) :
    (∃ next, lifetime.renew t = some next) ∧
        (∃ instant, sample.deadline lifetime.idleExpiresAt = .ok instant) ↔
      t + policy.idle ≤ i64Max ∧ sample.Reaches lifetime.idleExpiresAt := by
  have hlater := SessionLifetime.later_of_foldlM hrenewals
  have hpolicy : lifetime.policy = policy :=
    hlater.policy.trans (SessionLifetime.new_eq_some hstart).1
  have hpos := lifetime.issuedAt_pos
  have hidle := lifetime.issuedAt_lt
  rw [SessionLifetime.renew_isSome_iff hvalid, TimeSample.deadline_isOk_iff (by omega), hpolicy]

/-- A session of an hour is renewed, and has a deadline. -/
theorem timeouts_fit_hour :
    (∃ next, SessionLifetime.renew ⟨⟨300, 3600, by decide, by decide⟩, 1000, 1400, 4600, by decide,
        by decide, by decide, by decide⟩ 1200 = some next) ∧
      (∃ instant, (⟨⟨0, by decide⟩, 1200000000⟩ : TimeSample).deadline 1400 = .ok instant) :=
  (@timeouts_fit_iff ⟨300, 3600, by decide, by decide⟩
    ⟨⟨300, 3600, by decide, by decide⟩, 1000, 1300, 4600, by decide, by decide, by decide,
      by decide⟩
    ⟨⟨300, 3600, by decide, by decide⟩, 1000, 1400, 4600, by decide, by decide, by decide,
      by decide⟩ 1000 1200 [1100] ⟨⟨0, by decide⟩, 1200000000⟩ (by decide) (by decide)
    (by decide)).mpr ⟨by decide, .inr (by decide)⟩

/-- A session whose expiry is the last 64-bit second is issued and valid one second later. It can
not be renewed then, and a reading then gives it no deadline. -/
theorem timeouts_overflow :
    ((SessionPolicy.new (i64Max - 1000) (i64Max - 1000)).bind fun policy =>
        (SessionLifetime.new 1000 policy).map fun lifetime =>
          (lifetime.validAt 1001, (lifetime.renew 1001).isSome,
            ((⟨⟨0, by decide⟩, 1001000000⟩ : TimeSample).deadline
              lifetime.idleExpiresAt).isOk)) = some (true, false, false) := by
  decide +kernel

end IdentityAuthority
