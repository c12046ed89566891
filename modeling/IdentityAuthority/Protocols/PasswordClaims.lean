import IdentityAuthority.Storage.PasswordAttempts
import IdentityAuthority.Transition.Run

/-!
# Password claims under every interleaving

Calls claim a login, verify a password outside the database, and settle the claim, while
other calls do the same and the clock goes on. A row keeps its checks because the failures
and the window of a claim agree, unless the window ends between the two clock readings
that decide them. The token in the row fences settlements off from each other.
-/

namespace IdentityAuthority

open Relational Transition

variable {env : Env} {w w' : Tenant}

theorem endedNow_readOnly : ∀ t, (endedNow t).ReadOnly
  | none => fun _ _ _ h => by
    obtain ⟨-, rfl⟩ := Tx.run_pure.mp h
    rfl
  | some t => fun w _ w' h => by
    simp only [endedNow, Tx.run_bind, Tx.run_clockTimestamp, Tx.run_pure] at h
    obtain ⟨_, _, ⟨-, rfl⟩, -, rfl⟩ := h
    rfl

theorem abandonedNow_readOnly (row : PasswordAttemptRow) : (abandonedNow row).ReadOnly := by
  intro w b w' h
  simp only [abandonedNow, Tx.run_bind, Tx.run_ite, Tx.run_pure] at h
  obtain ⟨_, w₁, hwindow, h⟩ := h
  have hstate := endedNow_readOnly _ w _ w₁ hwindow
  rcases h with ⟨-, h⟩ | ⟨-, -, rfl⟩
  · rw [endedNow_readOnly _ w₁ b w' h, hstate]
  · exact hstate

theorem endedNow_avoids {e : Failure} : ∀ t, (endedNow t).Avoids e
  | none => .pure
  | some _ => Tx.Avoids.clockTimestamp.bind fun _ => .pure

/-- Cleaning up only deletes rows of the two attempt tables. -/
theorem run_cleanup {a : Unit} (h : cleanup.run w = .ok (a, w')) :
    ∃ p q, w'.state = { w.state with
      attempts := w.state.attempts.deleteWhere p
      passwordAttempts := w.state.passwordAttempts.deleteWhere q } := by
  simp only [cleanup, Tx.run_bind, Tx.run_select, Tx.run_deleteFrom, Tx.run_pure] at h
  obtain ⟨_, _, ⟨rfl, rfl⟩, expired, w₁, hfilter, removed, _, ⟨_, hput, -, rfl⟩, _, _, ⟨rfl, rfl⟩,
    _, w₂, hfilter', _, _, ⟨_, hput', -, rfl⟩, -, rfl⟩ := h
  have h₁ := Tx.filterRows_readOnly (fun row : AttemptRow => endedNow_readOnly (some row.expiresAt))
    _ _ _ _ hfilter
  have h₂ := Tx.filterRows_readOnly abandonedNow_readOnly _ _ _ _ hfilter'
  simp only [Tables.attempts_put, Option.some.injEq] at hput
  simp only [Tables.passwordAttempts_put, Option.some.injEq] at hput'
  subst hput
  subst hput'
  simp only [h₂, h₁, Tables.attempts_get, Tables.passwordAttempts_get]
  exact ⟨_, _, rfl⟩

/-- Cleaning up violates no constraint. -/
theorem cleanup_avoids {e : Failure} : cleanup.Avoids e := by
  refine Tx.Avoids.query.bind fun rows => ?_
  refine (Tx.Avoids.filterRows (fun row => endedNow_avoids _) rows).bind fun expired => ?_
  refine (Tx.Avoids.deleteFrom (by simp)).bind fun removed => ?_
  refine Tx.Avoids.query.bind fun rows => ?_
  refine (Tx.Avoids.filterRows (fun row => ?_) rows).bind fun expired => ?_
  · refine (endedNow_avoids _).bind fun window => ?_
    exact Tx.Avoids.ite (endedNow_avoids _) .pure
  · exact (Tx.Avoids.deleteFrom (by simp)).bind fun _ => .pure

/-- Reading an admission key changes nothing, and what it counted is not negative. -/
theorem run_attempt {key : String} {limit seconds' : ℤ} {a : Attempt}
    (h : (attempt key limit seconds').run w = .ok (a, w')) :
    w'.state = w.state ∧ 0 ≤ a.count ∧ a.key = key := by
  simp only [attempt, Tx.run_bind, Tx.run_find, Tables.attempts_get] at h
  obtain ⟨_, _, ⟨rfl, rfl⟩, h⟩ := h
  cases hrow : w.state.attempts.find? key with
  | none =>
    simp only [hrow, Tx.run_pure] at h
    obtain ⟨rfl, rfl⟩ := h
    exact ⟨rfl, le_rfl, rfl⟩
  | some row =>
    have hpos : 0 < row.count := Table.check_of_mem (Table.mem_of_find? hrow)
    simp only [hrow, Tx.run_bind, Tx.run_clockTimestamp, Tx.run_ite, Tx.run_pure] at h
    have hcount : 0 ≤ (if w.tick.clock < row.expiresAt then row.count else 0) := by
      split <;> omega
    obtain ⟨_, _, ⟨rfl, rfl⟩, h⟩ := h
    rcases h with ⟨-, _, _, ⟨rfl, rfl⟩, h⟩ | ⟨-, rfl, rfl⟩
    · rcases h with ⟨-, _, _, ⟨rfl, rfl⟩, rfl, rfl⟩ | ⟨-, rfl, rfl⟩
      · exact ⟨rfl, hcount, rfl⟩
      · exact ⟨rfl, hcount, rfl⟩
    · exact ⟨rfl, hcount, rfl⟩

theorem attempt_avoids {key : String} {limit seconds' : ℤ} {e : Failure} :
    (attempt key limit seconds').Avoids e := by
  refine Tx.Avoids.query.bind fun row => ?_
  cases row with
  | none => exact .pure
  | some row =>
    refine Tx.Avoids.clockTimestamp.bind fun t => .ite ?_ .pure
    refine Tx.Avoids.clockTimestamp.bind fun t => .ite ?_ .pure
    exact Tx.Avoids.clockTimestamp.bind fun t => .pure

/-- Counting an attempt writes the admission table alone. -/
theorem run_consume {a : Attempt} {u : Unit} (h : a.consume.run w = .ok (u, w')) :
    ∃ t, w'.state = { w.state with attempts := t } := by
  simp only [Attempt.consume, Tx.run_bind, Tx.run_clockTimestamp, Tx.run_find,
    Tables.attempts_get] at h
  obtain ⟨_, _, ⟨rfl, rfl⟩, _, _, ⟨rfl, rfl⟩, h⟩ := h
  cases hrow : w.tick.state.attempts.find? a.key with
  | none =>
    simp only [hrow, Tx.run_insertInto, Tables.attempts_put, Option.some.injEq] at h
    obtain ⟨t, _, -, rfl, rfl⟩ := h
    exact ⟨t, rfl⟩
  | some row =>
    simp only [hrow, Tx.run_bind, Tx.run_updateIn, Tx.run_pure, Tables.attempts_put,
      Option.some.injEq] at h
    obtain ⟨_, _, ⟨t, _, -, rfl, -, rfl⟩, -, rfl⟩ := h
    exact ⟨t, rfl⟩

/-- A counted attempt leaves a positive count, so counting violates no constraint. -/
theorem consume_avoids {a : Attempt} (hcount : 0 ≤ a.count) {e : Failure} :
    a.consume.Avoids e := by
  intro w h
  simp only [Attempt.consume, Tx.run_bind_error, Tx.run_clockTimestamp_error, Tx.find,
    Tx.run_query_error, Tx.run_clockTimestamp, Tx.run_query, false_or, Tables.attempts_get] at h
  obtain ⟨_, _, ⟨rfl, rfl⟩, _, _, ⟨rfl, rfl⟩, h⟩ := h
  cases hrow : w.tick.state.attempts.find? a.key with
  | none =>
    simp only [hrow, Tx.run_insertInto_error, Tables.attempts_get, Tables.attempts_put,
      Option.bind_eq_none_iff, reduceCtorEq, imp_false] at h
    have hnone := Option.eq_none_iff_forall_ne_some.mpr fun t => h.1 t
    refine Table.insert_eq_none.mp hnone ⟨Int.one_pos, fun s hs => ⟨?_, not_false, not_false⟩⟩
    exact (Table.find?_eq_none.mp hrow s hs).symm
  | some row =>
    simp only [hrow, Tx.run_bind_error, Tx.run_updateIn_error, Tx.run_pure_error,
      Tables.attempts_get, Tables.attempts_put, Option.bind_eq_none_iff, reduceCtorEq, imp_false,
      and_false, exists_false, or_false] at h
    have hnone := Option.eq_none_iff_forall_ne_some.mpr fun t => h.1 t
    obtain ⟨r, -, -, hcheck⟩ := (Table.updateWhere_eq_none (by intro _; rfl)
      (by intro _ _; exact not_false)).mp hnone
    exact hcheck (by change 0 < a.count + 1; omega)

theorem windowOpen_mono {row : PasswordAttemptRow} {s t : ℤ} (hst : s ≤ t)
    (h : row.windowOpen s = false) : row.windowOpen t = false := by
  unfold PasswordAttemptRow.windowOpen at *
  cases hrow : row.windowUntil with
  | none => rfl
  | some until' =>
    simp only [hrow, Option.any_some, decide_eq_false_iff_not, not_lt] at h ⊢
    exact h.trans hst

/-- No wait for a login at the limit of failures means that its window is over. -/
theorem run_retryNow {row : Option PasswordAttemptRow} {retry : ℤ}
    (h : (retryNow row).run w = .ok (retry, w')) :
    w'.state = w.state ∧ (retry ≤ 0 → ∀ r ∈ row, r.failures = passwordFailureLimit →
      r.windowOpen w'.clock = false) := by
  cases row with
  | none =>
    simp only [retryNow, Tx.run_pure] at h
    obtain ⟨-, rfl⟩ := h
    exact ⟨rfl, by simp⟩
  | some row =>
    simp only [retryNow, Tx.run_ite, Tx.run_bind, Tx.run_clockTimestamp, Tx.run_pure] at h
    rcases h with ⟨-, _, _, ⟨rfl, rfl⟩, h⟩ | ⟨hfailures, -, rfl⟩
    · rcases h with ⟨-, _, _, ⟨rfl, rfl⟩, rfl, rfl⟩ | ⟨hopen, -, rfl⟩
      · refine ⟨rfl, fun hle => ?_⟩
        unfold secondsLeft at hle
        omega
      · refine ⟨rfl, fun _ r hr _ => ?_⟩
        obtain rfl := Option.some.inj hr
        simpa using hopen
    · refine ⟨rfl, fun _ r hr hlimit => ?_⟩
      obtain rfl := Option.some.inj hr
      exact absurd hlimit hfailures

theorem retryNow_avoids {e : Failure} : ∀ row, (retryNow row).Avoids e
  | none => .pure
  | some row => by
    refine Tx.Avoids.ite (Tx.Avoids.clockTimestamp.bind fun t => .ite ?_ .pure) .pure
    exact Tx.Avoids.clockTimestamp.bind fun t => .pure

theorem run_busyNow {row : Option PasswordAttemptRow} {busy : Bool}
    (h : (busyNow row).run w = .ok (busy, w')) : w'.state = w.state := by
  cases row with
  | none =>
    simp only [busyNow, Tx.run_pure] at h
    obtain ⟨-, rfl⟩ := h
    rfl
  | some row =>
    simp only [busyNow, Tx.run_bind, Tx.run_clockTimestamp, Tx.run_pure] at h
    obtain ⟨_, _, ⟨-, rfl⟩, -, rfl⟩ := h
    rfl

theorem busyNow_avoids {e : Failure} : ∀ row, (busyNow row).Avoids e
  | none => .pure
  | some _ => Tx.Avoids.clockTimestamp.bind fun _ => .pure

theorem rateLimited_avoids {retry : ℤ} :
    (Tx.ofExcept (rateLimited retry) : Action AuthorityError).Avoids .constraint := by
  intro w h
  have h := Tx.run_ofExcept_error.mp h
  unfold rateLimited at h
  split at h <;> cases h

/-- Admission deletes rows at most. An admitted login that stands at the limit of failures
has outlived its window. -/
theorem run_admitPassword {login : Digest} {source : String} {r : Except AuthorityError Attempt}
    (h : (admitPassword login source).run w = .ok (r, w')) :
    (∃ p q, w'.state = { w.state with
      attempts := w.state.attempts.deleteWhere p
      passwordAttempts := w.state.passwordAttempts.deleteWhere q }) ∧
    ∀ a, r = .ok a → 0 ≤ a.count ∧ ∀ row, w'.state.passwordAttempts.find? login = some row →
      row.failures = passwordFailureLimit → row.windowOpen w'.clock = false := by
  simp only [admitPassword, Tx.run_bind, Tx.run_find] at h
  obtain ⟨_, w₁, hcleanup, a, w₂, hattempt, _, _, ⟨rfl, rfl⟩, retry, w₃, hretry, busy, w₄, hbusy,
    h⟩ := h
  obtain ⟨p, q, h₁⟩ := run_cleanup hcleanup
  obtain ⟨h₂, hcount, -⟩ := run_attempt hattempt
  obtain ⟨h₃, hwindow⟩ := run_retryNow hretry
  have h₄ := run_busyNow hbusy
  have hstate : w₄.state = { w.state with
      attempts := w.state.attempts.deleteWhere p
      passwordAttempts := w.state.passwordAttempts.deleteWhere q } := by
    rw [h₄, h₃, h₂, h₁]
  have hclock : w₃.clock ≤ w₄.clock := ((busyNow _).advances _ _ _ hbusy).clock
  simp only [Tx.run_ite, Tx.run_bind, Tx.run_ofExcept, Tx.run_pure, totalAttempts,
    Tx.run_query] at h
  rcases h with ⟨-, _, _, ⟨-, rfl⟩, rfl, rfl⟩ | ⟨hretry', h⟩
  · exact ⟨⟨p, q, hstate⟩, by simp⟩
  · rcases h with ⟨-, rfl, rfl⟩ | ⟨-, _, _, ⟨-, rfl⟩, h⟩
    · exact ⟨⟨p, q, hstate⟩, by simp⟩
    · rcases h with ⟨-, rfl, rfl⟩ | ⟨-, rfl, rfl⟩
      · exact ⟨⟨p, q, hstate⟩, by simp⟩
      · refine ⟨⟨p, q, hstate⟩, ?_⟩
        rintro _ ⟨rfl⟩
        refine ⟨hcount, fun row hrow hlimit => windowOpen_mono hclock ?_⟩
        refine hwindow (by omega) row ?_ hlimit
        rwa [Tables.passwordAttempts_get, ← h₃, ← h₄]

theorem admitPassword_avoids {login : Digest} {source : String} :
    (admitPassword login source).Avoids .constraint := by
  refine cleanup_avoids.bind fun _ => attempt_avoids.bind fun a => ?_
  refine Tx.Avoids.query.bind fun row => (retryNow_avoids row).bind fun retry => ?_
  refine (busyNow_avoids row).bind fun busy => .ite ?_ (.ite .pure ?_)
  · exact rateLimited_avoids.bind fun _ => .pure
  · exact Tx.Avoids.query.bind fun total => .ite .pure .pure

/-- A claim keeps the row's checks unless the window ends between the two readings that
decide the failures and the window. -/
theorem claimed_check_iff {row : PasswordAttemptRow} {t₁ t₂ : ℤ} (token : Uuid) (claimUntil : ℤ)
    (hcheck : Keyed.Check row) (hle : t₁ ≤ t₂) :
    Keyed.Check (row.claimed t₁ t₂ token claimUntil) ↔
      ¬ ∃ until' ∈ row.windowUntil, t₁ < until' ∧ until' ≤ t₂ := by
  obtain ⟨⟨hmin, hmax⟩, hwindow, -⟩ := hcheck
  cases huntil : row.windowUntil with
  | none =>
    have hzero : row.failures = 0 := hwindow.mpr huntil
    simp [Keyed.Check, PasswordAttemptRow.claimed, PasswordAttemptRow.windowOpen, huntil]
  | some until' =>
    have hne : row.failures ≠ 0 := fun h => by simp [hwindow.mp h] at huntil
    simp only [Keyed.Check, PasswordAttemptRow.claimed, PasswordAttemptRow.windowOpen, huntil,
      Option.any_some, decide_eq_true_eq, reduceCtorEq, Option.mem_some_iff, exists_eq_left']
    by_cases h₁ : t₁ < until'
    · by_cases h₂ : t₂ < until'
      · simp [h₁, h₂, hmin, hmax, hne]
      · simp [h₁, h₂, hmin, hmax, hne, not_lt.mp h₂]
    · simp [h₁, show ¬ t₂ < until' by omega]

/-- The window of the login's row ends between the two clock readings a claim decides by. -/
def WindowEndsInside (login : Digest) (w : Tenant) : Prop :=
  ∃ row until', w.state.passwordAttempts.find? login = some row ∧
    row.windowUntil = some until' ∧ w.tick.tick.clock < until' ∧
    until' ≤ w.tick.tick.tick.clock

/-- A claim violates a constraint exactly when the window ends inside it. -/
theorem claimRow_aborts_iff {login : Digest} {token : Uuid} {lease : ℤ} :
    (claimRow login token lease).run w = .error .constraint ↔ WindowEndsInside login w := by
  simp only [claimRow, Tx.run_bind_error, Tx.run_clockTimestamp_error, Tx.find,
    Tx.run_query_error, Tx.run_clockTimestamp, Tx.run_query, false_or, Tables.passwordAttempts_get]
  have hle : w.tick.tick.clock ≤ w.tick.tick.tick.clock := World.clock_le_tick _
  cases hrow : w.state.passwordAttempts.find? login with
  | none =>
    have hno : ¬ WindowEndsInside login w := by
      rintro ⟨row, _, h, -⟩
      rw [hrow] at h
      cases h
    simp only [hno, iff_false, not_exists, not_and]
    rintro _ _ ⟨rfl, rfl⟩ _ _ ⟨rfl, rfl⟩ h
    simp only [World.tick_state, hrow, Tx.run_insertInto_error, Tables.passwordAttempts_get,
      Tables.passwordAttempts_put, Option.bind_eq_none_iff, reduceCtorEq, imp_false, and_true] at h
    have hnone := Option.eq_none_iff_forall_ne_some.mpr fun t => h t
    refine Table.insert_eq_none.mp hnone ⟨by simp [Keyed.Check], fun s hs => ⟨?_, not_false, not_false⟩⟩
    exact (Table.find?_eq_none.mp hrow s hs).symm
  | some row =>
    obtain ⟨hmem, rfl⟩ := Table.find?_eq_some.mp hrow
    have hcheck := claimed_check_iff token (w.tick.clock + lease)
      (Table.check_of_mem hmem) hle
    constructor
    · rintro ⟨_, _, ⟨rfl, rfl⟩, _, _, ⟨rfl, rfl⟩, h⟩
      simp only [World.tick_state, hrow, Tx.run_bind_error, Tx.run_clockTimestamp_error,
        Tx.run_clockTimestamp, Tx.run_updateIn_error, Tx.run_pure_error, Tables.passwordAttempts_get,
        Tables.passwordAttempts_put, Option.bind_eq_none_iff, reduceCtorEq, imp_false, false_or,
        and_true, and_false, exists_false, or_false] at h
      obtain ⟨_, _, ⟨rfl, rfl⟩, _, _, ⟨rfl, rfl⟩, h⟩ := h
      have hnone := Option.eq_none_iff_forall_ne_some.mpr fun t => h t
      obtain ⟨r, hr, hkey, hbad⟩ := (Table.updateWhere_eq_none (by intro _; rfl)
        (by intro _ _; exact not_false)).mp hnone
      obtain rfl := Table.eq_of_key hr hmem (by simpa using hkey)
      obtain ⟨until', huntil, hlt, hge⟩ := not_not.mp (mt hcheck.mpr hbad)
      exact ⟨r, until', hrow, huntil, hlt, hge⟩
    · rintro ⟨r, until', hr, huntil, hlt, hge⟩
      obtain rfl := Option.some.inj (hrow.symm.trans hr)
      refine ⟨_, _, ⟨rfl, rfl⟩, _, _, ⟨rfl, rfl⟩, ?_⟩
      simp only [World.tick_state, hrow, Tx.run_bind_error, Tx.run_clockTimestamp_error,
        Tx.run_clockTimestamp, Tx.run_updateIn_error, Tx.run_pure_error, Tables.passwordAttempts_get,
        Tables.passwordAttempts_put, false_or, and_true, and_false, exists_false, or_false]
      refine ⟨_, _, ⟨rfl, rfl⟩, _, _, ⟨rfl, rfl⟩, ?_⟩
      rw [Option.bind_eq_none_iff]
      intro t ht
      have hbad : ¬ Keyed.Check (row.claimed w.tick.tick.clock w.tick.tick.tick.clock token
          (w.tick.clock + lease)) := fun h => hcheck.mp h ⟨until', huntil, hlt, hge⟩
      have hnone := (Table.updateWhere_eq_none (t := w.state.passwordAttempts)
        (p := fun r => decide (Keyed.key r = Keyed.key row))
        (f := fun r => r.claimed w.tick.tick.clock w.tick.tick.tick.clock token
          (w.tick.clock + lease)) (by intro _; rfl) (by intro _ _; exact not_false)).mpr
        ⟨row, hmem, by simp, hbad⟩
      rw [World.tick_state, World.tick_state, World.tick_state] at ht
      simp [hnone] at ht

/-- What a claim leaves: its token on the login's row, whose failures were kept or reset. -/
theorem run_claimRow {login : Digest} {token : Uuid} {lease : ℤ} {u : Unit}
    (h : (claimRow login token lease).run w = .ok (u, w')) :
    ∃ t, w'.state = { w.state with passwordAttempts := t } ∧ ∀ row ∈ t,
      (row ∈ w.state.passwordAttempts ∧ row.loginDigest ≠ login) ∨
      (row.loginDigest = login ∧ row.claimToken = some token ∧ (row.failures = 0 ∨
        ∃ r, w.state.passwordAttempts.find? login = some r ∧ row.failures = r.failures ∧
          r.windowOpen w.tick.tick.clock = true)) := by
  simp only [claimRow, Tx.run_bind, Tx.run_clockTimestamp, Tx.run_find,
    Tables.passwordAttempts_get] at h
  obtain ⟨_, _, ⟨rfl, rfl⟩, _, _, ⟨rfl, rfl⟩, h⟩ := h
  simp only [World.tick_state] at h
  cases hrow : w.state.passwordAttempts.find? login with
  | none =>
    simp only [hrow, Tx.run_insertInto, Tables.passwordAttempts_put, Tables.passwordAttempts_get,
      Option.some.injEq] at h
    obtain ⟨t, _, hinsert, rfl, rfl⟩ := h
    refine ⟨t, rfl, fun row hr => ?_⟩
    rcases (Table.mem_insert hinsert).mp hr with rfl | hr
    · exact .inr ⟨rfl, rfl, .inl rfl⟩
    · exact .inl ⟨hr, Table.find?_eq_none.mp hrow row hr⟩
  | some r =>
    simp only [hrow, Tx.run_bind, Tx.run_clockTimestamp, Tx.run_updateIn, Tx.run_pure,
      Tables.passwordAttempts_put, Tables.passwordAttempts_get, Option.some.injEq] at h
    obtain ⟨_, _, ⟨rfl, rfl⟩, _, _, ⟨rfl, rfl⟩, _, _, ⟨t, _, hupdate, rfl, -, rfl⟩, -, rfl⟩ := h
    refine ⟨t, rfl, fun row hr => ?_⟩
    obtain ⟨r', hr', rfl⟩ := (Table.mem_updateWhere hupdate).mp hr
    by_cases hkey : Keyed.key r' = login
    · have hfind : w.state.passwordAttempts.find? login = some r' :=
        Table.find?_eq_some.mpr ⟨hr', hkey⟩
      rw [if_pos (by simpa using hkey)]
      refine .inr ⟨hkey, rfl, ?_⟩
      by_cases hopen : r'.windowOpen w.tick.tick.clock = true
      · exact .inr ⟨r', hrow ▸ hfind, by simp [PasswordAttemptRow.claimed, hopen], hopen⟩
      · exact .inl (by simp [PasswordAttemptRow.claimed, hopen])
    · rw [if_neg (by simpa using hkey)]
      exact .inl ⟨hr', hkey⟩

/-- The claim holds its row at the first clock reading of its settlement. -/
def PasswordClaim.Held (claim : PasswordClaim) (w : Tenant) : Prop :=
  ∃ row until', w.state.passwordAttempts.find? claim.login = some row ∧
    row.claimToken = some claim.token ∧ row.claimUntil = some until' ∧ w.tick.clock < until'

theorem run_ownedNow {claim : PasswordClaim} {owned : Bool}
    (h : (ownedNow claim).run w = .ok (owned, w')) :
    w'.state = w.state ∧ (owned = true → claim.Held w) := by
  simp only [ownedNow, Tx.run_bind, Tx.run_find, Tables.passwordAttempts_get] at h
  obtain ⟨_, _, ⟨rfl, rfl⟩, h⟩ := h
  cases hrow : w.state.passwordAttempts.find? claim.login with
  | none =>
    simp only [hrow, Tx.run_pure] at h
    obtain ⟨rfl, rfl⟩ := h
    exact ⟨rfl, by simp⟩
  | some row =>
    simp only [hrow, Tx.run_ite, Tx.run_bind, Tx.run_clockTimestamp, Tx.run_pure] at h
    rcases h with ⟨htoken, _, _, ⟨rfl, rfl⟩, rfl, rfl⟩ | ⟨-, rfl, rfl⟩
    · refine ⟨rfl, fun howned => ?_⟩
      obtain ⟨until', huntil, hlt⟩ := (Option.any_eq_true _ _).mp howned
      exact ⟨row, until', hrow, htoken, huntil, by simpa using hlt⟩
    · exact ⟨rfl, by simp⟩

theorem ownedNow_avoids {claim : PasswordClaim} {e : Failure} : (ownedNow claim).Avoids e := by
  refine Tx.Avoids.query.bind fun row => ?_
  cases row with
  | none => exact .pure
  | some row => exact .ite (Tx.Avoids.clockTimestamp.bind fun _ => .pure) .pure

/-- The row of a failure keeps the checks if the claimed row was below the limit. -/
theorem failed_check {row : PasswordAttemptRow} {t₁ t₂ t₃ : ℤ} (hmin : 0 ≤ row.failures)
    (hmax : row.failures < passwordFailureLimit) : Keyed.Check (row.failed t₁ t₂ t₃) := by
  have hsome : (row.failed t₁ t₂ t₃).windowUntil ≠ none := by
    simp only [PasswordAttemptRow.failed]
    split
    · rename_i hopen
      intro hnone
      simp [PasswordAttemptRow.windowOpen, hnone] at hopen
    · simp
  have hfailures : 1 ≤ (row.failed t₁ t₂ t₃).failures ∧
      (row.failed t₁ t₂ t₃).failures ≤ 5 := by
    simp only [PasswordAttemptRow.failed, passwordFailureLimit] at hmax ⊢
    split <;> omega
  refine ⟨by omega, ⟨fun h => ?_, fun h => absurd h hsome⟩, by simp [PasswordAttemptRow.failed]⟩
  omega

/-- Only the row of the claim is touched, and it loses its token or disappears. -/
structure Released (claim : PasswordClaim) (w w' : Tenant) : Prop where
  frame : ∃ t, w'.state = { w.state with passwordAttempts := t }
  others : ∀ d ≠ claim.login,
    w'.state.passwordAttempts.find? d = w.state.passwordAttempts.find? d
  released : ∀ row ∈ w'.state.passwordAttempts,
    row ∈ w.state.passwordAttempts ∨ row.claimToken = none

/-- An update of the claim's row that gives the token up releases the claim. -/
theorem released_of_update {claim : PasswordClaim} {f : PasswordAttemptRow → PasswordAttemptRow}
    {t : Table PasswordAttemptRow} (hkey : ∀ row, Keyed.key (f row) = Keyed.key row)
    (htoken : ∀ row, (f row).claimToken = none)
    (h : w.state.passwordAttempts.updateWhere claim.owns f = some t)
    (hstate : w'.state = { w.state with passwordAttempts := t }) : Released claim w w' := by
  refine ⟨⟨t, hstate⟩, fun d hd => ?_, fun row hr => ?_⟩
  · rw [hstate]
    change t.find? d = _
    rw [Table.find?_updateWhere h hkey]
    cases hfind : w.state.passwordAttempts.find? d with
    | none => rfl
    | some r =>
      have hne : r.loginDigest ≠ claim.login := by
        have := Table.key_of_find? hfind
        exact fun h' => hd (this.symm.trans h')
      simp [PasswordClaim.owns, hne]
  · rw [hstate] at hr
    obtain ⟨r, hmem, rfl⟩ := (Table.mem_updateWhere h).mp hr
    split
    · exact .inr (htoken r)
    · exact .inl hmem

theorem released_of_delete {claim : PasswordClaim}
    (hstate : w'.state = { w.state with
      passwordAttempts := w.state.passwordAttempts.deleteWhere claim.owns }) :
    Released claim w w' := by
  refine ⟨⟨_, hstate⟩, fun d hd => ?_, fun row hr => ?_⟩
  · rw [hstate]
    refine Option.ext fun r => ?_
    rw [Table.find?_deleteWhere_eq_some]
    refine and_iff_left_of_imp fun hfind => ?_
    have hne : r.loginDigest ≠ claim.login := fun h' =>
      hd ((Table.key_of_find? hfind).symm.trans h')
    simp [PasswordClaim.owns, hne]
  · rw [hstate] at hr
    exact .inl (Table.mem_deleteWhere.mp hr).1

theorem run_countFailure {claim : PasswordClaim} {u : Unit}
    (h : (countFailure claim).run w = .ok (u, w')) : Released claim w w' := by
  simp only [countFailure, Tx.run_bind, Tx.run_clockTimestamp, Tx.run_find, Tx.run_ite,
    Tx.run_updateIn, Tx.run_pure, Tables.passwordAttempts_put, Tables.passwordAttempts_get,
    Option.some.injEq] at h
  obtain ⟨_, _, ⟨rfl, rfl⟩, _, _, ⟨rfl, rfl⟩, _, _, ⟨rfl, rfl⟩, t₃, w₁, hread, _, _,
    ⟨t, _, hupdate, rfl, -, rfl⟩, -, rfl⟩ := h
  have hstate : w₁.state = w.state := by
    rcases hread with ⟨-, -, rfl⟩ | ⟨-, -, rfl⟩ <;> rfl
  rw [hstate] at hupdate
  exact released_of_update (by intro _; rfl) (by intro _; rfl) hupdate (by simp [hstate])

/-- A settlement changes something only while its claim holds the row, and then nothing
but that row, which it releases. -/
theorem run_settlePassword {claim : PasswordClaim}
    {outcome r : Except AuthorityError AuthenticationCandidate}
    (h : (settlePassword env claim outcome).run w = .ok (r, w')) :
    w'.state = w.state ∨ claim.Held w ∧ Released claim w w' := by
  simp only [settlePassword, Tx.run_bind, Tx.run_ite, Tx.run_pure] at h
  obtain ⟨owned, w₁, howned, h⟩ := h
  obtain ⟨hstate, hheld⟩ := run_ownedNow howned
  rcases h with ⟨-, -, rfl⟩ | ⟨hnot, h⟩
  · exact .inl hstate
  · have hheld := hheld (by simpa using hnot)
    refine .inr ⟨hheld, ?_⟩
    have hlift : Released claim w₁ w' → Released claim w w' := fun hr =>
      ⟨by simpa only [hstate] using hr.frame, by simpa only [hstate] using hr.others,
        by simpa only [hstate] using hr.released⟩
    cases outcome with
    | ok candidate =>
      simp only [Tx.run_bind, Tx.run_deleteFrom, Tx.run_pure, Tables.passwordAttempts_put,
        Tables.passwordAttempts_get, Option.some.injEq] at h
      obtain ⟨_, w₂, hcurrent, _, _, ⟨_, rfl, -, rfl⟩, -, rfl⟩ := h
      obtain ⟨rfl, -⟩ := run_current hcurrent
      exact hlift (released_of_delete rfl)
    | error error =>
      simp only [failClaim, Tx.run_bind, Tx.run_ite, Tx.run_updateIn, Tx.run_pure,
        Tables.passwordAttempts_put, Tables.passwordAttempts_get, Option.some.injEq] at h
      obtain ⟨_, w₂, ⟨-, hcount⟩ | ⟨-, _, _, ⟨t, _, hupdate, rfl, -, rfl⟩, -, rfl⟩, -, rfl⟩ := h
      · exact hlift (run_countFailure hcount)
      · exact hlift (released_of_update (by intro _; rfl) (by intro _; rfl) hupdate rfl)

/-- Claimed rows stand below the limit of failures. -/
def ClaimedBelowLimit (db : Db) : Prop :=
  ∀ row ∈ db.passwordAttempts, row.claimToken.isSome = true → row.failures < passwordFailureLimit

/-- Where claimed rows stand below the limit, no settlement violates a constraint. -/
theorem settlePassword_avoids {claim : PasswordClaim}
    {outcome : Except AuthorityError AuthenticationCandidate}
    (hbelow : ClaimedBelowLimit w.state) :
    (settlePassword env claim outcome).run w ≠ .error .constraint := by
  intro h
  have hcurrent : ∀ candidate, (current env candidate).Avoids .constraint := by
    intro candidate w h
    simp [current, load, Tx.find, Tx.run_bind_error, Tx.run_require_error, Tx.run_demand_error,
      Tx.run_query_error, Tx.run_pure_error] at h
  rcases Tx.run_bind_error.mp h with h | ⟨owned, w₁, howned, h⟩
  · exact ownedNow_avoids w h
  · obtain ⟨hstate, -⟩ := run_ownedNow howned
    split at h
    · exact Tx.run_pure_error.mp h
    · cases outcome with
      | ok candidate =>
        refine (hcurrent candidate).bind (fun _ => ?_) w₁ h
        exact (Tx.Avoids.deleteFrom (by simp)).bind fun _ => .pure
      | error error =>
        rcases Tx.run_bind_error.mp h with h | ⟨_, _, -, h⟩
        swap
        · exact Tx.run_pure_error.mp h
        unfold failClaim at h
        split at h
        · simp only [countFailure, Tx.run_bind_error, Tx.run_clockTimestamp_error, Tx.find,
            Tx.run_query_error, Tx.run_clockTimestamp, Tx.run_query, Tx.run_updateIn_error,
            Tx.run_pure_error, Tables.passwordAttempts_get, Tables.passwordAttempts_put,
            Option.bind_eq_none_iff, reduceCtorEq, imp_false, false_or, and_true, and_false,
            exists_false, or_false] at h
          obtain ⟨_, _, ⟨rfl, rfl⟩, _, _, ⟨rfl, rfl⟩, _, _, ⟨rfl, rfl⟩, h⟩ := h
          rcases h with h | ⟨t₃, w₂, hread, h⟩
          · split at h
            · exact Tx.run_clockTimestamp_error.mp h
            · exact Tx.run_pure_error.mp h
          · have hstate₂ : w₂.state = w₁.state := by
              rcases Tx.run_ite.mp hread with ⟨-, hread⟩ | ⟨-, hread⟩
              · exact (Tx.run_clockTimestamp.mp hread).2 ▸ rfl
              · exact (Tx.run_pure.mp hread).2 ▸ rfl
            have hnone := Option.eq_none_iff_forall_ne_some.mpr fun t => h t
            rw [hstate₂, hstate] at hnone
            obtain ⟨row, hr, howns, hbad⟩ := (Table.updateWhere_eq_none (by intro _; rfl)
              (by intro _ _; exact not_false)).mp hnone
            have htoken : row.claimToken = some claim.token := by
              simpa using (of_decide_eq_true howns).2
            have hcheck : Keyed.Check row := Table.check_of_mem hr
            exact hbad (failed_check hcheck.1.1 (hbelow row hr (by simp [htoken])))
        · rcases Tx.run_bind_error.mp h with h | ⟨_, _, -, h⟩
          swap
          · exact Tx.run_pure_error.mp h
          simp only [Tx.run_updateIn_error, Tables.passwordAttempts_get,
            Tables.passwordAttempts_put, Option.bind_eq_none_iff, reduceCtorEq, imp_false,
            and_true] at h
          have hnone := Option.eq_none_iff_forall_ne_some.mpr fun t => h t
          obtain ⟨row, hr, -, hbad⟩ := (Table.updateWhere_eq_none (by intro _; rfl)
            (by intro _ _; exact not_false)).mp hnone
          have hcheck : Keyed.Check row := Table.check_of_mem hr
          exact hbad ⟨hcheck.1, hcheck.2.1, by simp⟩

/-- Before its row is written, a claim violates no constraint. -/
theorem prepareClaim_avoids {login : Digest} {source : String} :
    (prepareClaim env login source).Avoids .constraint := by
  intro w h
  rcases Tx.run_bind_error.mp h with h | ⟨admitted, w₁, hadmit, h⟩
  · exact admitPassword_avoids w h
  · cases admitted with
    | error refusal => exact Tx.run_pure_error.mp h
    | ok a =>
      obtain ⟨-, hadmitted⟩ := run_admitPassword hadmit
      refine ((consume_avoids (hadmitted a rfl).1).bind fun _ => ?_) w₁ h
      exact (Tx.Avoids.random.bind fun _ => .pure).bind fun _ => .pure

/-- A prepared claim has deleted rows at most; its token is the value just drawn, and a
login at the limit of failures has outlived its window. -/
theorem run_prepareClaim {login : Digest} {source : String} {r : Except AuthorityError Uuid}
    (h : (prepareClaim env login source).run w = .ok (r, w')) :
    (∃ q, w'.state.passwordAttempts = w.state.passwordAttempts.deleteWhere q) ∧
    ∀ token, r = .ok token →
      (∃ n, w.drawn ≤ n ∧ n < w'.drawn ∧ token = Uuid.newV4 (env.entropy.draw n)) ∧
      ∀ row, w'.state.passwordAttempts.find? login = some row →
        row.failures = passwordFailureLimit → row.windowOpen w'.clock = false := by
  simp only [prepareClaim, Tx.run_bind] at h
  obtain ⟨admitted, w₁, hadmit, h⟩ := h
  obtain ⟨⟨p, q, hstate⟩, hadmitted⟩ := run_admitPassword hadmit
  cases admitted with
  | error refusal =>
    obtain ⟨rfl, rfl⟩ := Tx.run_pure.mp h
    exact ⟨⟨q, by rw [hstate]⟩, by simp⟩
  | ok a =>
    simp only [Tx.run_bind, run_newV4, Tx.run_pure] at h
    obtain ⟨_, w₂, hconsume, token, _, ⟨rfl, rfl⟩, rfl, rfl⟩ := h
    obtain ⟨t, hconsumed⟩ := run_consume hconsume
    have hadvances := a.consume.advances _ _ _ hconsume
    have htable : w₂.state.passwordAttempts = w₁.state.passwordAttempts := by rw [hconsumed]
    refine ⟨⟨q, by rw [htable, hstate]⟩, ?_⟩
    rintro _ ⟨rfl⟩
    have hdrawn := (admitPassword login source).advances _ _ _ hadmit
    refine ⟨⟨w₂.drawn, hdrawn.drawn.trans hadvances.drawn, Nat.lt_succ_self _, rfl⟩, ?_⟩
    intro row hrow hlimit
    refine windowOpen_mono hadvances.clock ((hadmitted a rfl).2 row ?_ hlimit)
    rwa [← htable]

/-- The window of the login ends inside the statement that writes the claim. -/
def ClaimStraddlesWindow (env : Env) (login source : String) (w : Tenant) : Prop :=
  ∃ token w₁, (prepareClaim env (env.sha256.text login) source).run w = .ok (.ok token, w₁) ∧
    WindowEndsInside (env.sha256.text login) w₁

/-- A claim is aborted by a constraint exactly when the window ends inside its write. -/
theorem claimPassword_aborts_iff {login source : String} {lease : ℤ} :
    (claimPassword env login source lease).run w = .error .constraint ↔
      ClaimStraddlesWindow env login source w := by
  rw [claimPassword, Tx.run_bind_error, or_iff_right (prepareClaim_avoids w)]
  constructor
  · rintro ⟨prepared, w₁, hprepare, h⟩
    cases prepared with
    | error refusal => exact absurd h fun h => Tx.run_pure_error.mp h
    | ok token =>
      rcases Tx.run_bind_error.mp h with h | ⟨_, _, -, h⟩
      · exact ⟨token, w₁, hprepare, claimRow_aborts_iff.mp h⟩
      · exact absurd h fun h => Tx.run_pure_error.mp h
  · rintro ⟨token, w₁, hprepare, hends⟩
    exact ⟨.ok token, w₁, hprepare, Tx.run_bind_error.mpr (.inl (claimRow_aborts_iff.mpr hends))⟩

/-- A claim keeps claimed rows below the limit, and its token is the value it drew. -/
theorem run_claimPassword {login source : String} {lease : ℤ}
    {r : Except AuthorityError PasswordClaim} (hbelow : ClaimedBelowLimit w.state)
    (h : (claimPassword env login source lease).run w = .ok (r, w')) :
    ClaimedBelowLimit w'.state ∧ ∀ claim, r = .ok claim →
      ∃ n, w.drawn ≤ n ∧ n < w'.drawn ∧ claim.token = Uuid.newV4 (env.entropy.draw n) := by
  simp only [claimPassword, Tx.run_bind] at h
  obtain ⟨prepared, w₁, hprepare, h⟩ := h
  obtain ⟨⟨q, htable⟩, hprepared⟩ := run_prepareClaim hprepare
  have hbelow₁ : ClaimedBelowLimit w₁.state := by
    intro row hr
    rw [htable] at hr
    exact hbelow row (Table.mem_deleteWhere.mp hr).1
  cases prepared with
  | error refusal =>
    obtain ⟨rfl, rfl⟩ := Tx.run_pure.mp h
    exact ⟨hbelow₁, by simp⟩
  | ok token =>
    simp only [Tx.run_bind, Tx.run_pure] at h
    obtain ⟨_, w₂, hclaim, rfl, rfl⟩ := h
    obtain ⟨t, hstate, hrows⟩ := run_claimRow hclaim
    obtain ⟨⟨n, hle, hlt, htoken⟩, hlimit⟩ := hprepared token rfl
    have hdrawn := (claimRow _ token lease).advances _ _ _ hclaim
    refine ⟨?_, ?_⟩
    · intro row hr hsome
      rw [hstate] at hr
      rcases hrows row hr with ⟨hr, -⟩ | ⟨-, -, hzero | ⟨r, hfind, hfailures, hopen⟩⟩
      · exact hbelow₁ row hr hsome
      · rw [hzero]
        decide
      · have hcheck : Keyed.Check r := Table.check_of_mem (Table.mem_of_find? hfind)
        have hclosed : r.failures ≠ passwordFailureLimit := by
          intro h
          have hle : w₁.clock ≤ w₁.tick.tick.clock :=
            (World.clock_le_tick _).trans (World.clock_le_tick _)
          rw [windowOpen_mono hle (hlimit r hfind h)] at hopen
          cases hopen
        have hmax := hcheck.1.2
        unfold passwordFailureLimit at hclosed ⊢
        omega
    · rintro _ ⟨rfl⟩
      exact ⟨n, hle, lt_of_lt_of_le hlt hdrawn.drawn, htoken⟩

/-- A transaction on the password attempts of the tenant. -/
inductive PasswordCall
  | claim (login source : String) (lease : ℤ)
  | settle (claim : PasswordClaim) (outcome : Except AuthorityError AuthenticationCandidate)
  | clear (key : AccountKey)
  | reserve (source scope : String)
  | cleanup

namespace PasswordCall

/-- The transaction of a call, with the claim it hands out. -/
def transaction (env : Env) : PasswordCall → Action (Option PasswordClaim)
  | claim login source lease => do
    let r ← claimPassword env login source lease
    pure r.toOption
  | settle permission outcome => do
    let _ ← settlePassword env permission outcome
    pure none
  | clear key => do
    clearAttempts env key
    pure none
  | reserve source scope => do
    let _ ← IdentityAuthority.reserve source scope
    pure none
  | cleanup => do
    IdentityAuthority.cleanup
    pure none

/-- The claims still held once the call was made: a settlement uses its claim up. -/
def remaining (held : List PasswordClaim) : PasswordCall → List PasswordClaim
  | settle permission _ => held.filter fun c => decide (c ≠ permission)
  | _ => held

/-- A settlement is made with a claim that is held. -/
def Admissible (held : List PasswordClaim) : PasswordCall → Prop
  | settle permission _ => permission ∈ held
  | _ => True

end PasswordCall

/-- The tenant, and the claims that calls hold on it. -/
structure PasswordState where
  world : Tenant
  held : List PasswordClaim

/-- What one step did: a call with the time that passed at its clock readings and the
failure it met, or anything that does not concern the password attempts. -/
inductive PasswordLabel
  | call (call : PasswordCall) (delays : List ℕ) (failure : Option Failure)
  | elsewhere

/-- The steps of the tenant's password attempts. -/
inductive PasswordStep (env : Env) : PasswordState → PasswordLabel → PasswordState → Prop
  | commit {s : PasswordState} {call : PasswordCall} {delays : List ℕ}
      {new : Option PasswordClaim} {w' : Tenant} :
      call.Admissible s.held →
      (call.transaction env).run { s.world with delays } = .ok (new, w') →
      PasswordStep env s (.call call delays none) ⟨w', new.toList ++ call.remaining s.held⟩
  | abort {s : PasswordState} {call : PasswordCall} {delays : List ℕ} {failure : Failure} :
      call.Admissible s.held →
      (call.transaction env).run { s.world with delays } = .error failure →
      PasswordStep env s (.call call delays (some failure)) ⟨s.world, call.remaining s.held⟩
  | elsewhere {s : PasswordState} {w' : Tenant} :
      w'.state.passwordAttempts = s.world.state.passwordAttempts → s.world.Advances w' →
      PasswordStep env s .elsewhere ⟨w', s.held⟩

/-- What holds between steps: claimed rows stand below the limit of failures, and the held
claims carry different tokens, all drawn before. -/
structure PasswordState.Inv (env : Env) (s : PasswordState) : Prop where
  below : ClaimedBelowLimit s.world.state
  drawn : ∀ claim ∈ s.held, ∃ n < s.world.drawn, claim.token = Uuid.newV4 (env.entropy.draw n)
  distinct : ∀ claim ∈ s.held, ∀ claim' ∈ s.held, claim.token = claim'.token → claim = claim'

variable {s s' start : PasswordState} {call : PasswordCall}

theorem PasswordCall.mem_of_remaining {held : List PasswordClaim} {claim : PasswordClaim}
    (h : claim ∈ call.remaining held) : claim ∈ held := by
  cases call with
  | settle permission outcome => exact (List.mem_filter.mp h).1
  | claim | clear | reserve | cleanup => exact h

/-- Deleting rows or releasing claims keeps claimed rows below the limit. -/
theorem ClaimedBelowLimit.of_rows {db db' : Db} (h : ClaimedBelowLimit db)
    (hrows : ∀ row ∈ db'.passwordAttempts, row ∈ db.passwordAttempts ∨ row.claimToken = none) :
    ClaimedBelowLimit db' := by
  intro row hr hsome
  rcases hrows row hr with hr | hnone
  · exact h row hr hsome
  · simp [hnone] at hsome

theorem run_reserve {source scope : String} {r : Except AuthorityError Unit}
    (h : (reserve source scope).run w = .ok (r, w')) :
    ∃ q, w'.state.passwordAttempts = w.state.passwordAttempts.deleteWhere q := by
  simp only [reserve, Tx.run_bind] at h
  obtain ⟨_, w₁, hcleanup, a, w₂, ha, b, w₃, hb, h⟩ := h
  obtain ⟨p, q, h₁⟩ := run_cleanup hcleanup
  have h₃ : w₃.state.passwordAttempts = w.state.passwordAttempts.deleteWhere q := by
    rw [(run_attempt hb).1, (run_attempt ha).1, h₁]
  simp only [Tx.run_ite, Tx.run_bind, Tx.run_ofExcept, Tx.run_pure, totalAttempts,
    Tx.run_query] at h
  rcases h with ⟨-, _, _, ⟨-, rfl⟩, -, rfl⟩ | ⟨-, _, _, ⟨-, rfl⟩, h⟩
  · exact ⟨q, h₃⟩
  · rcases h with ⟨-, -, rfl⟩ | ⟨-, _, w₄, hc, _, w₅, hd, -, rfl⟩
    · exact ⟨q, h₃⟩
    · obtain ⟨t, h₄⟩ := run_consume hc
      obtain ⟨t', h₅⟩ := run_consume hd
      exact ⟨q, by rw [h₅, h₄, ← h₃]⟩

theorem reserve_avoids {source scope : String} : (reserve source scope).Avoids .constraint := by
  intro w h
  rcases Tx.run_bind_error.mp h with h | ⟨_, w₁, -, h⟩
  · exact cleanup_avoids w h
  rcases Tx.run_bind_error.mp h with h | ⟨a, w₂, ha, h⟩
  · exact attempt_avoids w₁ h
  rcases Tx.run_bind_error.mp h with h | ⟨b, w₃, hb, h⟩
  · exact attempt_avoids w₂ h
  refine Tx.Avoids.ite (rateLimited_avoids.bind fun _ => .pure) ?_ w₃ h
  refine Tx.Avoids.query.bind fun total => .ite .pure ?_
  refine (consume_avoids (run_attempt ha).2.1).bind fun _ => ?_
  exact (consume_avoids (run_attempt hb).2.1).bind fun _ => .pure

theorem run_clearAttempts {key : AccountKey} {u : Unit}
    (h : (clearAttempts env key).run w = .ok (u, w')) :
    ∃ q, w'.state = { w.state with
      passwordAttempts := w.state.passwordAttempts.deleteWhere q } := by
  simp only [clearAttempts, Tx.run_bind, Tx.run_select, Tx.run_deleteFrom, Tx.run_pure,
    Tables.passwordAttempts_put, Tables.passwordAttempts_get, Option.some.injEq] at h
  obtain ⟨_, _, ⟨-, rfl⟩, _, _, ⟨_, rfl, -, rfl⟩, -, rfl⟩ := h
  exact ⟨_, rfl⟩

theorem clearAttempts_avoids {key : AccountKey} {e : Failure} :
    (clearAttempts env key).Avoids e :=
  Tx.Avoids.query.bind fun _ => (Tx.Avoids.deleteFrom (by simp)).bind fun _ => .pure

/-- Every committed call keeps claimed rows below the limit, and a claim it hands out
carries a token drawn in the call. -/
theorem run_transaction {new : Option PasswordClaim} (hbelow : ClaimedBelowLimit w.state)
    (h : (call.transaction env).run w = .ok (new, w')) :
    ClaimedBelowLimit w'.state ∧ ∀ claim ∈ new,
      ∃ n, w.drawn ≤ n ∧ n < w'.drawn ∧ claim.token = Uuid.newV4 (env.entropy.draw n) := by
  cases call with
  | claim login source lease =>
    simp only [PasswordCall.transaction, Tx.run_bind, Tx.run_pure] at h
    obtain ⟨r, w₁, hclaim, rfl, rfl⟩ := h
    obtain ⟨hbelow', htoken⟩ := run_claimPassword hbelow hclaim
    refine ⟨hbelow', fun claim hr => htoken claim ?_⟩
    cases r with
    | error e => cases hr
    | ok c => rw [Option.some.inj hr]
  | settle claim outcome =>
    simp only [PasswordCall.transaction, Tx.run_bind, Tx.run_pure] at h
    obtain ⟨r, w₁, hsettle, rfl, rfl⟩ := h
    refine ⟨?_, by simp⟩
    rcases run_settlePassword hsettle with hsame | ⟨-, hreleased⟩
    · rwa [hsame]
    · exact hbelow.of_rows hreleased.released
  | clear key =>
    simp only [PasswordCall.transaction, Tx.run_bind, Tx.run_pure] at h
    obtain ⟨_, w₁, hclear, rfl, rfl⟩ := h
    obtain ⟨q, hstate⟩ := run_clearAttempts hclear
    exact ⟨hbelow.of_rows fun row hr => .inl (Table.mem_deleteWhere.mp (by rwa [hstate] at hr)).1,
      by simp⟩
  | reserve source scope =>
    simp only [PasswordCall.transaction, Tx.run_bind, Tx.run_pure] at h
    obtain ⟨_, w₁, hreserve, rfl, rfl⟩ := h
    obtain ⟨q, hstate⟩ := run_reserve hreserve
    exact ⟨hbelow.of_rows fun row hr => .inl (Table.mem_deleteWhere.mp (by rwa [hstate] at hr)).1,
      by simp⟩
  | cleanup =>
    simp only [PasswordCall.transaction, Tx.run_bind, Tx.run_pure] at h
    obtain ⟨_, w₁, hcleanup, rfl, rfl⟩ := h
    obtain ⟨p, q, hstate⟩ := run_cleanup hcleanup
    exact ⟨hbelow.of_rows fun row hr => .inl (Table.mem_deleteWhere.mp (by rwa [hstate] at hr)).1,
      by simp⟩

/-- Every step keeps the invariant. -/
theorem PasswordStep.inv {label : PasswordLabel} (hinv : s.Inv env)
    (hstep : PasswordStep env s label s') : s'.Inv env := by
  cases hstep with
  | @commit call delays new w' hadmissible hrun =>
    obtain ⟨hbelow, htoken⟩ := run_transaction (w := { s.world with delays }) hinv.below hrun
    have hadvances := (call.transaction env).advances _ _ _ hrun
    have hold : ∀ claim ∈ call.remaining s.held, ∃ n < s.world.drawn,
        claim.token = Uuid.newV4 (env.entropy.draw n) := fun claim hclaim =>
      hinv.drawn claim (PasswordCall.mem_of_remaining hclaim)
    refine ⟨hbelow, fun claim hclaim => ?_, fun claim hclaim claim' hclaim' heq => ?_⟩
    · rcases List.mem_append.mp hclaim with hnew | hclaim
      · obtain ⟨n, -, hlt, htoken⟩ := htoken claim (Option.mem_toList.mp hnew)
        exact ⟨n, hlt, htoken⟩
      · obtain ⟨n, hlt, htoken⟩ := hold claim hclaim
        exact ⟨n, lt_of_lt_of_le hlt hadvances.drawn, htoken⟩
    · -- a token handed out before cannot be drawn again
      have hfresh : ∀ claim ∈ new.toList, ∀ claim' ∈ call.remaining s.held,
          claim.token ≠ claim'.token := by
        intro claim hclaim claim' hclaim' heq
        obtain ⟨n, hle, -, htoken⟩ := htoken claim (Option.mem_toList.mp hclaim)
        obtain ⟨m, hlt, htoken'⟩ := hold claim' hclaim'
        rw [htoken, htoken'] at heq
        obtain rfl := env.entropy.injective (Uuid.newV4_injective heq)
        exact absurd hlt (not_lt.mpr hle)
      rcases List.mem_append.mp hclaim with hnew | hclaim
      · rcases List.mem_append.mp hclaim' with hnew' | hclaim'
        · exact Option.some.inj ((Option.mem_toList.mp hnew).symm.trans (Option.mem_toList.mp hnew'))
        · exact absurd heq (hfresh claim hnew claim' hclaim')
      · rcases List.mem_append.mp hclaim' with hnew' | hclaim'
        · exact absurd heq.symm (hfresh claim' hnew' claim hclaim)
        · exact hinv.distinct claim (PasswordCall.mem_of_remaining hclaim) claim'
            (PasswordCall.mem_of_remaining hclaim') heq
  | abort hadmissible hrun =>
    exact ⟨hinv.below, fun claim hclaim => hinv.drawn claim (PasswordCall.mem_of_remaining hclaim),
      fun claim hclaim claim' hclaim' => hinv.distinct claim
        (PasswordCall.mem_of_remaining hclaim) claim' (PasswordCall.mem_of_remaining hclaim')⟩
  | elsewhere hsame hadvances =>
    refine ⟨fun row hr => hinv.below row (hsame ▸ hr), fun claim hclaim => ?_, hinv.distinct⟩
    obtain ⟨n, hlt, htoken⟩ := hinv.drawn claim hclaim
    exact ⟨n, lt_of_lt_of_le hlt hadvances.drawn, htoken⟩

/-- The event is a claim whose write the window of its login ends in. -/
def StraddlesWindow (env : Env) (e : Event PasswordState PasswordLabel) : Prop :=
  ∃ login source lease delays failure,
    e.label = .call (.claim login source lease) delays failure ∧
      ClaimStraddlesWindow env login source { e.before.world with delays }

/-- What the password attempts promise of a run: no call is aborted by a constraint, every
row keeps its checks, and a settlement changes a row only as the one call that holds the
row's token, before the claim ends. -/
structure PasswordSound (trace : List (Event PasswordState PasswordLabel)) : Prop where
  completes : ∀ e ∈ trace, ∀ call delays, e.label ≠ .call call delays (some .constraint)
  checked : ∀ e ∈ trace, ∀ row ∈ e.after.world.state.passwordAttempts, Keyed.Check row
  fenced : ∀ e ∈ trace, ∀ claim outcome delays,
    e.label = .call (.settle claim outcome) delays none → ∀ d,
      e.after.world.state.passwordAttempts.find? d ≠
        e.before.world.state.passwordAttempts.find? d →
      d = claim.login ∧ claim.Held { e.before.world with delays } ∧ claim ∈ e.before.held ∧
        ∀ other ∈ e.before.held, other.token = claim.token → other = claim

/-- A call is aborted by a constraint exactly when it is a claim that its login's window
ends in. -/
theorem aborts_iff {delays : List ℕ} (hinv : s.Inv env) :
    (call.transaction env).run { s.world with delays } = .error .constraint ↔
      ∃ login source lease, call = .claim login source lease ∧
        ClaimStraddlesWindow env login source { s.world with delays } := by
  cases call with
  | claim login source lease =>
    simp only [PasswordCall.transaction, Tx.run_bind_error, Tx.run_pure_error, and_false,
      exists_false, or_false, claimPassword_aborts_iff]
    constructor
    · exact fun h => ⟨login, source, lease, rfl, h⟩
    · rintro ⟨_, _, _, ⟨rfl, rfl, rfl⟩, h⟩
      exact h
  | settle claim outcome =>
    have h : (settlePassword env claim outcome).run { s.world with delays } ≠
        .error .constraint := settlePassword_avoids hinv.below
    simp [PasswordCall.transaction, Tx.run_bind_error, Tx.run_pure_error, h]
  | clear key =>
    have h : (clearAttempts env key).run { s.world with delays } ≠ .error .constraint :=
      clearAttempts_avoids _
    simp [PasswordCall.transaction, Tx.run_bind_error, Tx.run_pure_error, h]
  | reserve source scope =>
    have h : (reserve source scope).run { s.world with delays } ≠ .error .constraint :=
      reserve_avoids _
    simp [PasswordCall.transaction, Tx.run_bind_error, Tx.run_pure_error, h]
  | cleanup =>
    have h : cleanup.run { s.world with delays } ≠ .error .constraint := cleanup_avoids _
    simp [PasswordCall.transaction, Tx.run_bind_error, Tx.run_pure_error, h]

/-- A committed settlement that changes a row holds the row's token in time. -/
theorem settle_fenced {claim : PasswordClaim} {delays : List ℕ}
    {outcome : Except AuthorityError AuthenticationCandidate} (hinv : s.Inv env)
    (hstep : PasswordStep env s (.call (.settle claim outcome) delays none) s') {d : Digest}
    (hchanged : s'.world.state.passwordAttempts.find? d ≠
      s.world.state.passwordAttempts.find? d) :
    d = claim.login ∧ claim.Held { s.world with delays } ∧ claim ∈ s.held ∧
      ∀ other ∈ s.held, other.token = claim.token → other = claim := by
  cases hstep with
  | commit hadmissible hrun =>
    simp only [PasswordCall.transaction, Tx.run_bind, Tx.run_pure] at hrun
    obtain ⟨r, w₁, hsettle, -, rfl⟩ := hrun
    rcases run_settlePassword hsettle with hsame | ⟨hheld, hreleased⟩
    · exact absurd (by rw [hsame]) hchanged
    · refine ⟨?_, hheld, hadmissible, fun other hother htoken =>
        hinv.distinct other hother claim hadmissible htoken⟩
      by_contra hd
      exact hchanged (hreleased.others d hd)

/-- The password attempts of a tenant before any call. -/
def PasswordState.initial (w : Tenant) : PasswordState :=
  ⟨{ w with state := { w.state with passwordAttempts := .empty } }, []⟩

theorem PasswordState.initial_inv (w : Tenant) : (initial w).Inv env :=
  ⟨fun _ hr => absurd hr Table.not_mem_empty, by simp [initial], by simp [initial]⟩

/-- In every run, the password attempts keep their promise if and only if no claim is
written while the window of its login ends. -/
theorem passwordAttempts_sound_iff {w : Tenant} {trace : List (Event PasswordState PasswordLabel)}
    (hrun : Run (PasswordStep env) (.initial w) trace s) :
    PasswordSound trace ↔ ∀ e ∈ trace, ¬ StraddlesWindow env e := by
  have hevents := hrun.forall_event (PasswordState.initial_inv w)
    fun _ _ _ hinv hstep => hstep.inv hinv
  constructor
  · rintro hsound e he ⟨login, source, lease, delays, failure, hlabel, hstraddles⟩
    obtain ⟨hinv, hstep⟩ := hevents e he
    have habort := (aborts_iff hinv).mpr ⟨login, source, lease, rfl, hstraddles⟩
    obtain ⟨before, label, after⟩ := e
    obtain rfl : label = .call (.claim login source lease) delays failure := hlabel
    replace hstep : PasswordStep env before _ after := hstep
    cases hstep with
    | commit hadmissible hcommit =>
      rw [habort] at hcommit
      cases hcommit
    | abort hadmissible hfail =>
      rw [habort] at hfail
      cases hfail
      exact hsound.completes _ he _ delays rfl
  · intro hno
    refine ⟨?_, fun e _ row hr => Table.check_of_mem hr, ?_⟩
    · intro e he call delays hlabel
      obtain ⟨hinv, hstep⟩ := hevents e he
      obtain ⟨before, label, after⟩ := e
      obtain rfl : label = .call call delays (some .constraint) := hlabel
      replace hstep : PasswordStep env before _ after := hstep
      cases hstep with
      | abort hadmissible hfail =>
        obtain ⟨login, source, lease, rfl, hstraddles⟩ := (aborts_iff hinv).mp hfail
        exact hno _ he ⟨login, source, lease, delays, _, rfl, hstraddles⟩
    · intro e he claim outcome delays hlabel d hchanged
      obtain ⟨hinv, hstep⟩ := hevents e he
      rw [hlabel] at hstep
      exact settle_fenced hinv hstep hchanged

namespace PasswordState

/-- Makes a call: the failure it met, and the state it left. -/
def perform (env : Env) (s : PasswordState) (call : PasswordCall) (delays : List ℕ) :
    Option Failure × PasswordState :=
  match (call.transaction env).run { s.world with delays } with
  | .ok (new, w') => (none, ⟨w', new.toList ++ call.remaining s.held⟩)
  | .error failure => (some failure, ⟨s.world, call.remaining s.held⟩)

theorem perform_step {env : Env} (s : PasswordState) (call : PasswordCall) (delays : List ℕ)
    (hadmissible : call.Admissible s.held) :
    PasswordStep env s (.call call delays (s.perform env call delays).1)
      (s.perform env call delays).2 := by
  unfold perform
  split
  · exact .commit hadmissible (by assumption)
  · exact .abort hadmissible (by assumption)

/-- The claim that the reference deployment hands out first. -/
def firstClaim : PasswordClaim := ⟨Env.transparent.sha256.text "a", Uuid.newV4 0⟩

/-- A login claimed at the start of the clock. -/
def claimed : PasswordState :=
  ((initial ⟨.provisioned, 0, [], 0⟩).perform .transparent (.claim "a" "x" 60000000) []).2

/-- The same login after its password was rejected. -/
def rejectedOnce : PasswordState :=
  (claimed.perform .transparent (.settle firstClaim (.error .rejected)) []).2

/-- The same login a microsecond before its window ends. -/
def windowEnding : PasswordState :=
  { rejectedOnce with world := { rejectedOnce.world with clock := 599999999 } }

theorem windowEnding_reached :
    ∃ trace, Run (PasswordStep .transparent) (initial ⟨.provisioned, 0, [], 0⟩) trace
      windowEnding := by
  have hclaim : PasswordStep .transparent (initial ⟨.provisioned, 0, [], 0⟩) _ claimed :=
    perform_step _ (.claim "a" "x" 60000000) [] trivial
  have hsettle : PasswordStep .transparent claimed _ rejectedOnce :=
    perform_step claimed (.settle firstClaim (.error .rejected)) []
      (show firstClaim ∈ claimed.held by decide)
  have hwait : PasswordStep .transparent rejectedOnce .elsewhere windowEnding :=
    .elsewhere rfl ⟨by decide, le_rfl⟩
  exact ⟨_, ((Run.start.step hclaim).step hsettle).step hwait⟩

end PasswordState

theorem windowEnding_sound_iff :
    ∃ trace, Run (PasswordStep .transparent) (.initial ⟨.provisioned, 0, [], 0⟩) trace
      PasswordState.windowEnding ∧
      (PasswordSound trace ↔ ∀ e ∈ trace, ¬ StraddlesWindow .transparent e) := by
  obtain ⟨trace, hrun⟩ := PasswordState.windowEnding_reached
  exact ⟨trace, hrun, passwordAttempts_sound_iff hrun⟩

/-- One claim is aborted by a constraint: the failures of the login are kept because its
window is open at one reading, and the window is dropped because it is over at the next. -/
theorem passwordAttempts_unsound :
    ¬ ∀ (env : Env) (w : Tenant) (trace : List (Event PasswordState PasswordLabel))
        (s : PasswordState),
      Run (PasswordStep env) (.initial w) trace s → PasswordSound trace := by
  intro hsound
  obtain ⟨trace, hrun⟩ := PasswordState.windowEnding_reached
  have habort : (PasswordState.windowEnding.perform .transparent
      (.claim "a" "x" 60000000) [0, 0, 0, 0, 0, 0, 1]).1 = some .constraint := by decide
  have hlast : PasswordStep .transparent PasswordState.windowEnding _ _ :=
    PasswordState.windowEnding.perform_step (.claim "a" "x" 60000000)
      [0, 0, 0, 0, 0, 0, 1] trivial
  rw [habort] at hlast
  exact (hsound _ _ _ _ (hrun.step hlast)).completes _
    (List.mem_append_right _ (List.mem_singleton_self _)) _ _ rfl

end IdentityAuthority
