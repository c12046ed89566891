import IdentityAuthority.Limits.FixedWindow
import IdentityAuthority.Protocols.PasswordClaims

/-!
# Admission control

Every source, and every scope of an upstream or platform flow, has a counter of its own, and every
login one of its failures. With one clock reading in a transaction, the rows of the two attempt
tables are fixed-window counters: whatever clean-up removes stands for nothing any more.
-/

namespace IdentityAuthority

open Relational Transition Limits

section Rows

/-- The counter an admission row keeps. -/
def AttemptRow.counter (row : AttemptRow) : Counter := ⟨row.count, row.expiresAt⟩

/-- The counter of an admission key. -/
def Db.attemptCounter (db : Db) (key : String) : Option Counter :=
  (db.attempts.find? key).map AttemptRow.counter

/-- The counter a login's row keeps of its failures. -/
def PasswordAttemptRow.counter (row : PasswordAttemptRow) : Option Counter :=
  row.windowUntil.map fun until' => ⟨row.failures, until'⟩

/-- The counter of the failures of a login. -/
def Db.failureCounter (db : Db) (login : Digest) : Option Counter :=
  (db.passwordAttempts.find? login).bind PasswordAttemptRow.counter

/-- Neither the window nor the claim of a row stands for anything. -/
def PasswordAttemptRow.over (row : PasswordAttemptRow) (t : ℤ) : Bool :=
  row.windowUntil.all (fun until' => decide (until' ≤ t)) &&
    row.claimUntil.all fun until' => decide (until' ≤ t)

/-- The rows of both attempt tables. -/
def Db.attemptRows (db : Db) : ℕ := db.attempts.rows.length + db.passwordAttempts.rows.length

/-- The scope of an upstream or platform flow, which is never the key of a source. -/
structure AttemptScope where
  key : String
  not_source : ∀ source : String, key ≠ "s:" ++ source

/-- A text that does not start as the key of a source is a scope. -/
theorem not_source_of_head {key : String} (h : key.toList.head? ≠ some 's') (source : String) :
    key ≠ "s:" ++ source := by
  rintro rfl
  exact h (by simp)

/-- The scope of a login at a provider from a browser (`oidc:…`). -/
def AttemptScope.oidc (provider browser : String) : AttemptScope :=
  ⟨"oidc:" ++ provider ++ ":" ++ browser, not_source_of_head (by simp)⟩

/-- The scope of linking an identity to a principal (`link:…`). -/
def AttemptScope.link (principal : String) : AttemptScope :=
  ⟨"link:" ++ principal, not_source_of_head (by simp)⟩

/-- The scope of a platform binding (`platform:…`). -/
def AttemptScope.platform (binding : String) : AttemptScope :=
  ⟨"platform:" ++ binding, not_source_of_head (by simp)⟩

end Rows

section Instant

variable {env : Env} {db db₁ : Db} {t : ℤ} {n : ℕ} {w' : Tenant} {key source : String}

/-- What clean-up leaves: rows that it removed stood for nothing. -/
structure Cleaned (t : ℤ) (db db' : Db) : Prop where
  frame : db' = { db with attempts := db'.attempts, passwordAttempts := db'.passwordAttempts }
  attempts : ∀ key, db'.attempts.find? key = db.attempts.find? key ∨
    db'.attempts.find? key = none ∧ ∃ row, db.attempts.find? key = some row ∧ row.expiresAt ≤ t
  passwords : ∀ login, db'.passwordAttempts.find? login = db.passwordAttempts.find? login ∨
    db'.passwordAttempts.find? login = none ∧
      ∃ row, db.passwordAttempts.find? login = some row ∧ row.over t = true
  rows : db'.attemptRows ≤ db.attemptRows

theorem run_endedNow_instant {until' : Option ℤ} {b : Bool}
    (h : (endedNow until').run ⟨db, t, [], n⟩ = .ok (b, w')) :
    b = until'.all (fun u => decide (u ≤ t)) ∧ w' = ⟨db, t, [], n⟩ := by
  cases until' with
  | none =>
    obtain ⟨rfl, rfl⟩ := Tx.run_pure.mp h
    exact ⟨rfl, rfl⟩
  | some u =>
    simp only [endedNow, Tx.run_bind, Tx.run_clockTimestamp_instant, Tx.run_pure] at h
    obtain ⟨_, _, ⟨rfl, rfl⟩, rfl, rfl⟩ := h
    exact ⟨rfl, rfl⟩

theorem run_abandonedNow_instant {row : PasswordAttemptRow} {b : Bool}
    (h : (abandonedNow row).run ⟨db, t, [], n⟩ = .ok (b, w')) :
    b = row.over t ∧ w' = ⟨db, t, [], n⟩ := by
  simp only [abandonedNow, Tx.run_bind, Tx.run_ite, Tx.run_pure] at h
  obtain ⟨window, _, hwindow, h⟩ := h
  obtain ⟨rfl, rfl⟩ := run_endedNow_instant hwindow
  rcases h with ⟨hover, h⟩ | ⟨hopen, rfl, rfl⟩
  · obtain ⟨rfl, rfl⟩ := run_endedNow_instant h
    exact ⟨by simp only [PasswordAttemptRow.over, hover, Bool.true_and], rfl⟩
  · exact ⟨by simp only [PasswordAttemptRow.over, hopen, Bool.false_and], rfl⟩

/-- Clean-up removes rows that are over, and nothing else. -/
theorem run_cleanup_instant {u : Unit} (h : cleanup.run ⟨db, t, [], n⟩ = .ok (u, w')) :
    ∃ db', w' = ⟨db', t, [], n⟩ ∧ Cleaned t db db' := by
  simp only [cleanup, Tx.run_bind, Tx.run_select, Tx.run_deleteFrom, Tx.run_pure,
    Tables.attempts_put, Tables.passwordAttempts_put, Tables.attempts_get,
    Tables.passwordAttempts_get, Option.some.injEq] at h
  obtain ⟨_, _, ⟨rfl, rfl⟩, expired, w₁, hfilter, removed, _, ⟨_, rfl, -, rfl⟩, _, _, ⟨rfl, rfl⟩,
    abandoned, w₂, hfilter', _, _, ⟨_, rfl, -, rfl⟩, -, rfl⟩ := h
  obtain ⟨rfl, rfl⟩ := Tx.filterRows_instant
    (fun (row : AttemptRow) b w' h => run_endedNow_instant h) hfilter
  obtain ⟨rfl, rfl⟩ := Tx.filterRows_instant
    (fun (row : PasswordAttemptRow) b w' h => run_abandonedNow_instant h) hfilter'
  refine ⟨_, rfl, rfl, fun key => ?_, fun login => ?_, ?_⟩
  · refine (Table.find?_deleteWhere db.attempts _ key).imp_right ?_
    rintro ⟨hnone, row, hrow, hdeleted⟩
    refine ⟨hnone, row, hrow, ?_⟩
    obtain ⟨row', hmem, hkey⟩ := List.mem_map.mp (List.contains_iff_mem.mp hdeleted)
    have hexpired := List.mem_of_mem_take hmem
    simp only [List.mem_insertionSort, List.mem_filter, Table.filter, Option.all_some,
      decide_eq_true_eq] at hexpired
    obtain rfl := Table.eq_of_key (Table.mem_of_find? hrow) hexpired.1.1 hkey.symm
    exact hexpired.2
  · refine (Table.find?_deleteWhere db.passwordAttempts _ login).imp_right ?_
    rintro ⟨hnone, row, hrow, hdeleted⟩
    refine ⟨hnone, row, hrow, ?_⟩
    obtain ⟨row', hmem, hkey⟩ := List.mem_map.mp (List.contains_iff_mem.mp hdeleted)
    have habandoned := List.mem_of_mem_take hmem
    simp only [List.mem_insertionSort, List.mem_filter, Table.filter] at habandoned
    obtain rfl := Table.eq_of_key (Table.mem_of_find? hrow) habandoned.1.1 hkey.symm
    exact habandoned.2
  · have hattempts := Table.length_deleteWhere_le db.attempts
    have hpasswords := Table.length_deleteWhere_le db.passwordAttempts
    exact Nat.add_le_add (hattempts _) (hpasswords _)

theorem Cleaned.attemptCounter (h : Cleaned t db db₁) (key : String) :
    Agree t (db₁.attemptCounter key) (db.attemptCounter key) := by
  unfold Db.attemptCounter Agree
  rcases h.attempts key with hsame | ⟨hnone, row, hrow, hover⟩
  · rw [hsame]
  · rw [hnone, hrow]
    have hlive : Limits.live (some row.counter) t = none :=
      live_eq_none.mpr (by simpa [AttemptRow.counter] using hover)
    exact hlive.symm

theorem Cleaned.failureCounter (h : Cleaned t db db₁) (login : Digest) :
    Agree t (db₁.failureCounter login) (db.failureCounter login) := by
  unfold Db.failureCounter Agree
  rcases h.passwords login with hsame | ⟨hnone, row, hrow, hover⟩
  · rw [hsame]
  · rw [hnone, hrow]
    have hlive : Limits.live row.counter t = none := by
      rw [live_eq_none]
      intro c hc
      obtain ⟨until', huntil, rfl⟩ := Option.map_eq_some_iff.mp hc
      simp only [PasswordAttemptRow.over, huntil, Option.all_some, Bool.and_eq_true,
        decide_eq_true_eq] at hover
      exact hover.1
    exact hlive.symm

/-- What is known of an admission key from its row. -/
def Attempt.ofRow (key : String) (limit seconds t : ℤ) : Option AttemptRow → Attempt
  | none => { key, count := 0, seconds, present := false, retry := 0 }
  | some row =>
    { key
      count := if t < row.expiresAt then row.count else 0
      seconds
      present := true
      retry := if limit ≤ row.count ∧ t < row.expiresAt then secondsLeft row.expiresAt t else 0 }

theorem run_attempt_instant {limit length : ℤ} {a : Attempt}
    (h : (attempt key limit length).run ⟨db, t, [], n⟩ = .ok (a, w')) :
    a = Attempt.ofRow key limit length t (db.attempts.find? key) ∧ w' = ⟨db, t, [], n⟩ := by
  simp only [attempt, Tx.run_bind, Tx.run_find, Tables.attempts_get] at h
  obtain ⟨_, _, ⟨rfl, rfl⟩, h⟩ := h
  cases hrow : db.attempts.find? key with
  | none =>
    simp only [hrow, Tx.run_pure] at h
    obtain ⟨rfl, rfl⟩ := h
    exact ⟨rfl, rfl⟩
  | some row =>
    simp only [hrow, Tx.run_bind, Tx.run_clockTimestamp_instant, Tx.run_ite, Tx.run_pure] at h
    obtain ⟨_, _, ⟨rfl, rfl⟩, h⟩ := h
    simp only [Tx.run_clockTimestamp_instant] at h
    rcases h with ⟨hlimit, _, _, ⟨rfl, rfl⟩, h⟩ | ⟨hbelow, rfl, rfl⟩
    · simp only [Tx.run_clockTimestamp_instant] at h
      rcases h with ⟨hopen, _, _, ⟨rfl, rfl⟩, rfl, rfl⟩ | ⟨hover, rfl, rfl⟩
      · refine ⟨?_, rfl⟩
        simp [Attempt.ofRow, hlimit, hopen]
      · refine ⟨?_, rfl⟩
        simp [Attempt.ofRow, hover]
    · refine ⟨?_, rfl⟩
      simp [Attempt.ofRow, hbelow]

/-- The wait for a counter that is over is at most until it is over. -/
theorem secondsLeft_spec (until' now : ℤ) : 1 ≤ secondsLeft until' now ∧
    until' ≤ now + secondsLeft until' now * 1000000 := by
  unfold secondsLeft
  omega

/-- A key that need not wait has a counter below its limit. -/
theorem Attempt.ofRow_retry {limit length : ℤ} {row : Option AttemptRow}
    (h : (Attempt.ofRow key limit length t row).retry ≤ 0) :
    ∀ c ∈ Limits.live (row.map AttemptRow.counter) t, c.count < limit := by
  cases row with
  | none => simp
  | some row =>
    intro c hc
    obtain ⟨hcounter, hopen⟩ := live_eq_some.mp hc
    simp only [Option.map_some, Option.some.injEq] at hcounter
    subst hcounter
    simp only [AttemptRow.counter] at hopen ⊢
    by_contra hlimit
    have hwait := (secondsLeft_spec row.expiresAt t).1
    simp only [Attempt.ofRow, show limit ≤ row.count by omega, hopen, and_self, if_true] at h
    omega

/-- A counter was hit once, and nothing else happened. -/
structure Counted (key : String) (length t : ℤ) (db db' : Db) : Prop where
  frame : db' = { db with attempts := db'.attempts }
  hit : db'.attemptCounter key = some (hit length t (db.attemptCounter key))
  others : ∀ other ≠ key, db'.attempts.find? other = db.attempts.find? other
  rows : db'.attempts.rows.length =
    db.attempts.rows.length + if (db.attempts.find? key).isSome then 0 else 1

/-- Counting an attempt hits its counter. -/
theorem run_consume_instant {limit length : ℤ} {u : Unit}
    (h : (Attempt.ofRow key limit length t (db.attempts.find? key)).consume.run ⟨db, t, [], n⟩ =
      .ok (u, w')) :
    ∃ db', w' = ⟨db', t, [], n⟩ ∧ Counted key (length * 1000000) t db db' := by
  have hkey : (Attempt.ofRow key limit length t (db.attempts.find? key)).key = key := by
    cases db.attempts.find? key <;> rfl
  have hseconds : (Attempt.ofRow key limit length t (db.attempts.find? key)).seconds = length := by
    cases db.attempts.find? key <;> rfl
  simp only [Attempt.consume, Tx.run_bind, Tx.run_clockTimestamp_instant, Tx.run_find, Tables.attempts_get,
    hkey, hseconds] at h
  obtain ⟨_, _, ⟨rfl, rfl⟩, _, _, ⟨rfl, rfl⟩, h⟩ := h
  cases hrow : db.attempts.find? key with
  | none =>
    simp only [hrow, Tx.run_insertInto, Tables.attempts_put, Tables.attempts_get,
      Option.some.injEq] at h
    obtain ⟨table, _, htable, rfl, rfl⟩ := h
    refine ⟨_, rfl, rfl, ?_, fun other hne => ?_, ?_⟩
    · have hfind := Table.find?_insert htable key
      simp only [Keyed.key, if_true] at hfind
      simp only [Db.attemptCounter, hfind, hrow, Option.map_some, Option.map_none]
      rfl
    · exact (Table.find?_insert htable other).trans (if_neg hne.symm)
    · simp only [hrow]
      exact Table.length_insert htable
  | some row =>
    simp only [hrow, Tx.run_bind, Tx.run_updateIn, Tx.run_pure, Tables.attempts_put,
      Tables.attempts_get, Option.some.injEq] at h
    obtain ⟨_, _, ⟨table, _, htable, rfl, -, rfl⟩, -, rfl⟩ := h
    have hfind := fun other => Table.find?_updateWhere htable (fun _ => rfl) other
    have hrowKey : row.key = key := Table.key_of_find? hrow
    have hpositive : 0 < row.count := Table.check_of_mem (Table.mem_of_find? hrow)
    refine ⟨_, rfl, rfl, ?_, fun other hne => ?_, ?_⟩
    · simp only [Db.attemptCounter, hfind key, hrow, Option.map_some, Keyed.key, hrowKey, decide_true,
        if_true, Attempt.ofRow]
      by_cases hopen : t < row.expiresAt
      · have hlive : Limits.live (some row.counter) t = some row.counter :=
          live_eq_some.mpr ⟨rfl, hopen⟩
        have hne : row.count + 1 ≠ 1 := by omega
        simp only [hit, hlive, hopen, if_true, hne, if_false]
        rfl
      · have hlive : Limits.live (some row.counter) t = none :=
          live_eq_none.mpr (by simpa [AttemptRow.counter] using not_lt.mp hopen)
        simp only [hit, hlive, hopen, if_false, Int.zero_add, if_true]
        rfl
    · refine (hfind other).trans ?_
      cases hother : db.attempts.find? other with
      | none => rfl
      | some r =>
        have hne' : r.key ≠ key := fun heq => hne ((Table.key_of_find? hother).symm.trans heq)
        simp [Keyed.key, hne']
    · simp only [hrow]
      exact Table.length_updateWhere htable

/-- The seconds a refused call must wait. -/
theorem run_rateLimited {retry : ℤ} {refusal : AuthorityError}
    (h : rateLimited retry = .ok refusal) : refusal = .rateLimited retry ∧ 1 ≤ retry := by
  unfold rateLimited at h
  split at h
  · cases h
    exact ⟨rfl, by omega⟩
  · cases h

/-- The state of a source before it is counted. -/
def sourceAttempt (db : Db) (source : String) (t : ℤ) : Attempt :=
  .ofRow ("s:" ++ source) attemptSourceLimit attemptSourceSeconds t
    (db.attempts.find? ("s:" ++ source))

/-- The state of a scope before it is counted. -/
def scopeAttempt (db : Db) (scope : AttemptScope) (t : ℤ) : Attempt :=
  .ofRow scope.key attemptScopeLimit attemptScopeSeconds t (db.attempts.find? scope.key)

theorem Attempt.ofRow_present {limit length : ℤ} {row : Option AttemptRow} :
    (Attempt.ofRow key limit length t row).present = row.isSome := by
  cases row <;> rfl

/-- A scope's row is not touched where its source is counted. -/
theorem Counted.scopeAttempt {scope : AttemptScope} {length : ℤ}
    (h : Counted ("s:" ++ source) length t db db₁) :
    db₁.attempts.find? scope.key = db.attempts.find? scope.key :=
  h.others scope.key (scope.not_source source)

/-- A reservation is refused with nothing counted, or counts its source and its scope. -/
theorem run_reserve_instant {scope : AttemptScope} {r : Except AuthorityError Unit}
    (h : (reserve source scope.key).run ⟨db, t, [], n⟩ = .ok (r, w')) :
    ∃ db₁, Cleaned t db db₁ ∧
      ((∃ retry, r = .error (.rateLimited retry) ∧ 1 ≤ retry ∧
          retry = max (sourceAttempt db₁ source t).retry (scopeAttempt db₁ scope t).retry ∧
          w' = ⟨db₁, t, [], n⟩) ∨
        (r = .error .busy ∧ w' = ⟨db₁, t, [], n⟩) ∨
        (r = .ok () ∧ (sourceAttempt db₁ source t).retry ≤ 0 ∧
          (scopeAttempt db₁ scope t).retry ≤ 0 ∧ ∃ db₂ db₃, w' = ⟨db₃, t, [], n⟩ ∧
            Counted ("s:" ++ source) (attemptSourceSeconds * 1000000) t db₁ db₂ ∧
            Counted scope.key (attemptScopeSeconds * 1000000) t db₂ db₃ ∧
            db₃.attemptRows ≤ maxAttemptRows)) := by
  simp only [reserve, Tx.run_bind] at h
  obtain ⟨_, w₁, hcleanup, a, w₂, ha, b, w₃, hb, h⟩ := h
  obtain ⟨db₁, rfl, hcleaned⟩ := run_cleanup_instant hcleanup
  obtain ⟨rfl, rfl⟩ := run_attempt_instant ha
  obtain ⟨rfl, rfl⟩ := run_attempt_instant hb
  refine ⟨db₁, hcleaned, ?_⟩
  simp only [Tx.run_ite, Tx.run_bind, Tx.run_ofExcept, Tx.run_pure, totalAttempts,
    Tx.run_query] at h
  rcases h with ⟨-, refusal, _, ⟨hrefusal, rfl⟩, rfl, rfl⟩ | ⟨hretry, _, _, ⟨rfl, rfl⟩, h⟩
  · obtain ⟨rfl, hpos⟩ := run_rateLimited hrefusal
    exact .inl ⟨_, rfl, hpos, rfl, rfl⟩
  · rcases h with ⟨-, rfl, rfl⟩ | ⟨hroom, _, w₄, hsource, _, w₅, hscope, rfl, rfl⟩
    · exact .inr (.inl ⟨rfl, rfl⟩)
    · obtain ⟨db₂, rfl, hcounted⟩ := run_consume_instant hsource
      have hsame : db₂.attempts.find? scope.key = db₁.attempts.find? scope.key :=
        hcounted.scopeAttempt
      rw [← hsame] at hscope
      obtain ⟨db₃, rfl, hcounted'⟩ := run_consume_instant hscope
      have hfits : db₃.attemptRows ≤ maxAttemptRows := by
        have hrows := hcounted.rows
        have hrows' := hcounted'.rows
        have hframe := congrArg Db.passwordAttempts hcounted.frame
        have hframe' := congrArg Db.passwordAttempts hcounted'.frame
        simp only [Attempt.ofRow_present] at hroom
        rw [hsame] at hrows'
        simp only [Db.attemptRows, hrows', hrows, hframe', hframe]
        push_cast
        generalize (db₁.attempts.find? ("s:" ++ source)).isSome = x at *
        generalize (db₁.attempts.find? scope.key).isSome = y at *
        cases x <;> cases y <;> simp only [Bool.false_eq_true, if_true, if_false] at hroom ⊢ <;> omega
      refine .inr (.inr ⟨rfl, ?_, ?_, db₂, db₃, rfl, hcounted, hcounted', hfits⟩)
      · unfold sourceAttempt
        omega
      · unfold scopeAttempt
        omega

/-- The seconds a login must wait. -/
def loginRetry (row : Option PasswordAttemptRow) (t : ℤ) : ℤ :=
  match row with
  | none => 0
  | some row =>
    if row.failures = passwordFailureLimit ∧ row.windowOpen t = true then
      secondsLeft (row.windowUntil.getD 0) t
    else 0

theorem run_retryNow_instant {row : Option PasswordAttemptRow} {retry : ℤ}
    (h : (retryNow row).run ⟨db, t, [], n⟩ = .ok (retry, w')) :
    retry = loginRetry row t ∧ w' = ⟨db, t, [], n⟩ := by
  cases row with
  | none =>
    obtain ⟨rfl, rfl⟩ := Tx.run_pure.mp h
    exact ⟨rfl, rfl⟩
  | some row =>
    simp only [retryNow, Tx.run_ite, Tx.run_bind, Tx.run_clockTimestamp_instant, Tx.run_pure] at h
    rcases h with ⟨hlimit, _, _, ⟨rfl, rfl⟩, h⟩ | ⟨hbelow, rfl, rfl⟩
    · simp only [Tx.run_clockTimestamp_instant] at h
      rcases h with ⟨hopen, _, _, ⟨rfl, rfl⟩, rfl, rfl⟩ | ⟨hover, rfl, rfl⟩
      · exact ⟨by simp [loginRetry, hlimit, hopen], rfl⟩
      · exact ⟨by simp [loginRetry, hover], rfl⟩
    · exact ⟨by simp [loginRetry, hbelow], rfl⟩

theorem run_busyNow_instant {row : Option PasswordAttemptRow} {busy : Bool}
    (h : (busyNow row).run ⟨db, t, [], n⟩ = .ok (busy, w')) :
    busy = (row.any fun row => row.claimUntil.any fun until' => decide (t < until')) ∧
      w' = ⟨db, t, [], n⟩ := by
  cases row with
  | none =>
    obtain ⟨rfl, rfl⟩ := Tx.run_pure.mp h
    exact ⟨rfl, rfl⟩
  | some row =>
    simp only [busyNow, Tx.run_bind, Tx.run_clockTimestamp_instant, Tx.run_pure] at h
    obtain ⟨_, _, ⟨rfl, rfl⟩, rfl, rfl⟩ := h
    exact ⟨rfl, rfl⟩

/-- The live counter of failures of a login whose row is given. -/
theorem live_counter {row : PasswordAttemptRow} : Limits.live row.counter t =
    if row.windowOpen t then some ⟨row.failures, row.windowUntil.getD 0⟩ else none := by
  unfold PasswordAttemptRow.counter PasswordAttemptRow.windowOpen
  cases row.windowUntil with
  | none => simp
  | some until' =>
    by_cases hopen : t < until'
    · simp [Limits.live, Option.filter, hopen]
    · simp [Limits.live, Option.filter, hopen]

/-- A claim keeps what the failures of its row stand for. -/
theorem live_claimed (row : PasswordAttemptRow) (token : Uuid) (until' : ℤ) :
    Limits.live (row.claimed t t token until').counter t = Limits.live row.counter t := by
  cases hopen : row.windowOpen t with
  | false =>
    have hnone : (row.claimed t t token until').counter = none := by
      simp [PasswordAttemptRow.claimed, PasswordAttemptRow.counter, hopen]
    rw [hnone, live_none, live_counter, hopen]
    rfl
  | true =>
    have hsame : (row.claimed t t token until').counter = row.counter := by
      simp [PasswordAttemptRow.claimed, PasswordAttemptRow.counter, hopen]
    rw [hsame]

/-- A claim was written on the row of a login; its failures count as before. -/
structure Claimed (login : Digest) (token : Uuid) (until' t : ℤ) (db db' : Db) : Prop where
  frame : db' = { db with passwordAttempts := db'.passwordAttempts }
  row : ∃ row, db'.passwordAttempts.find? login = some row ∧ row.claimToken = some token ∧
    row.claimUntil = some until'
  counter : Agree t (db'.failureCounter login) (db.failureCounter login)
  others : ∀ other ≠ login, db'.passwordAttempts.find? other = db.passwordAttempts.find? other
  rows : db'.passwordAttempts.rows.length =
    db.passwordAttempts.rows.length + if (db.passwordAttempts.find? login).isSome then 0 else 1

theorem run_claimRow_instant {login : Digest} {token : Uuid} {lease : ℤ} {u : Unit}
    (h : (claimRow login token lease).run ⟨db, t, [], n⟩ = .ok (u, w')) :
    ∃ db', w' = ⟨db', t, [], n⟩ ∧ Claimed login token (t + lease) t db db' := by
  simp only [claimRow, Tx.run_bind, Tx.run_clockTimestamp_instant, Tx.run_find,
    Tables.passwordAttempts_get] at h
  obtain ⟨_, _, ⟨rfl, rfl⟩, _, _, ⟨rfl, rfl⟩, h⟩ := h
  cases hrow : db.passwordAttempts.find? login with
  | none =>
    simp only [hrow, Tx.run_insertInto, Tables.passwordAttempts_put, Tables.passwordAttempts_get,
      Option.some.injEq] at h
    obtain ⟨table, _, htable, rfl, rfl⟩ := h
    have hfind := Table.find?_insert htable login
    simp only [Keyed.key, if_true] at hfind
    refine ⟨_, rfl, rfl, ⟨_, hfind, rfl, rfl⟩, ?_, fun other hne => ?_, ?_⟩
    · simp only [Db.failureCounter, hfind, hrow, Option.bind_some, Option.bind_none]
      rfl
    · exact (Table.find?_insert htable other).trans (if_neg hne.symm)
    · simp only [hrow]
      exact Table.length_insert htable
  | some row =>
    simp only [hrow, Tx.run_bind, Tx.run_clockTimestamp_instant, Tx.run_updateIn, Tx.run_pure,
      Tables.passwordAttempts_put, Tables.passwordAttempts_get, Option.some.injEq] at h
    obtain ⟨_, _, ⟨rfl, rfl⟩, h⟩ := h
    simp only [Tx.run_clockTimestamp_instant] at h
    obtain ⟨_, _, ⟨rfl, rfl⟩, _, _, ⟨table, _, htable, rfl, -, rfl⟩, -, rfl⟩ := h
    have hrowKey : row.loginDigest = login := Table.key_of_find? hrow
    have hfind := fun other => Table.find?_updateWhere htable (fun _ => rfl) other
    have hclaimed := hfind login
    simp only [hrow, Option.map_some, Keyed.key, hrowKey, decide_true, if_true] at hclaimed
    refine ⟨_, rfl, rfl, ⟨_, hclaimed, rfl, rfl⟩, ?_, fun other hne => ?_, ?_⟩
    · simp only [Agree, Db.failureCounter, hclaimed, hrow, Option.bind_some]
      exact live_claimed row token (t + lease)
    · refine (hfind other).trans ?_
      cases hother : db.passwordAttempts.find? other with
      | none => rfl
      | some r =>
        have hne' : r.loginDigest ≠ login := fun heq =>
          hne ((Table.key_of_find? hother).symm.trans heq)
        simp [Keyed.key, hne']
    · simp only [hrow]
      exact Table.length_updateWhere htable

/-- Admission of a claim decides by the counters that clean-up left, and counts nothing. -/
theorem run_admitPassword_instant {login : Digest} {r : Except AuthorityError Attempt}
    (h : (admitPassword login source).run ⟨db, t, [], n⟩ = .ok (r, w')) :
    ∃ db₁, Cleaned t db db₁ ∧ w' = ⟨db₁, t, [], n⟩ ∧
      ((∃ retry, r = .error (.rateLimited retry) ∧ 1 ≤ retry ∧
          retry = max (loginRetry (db₁.passwordAttempts.find? login) t)
            (sourceAttempt db₁ source t).retry) ∨
        r = .error .busy ∨
        (r = .ok (sourceAttempt db₁ source t) ∧
          loginRetry (db₁.passwordAttempts.find? login) t ≤ 0 ∧
          (sourceAttempt db₁ source t).retry ≤ 0 ∧
          (db₁.attemptRows : ℤ) + (if (db₁.attempts.find? ("s:" ++ source)).isSome then 0 else 1) +
            (if (db₁.passwordAttempts.find? login).isSome then 0 else 1) ≤ maxAttemptRows)) := by
  simp only [admitPassword, Tx.run_bind, Tx.run_find, Tables.passwordAttempts_get] at h
  obtain ⟨_, w₁, hcleanup, a, w₂, ha, _, _, ⟨rfl, rfl⟩, retry, w₃, hretry, busy, w₄, hbusy, h⟩ := h
  obtain ⟨db₁, rfl, hcleaned⟩ := run_cleanup_instant hcleanup
  obtain ⟨rfl, rfl⟩ := run_attempt_instant ha
  obtain ⟨rfl, rfl⟩ := run_retryNow_instant hretry
  obtain ⟨rfl, rfl⟩ := run_busyNow_instant hbusy
  refine ⟨db₁, hcleaned, ?_⟩
  simp only [Tx.run_ite, Tx.run_bind, Tx.run_ofExcept, Tx.run_pure, totalAttempts,
    Tx.run_query] at h
  rcases h with ⟨-, refusal, _, ⟨hrefusal, rfl⟩, rfl, rfl⟩ | ⟨hwait, h⟩
  · obtain ⟨rfl, hpos⟩ := run_rateLimited hrefusal
    exact ⟨rfl, .inl ⟨_, rfl, hpos, rfl⟩⟩
  · rcases h with ⟨-, rfl, rfl⟩ | ⟨-, _, _, ⟨rfl, rfl⟩, ⟨-, rfl, rfl⟩ | ⟨hroom, rfl, rfl⟩⟩
    · exact ⟨rfl, .inr (.inl rfl)⟩
    · exact ⟨rfl, .inr (.inl rfl)⟩
    · simp only [Attempt.ofRow_present] at hroom
      have hfits := not_lt.mp hroom
      refine ⟨rfl, .inr (.inr ⟨rfl, ?_, ?_, ?_⟩)⟩
      · omega
      · unfold sourceAttempt
        omega
      · simpa only [Db.attemptRows, Nat.cast_add] using hfits

/-- A claim is refused with nothing counted, or counts its source and is written on its login. -/
theorem run_claimPassword_instant {login : String} {lease : ℤ}
    {r : Except AuthorityError PasswordClaim}
    (h : (claimPassword env login source lease).run ⟨db, t, [], n⟩ = .ok (r, w')) :
    ∃ db₁, Cleaned t db db₁ ∧
      ((∃ retry, r = .error (.rateLimited retry) ∧ 1 ≤ retry ∧
          retry = max (loginRetry (db₁.passwordAttempts.find? (env.sha256.text login)) t)
            (sourceAttempt db₁ source t).retry ∧ w' = ⟨db₁, t, [], n⟩) ∨
        (r = .error .busy ∧ w' = ⟨db₁, t, [], n⟩) ∨
        ∃ token, r = .ok ⟨env.sha256.text login, token⟩ ∧
          loginRetry (db₁.passwordAttempts.find? (env.sha256.text login)) t ≤ 0 ∧
          (sourceAttempt db₁ source t).retry ≤ 0 ∧ ∃ db₂ db₃, w' = ⟨db₃, t, [], n + 1⟩ ∧
            Counted ("s:" ++ source) (attemptSourceSeconds * 1000000) t db₁ db₂ ∧
            Claimed (env.sha256.text login) token (t + lease) t db₂ db₃ ∧
            db₃.attemptRows ≤ maxAttemptRows) := by
  simp only [claimPassword, prepareClaim, Tx.run_bind] at h
  obtain ⟨prepared, _, ⟨admitted, _, hadmit, hprepare⟩, h⟩ := h
  obtain ⟨db₁, hcleaned, rfl, houtcome⟩ := run_admitPassword_instant hadmit
  refine ⟨db₁, hcleaned, ?_⟩
  rcases houtcome with ⟨retry, rfl, hpos, hretry⟩ | rfl | ⟨rfl, hlogin, hsource, hroom⟩
  · obtain ⟨rfl, rfl⟩ := Tx.run_pure.mp hprepare
    obtain ⟨rfl, rfl⟩ := Tx.run_pure.mp h
    exact .inl ⟨retry, rfl, hpos, hretry, rfl⟩
  · obtain ⟨rfl, rfl⟩ := Tx.run_pure.mp hprepare
    obtain ⟨rfl, rfl⟩ := Tx.run_pure.mp h
    exact .inr (.inl ⟨rfl, rfl⟩)
  · simp only [Tx.run_bind, run_newV4, Tx.run_pure] at hprepare
    obtain ⟨_, w₅, hconsume, token, _, ⟨-, rfl⟩, rfl, rfl⟩ := hprepare
    obtain ⟨db₂, rfl, hcounted⟩ := run_consume_instant hconsume
    simp only [Tx.run_bind, Tx.run_pure] at h
    obtain ⟨_, w₆, hclaim, rfl, rfl⟩ := h
    obtain ⟨db₃, rfl, hclaimed⟩ := run_claimRow_instant hclaim
    refine .inr (.inr ⟨token, rfl, hlogin, hsource, db₂, db₃, rfl, hcounted, hclaimed, ?_⟩)
    have hrows := hcounted.rows
    have hrows' := hclaimed.rows
    have hframe := congrArg Db.passwordAttempts hcounted.frame
    have hframe' := congrArg Db.attempts hclaimed.frame
    simp only at hframe hframe'
    rw [hframe] at hrows'
    simp only [Db.attemptRows, hrows', hrows, hframe'] at hroom ⊢
    push_cast at hroom ⊢
    omega

/-- A claim is the current, unexpired one of its login. -/
def PasswordClaim.holds (claim : PasswordClaim) (db : Db) (t : ℤ) : Bool :=
  (db.passwordAttempts.find? claim.login).any fun row =>
    decide (row.claimToken = some claim.token) &&
      row.claimUntil.any fun until' => decide (t < until')

theorem run_ownedNow_instant {claim : PasswordClaim} {owned : Bool}
    (h : (ownedNow claim).run ⟨db, t, [], n⟩ = .ok (owned, w')) :
    owned = claim.holds db t ∧ w' = ⟨db, t, [], n⟩ := by
  simp only [ownedNow, Tx.run_bind, Tx.run_find, Tables.passwordAttempts_get] at h
  obtain ⟨_, _, ⟨rfl, rfl⟩, h⟩ := h
  unfold PasswordClaim.holds
  cases hrow : db.passwordAttempts.find? claim.login with
  | none =>
    simp only [hrow, Tx.run_pure] at h
    obtain ⟨rfl, rfl⟩ := h
    exact ⟨rfl, rfl⟩
  | some row =>
    simp only [hrow, Tx.run_ite, Tx.run_bind, Tx.run_clockTimestamp_instant, Tx.run_pure] at h
    rcases h with ⟨htoken, _, _, ⟨rfl, rfl⟩, rfl, rfl⟩ | ⟨hother, rfl, rfl⟩
    · exact ⟨by simp [htoken], rfl⟩
    · exact ⟨by simp [hother], rfl⟩

/-- The row of a claim after its verification. -/
def settledRow (outcome : Except AuthorityError AuthenticationCandidate) (t : ℤ)
    (row : PasswordAttemptRow) : Option PasswordAttemptRow :=
  match outcome with
  | .ok _ => none
  | .error error =>
    if error = .rejected then some (row.failed t t t)
    else some { row with claimToken := none, claimUntil := none }

/-- A claim was settled on the row it holds, and nothing else happened. -/
structure Settled (claim : PasswordClaim)
    (outcome : Except AuthorityError AuthenticationCandidate) (t : ℤ) (db db' : Db) : Prop where
  frame : db' = { db with passwordAttempts := db'.passwordAttempts }
  row : db'.passwordAttempts.find? claim.login =
    (db.passwordAttempts.find? claim.login).bind (settledRow outcome t)
  others : ∀ other ≠ claim.login,
    db'.passwordAttempts.find? other = db.passwordAttempts.find? other
  rows : db'.passwordAttempts.rows.length ≤ db.passwordAttempts.rows.length

/-- An update of the row that a claim holds settles it. -/
theorem Settled.of_update {claim : PasswordClaim}
    {outcome : Except AuthorityError AuthenticationCandidate}
    {f : PasswordAttemptRow → PasswordAttemptRow} {table : Table PasswordAttemptRow}
    (hheld : claim.holds db t = true)
    (h : db.passwordAttempts.updateWhere claim.owns f = some table)
    (hkey : ∀ row, Keyed.key (f row) = Keyed.key row)
    (hrow : ∀ row, settledRow outcome t row = some (f row)) :
    Settled claim outcome t db { db with passwordAttempts := table } := by
  have hfind := fun other => Table.find?_updateWhere h hkey other
  refine ⟨rfl, ?_, fun other hne => ?_, (Table.length_updateWhere h).le⟩
  · refine (hfind claim.login).trans ?_
    unfold PasswordClaim.holds at hheld
    cases hfound : db.passwordAttempts.find? claim.login with
    | none => rfl
    | some row =>
      simp only [hfound, Option.any_some, Bool.and_eq_true, decide_eq_true_eq] at hheld
      have hlogin : row.loginDigest = claim.login := Table.key_of_find? hfound
      have howns : claim.owns row = true := by simp [PasswordClaim.owns, hlogin, hheld.1]
      simp only [Option.map_some, howns, if_true, Option.bind_some, hrow]
  · refine (hfind other).trans ?_
    cases hfound : db.passwordAttempts.find? other with
    | none => rfl
    | some row =>
      have hlogin : row.loginDigest ≠ claim.login := fun heq =>
        hne ((Table.key_of_find? hfound).symm.trans heq)
      simp [PasswordClaim.owns, hlogin]

/-- The deletion of the row that a claim holds settles it. -/
theorem Settled.of_delete {claim : PasswordClaim} {candidate : AuthenticationCandidate}
    (hheld : claim.holds db t = true) : Settled claim (.ok candidate) t db
      { db with passwordAttempts := db.passwordAttempts.deleteWhere claim.owns } := by
  have hfind := fun other => Table.find?_deleteWhere db.passwordAttempts claim.owns other
  refine ⟨rfl, ?_, fun other hne => ?_, Table.length_deleteWhere_le _ _⟩
  · unfold PasswordClaim.holds at hheld
    rcases hfind claim.login with hsame | ⟨hnone, -⟩
    · cases hfound : db.passwordAttempts.find? claim.login with
      | none => exact hsame.trans hfound
      | some row =>
        simp only [hfound, Option.any_some, Bool.and_eq_true, decide_eq_true_eq] at hheld
        have hlogin : row.loginDigest = claim.login := Table.key_of_find? hfound
        have hkept := (Table.find?_deleteWhere_eq_some.mp (hsame.trans hfound)).2
        simp [PasswordClaim.owns, hlogin, hheld.1] at hkept
    · rw [hnone]
      cases db.passwordAttempts.find? claim.login <;> rfl
  · rcases hfind other with hsame | ⟨-, row, hfound, howns⟩
    · exact hsame
    · have hlogin : row.loginDigest = other := Table.key_of_find? hfound
      have howned : row.loginDigest = claim.login := by
        simp only [PasswordClaim.owns, decide_eq_true_eq] at howns
        exact howns.1
      exact absurd (hlogin.symm.trans howned) hne

/-- A settlement answers what was found if its claim holds its row, and otherwise rejects. -/
theorem run_settlePassword_instant {claim : PasswordClaim}
    {outcome answer : Except AuthorityError AuthenticationCandidate}
    (h : (settlePassword env claim outcome).run ⟨db, t, [], n⟩ = .ok (answer, w')) :
    (claim.holds db t = false ∧ answer = .error .rejected ∧ w' = ⟨db, t, [], n⟩) ∨
      (claim.holds db t = true ∧ answer = outcome ∧
        ∃ db', w' = ⟨db', t, [], n⟩ ∧ Settled claim outcome t db db') := by
  simp only [settlePassword, Tx.run_bind, Tx.run_ite, Tx.run_pure] at h
  obtain ⟨owned, _, howned, h⟩ := h
  obtain ⟨rfl, rfl⟩ := run_ownedNow_instant howned
  rcases h with ⟨hlost, rfl, rfl⟩ | ⟨hheld, h⟩
  · exact .inl ⟨hlost, rfl, rfl⟩
  · simp only [Bool.not_eq_false] at hheld
    refine .inr ⟨hheld, ?_⟩
    cases outcome with
    | ok candidate =>
      simp only [Tx.run_bind, Tx.run_deleteFrom, Tx.run_pure, Tables.passwordAttempts_put,
        Tables.passwordAttempts_get, Option.some.injEq] at h
      obtain ⟨_, _, hcurrent, _, _, ⟨_, rfl, -, rfl⟩, rfl, rfl⟩ := h
      obtain ⟨rfl, -⟩ := run_current hcurrent
      exact ⟨rfl, _, rfl, .of_delete hheld⟩
    | error error =>
      simp only [failClaim, Tx.run_bind, Tx.run_ite, Tx.run_updateIn, Tx.run_pure,
        Tables.passwordAttempts_put, Tables.passwordAttempts_get, Option.some.injEq] at h
      obtain ⟨_, _, ⟨rfl, hcount⟩ | ⟨hother, _, _, ⟨table, _, htable, rfl, -, rfl⟩, -, rfl⟩, rfl, rfl⟩ := h
      · simp only [countFailure, Tx.run_bind, Tx.run_clockTimestamp_instant, Tx.run_find,
          Tables.passwordAttempts_get] at hcount
        obtain ⟨_, _, ⟨rfl, rfl⟩, hcount⟩ := hcount
        simp only [Tx.run_clockTimestamp_instant] at hcount
        obtain ⟨_, _, ⟨rfl, rfl⟩, _, _, ⟨rfl, rfl⟩, t₃, w₁, hread, hcount⟩ := hcount
        have hthird : t₃ = t ∧ w₁ = ⟨db, t, [], n⟩ := by
          rcases Tx.run_ite.mp hread with ⟨-, hread⟩ | ⟨-, hread⟩
          · obtain ⟨rfl, rfl⟩ := Tx.run_clockTimestamp_instant.mp hread
            exact ⟨rfl, rfl⟩
          · obtain ⟨rfl, rfl⟩ := Tx.run_pure.mp hread
            exact ⟨rfl, rfl⟩
        obtain ⟨rfl, rfl⟩ := hthird
        simp only [Tx.run_updateIn, Tx.run_pure, Tables.passwordAttempts_put,
          Tables.passwordAttempts_get, Option.some.injEq] at hcount
        obtain ⟨_, _, ⟨table, _, htable, rfl, -, rfl⟩, -, rfl⟩ := hcount
        exact ⟨rfl, _, rfl, .of_update hheld htable (fun _ => rfl) fun _ => rfl⟩
      · refine ⟨rfl, _, rfl, .of_update hheld htable (fun _ => rfl) fun row => ?_⟩
        simp only [settledRow, hother, if_false]

end Instant

section Waiting

variable {env : Env} {db : Db} {t t' retry : ℤ} {n : ℕ} {source : String} {e : Failure}

/-- A key that waited as long as it was told need not wait any more. -/
theorem Attempt.ofRow_waited {key : String} {limit length : ℤ} {row : Option AttemptRow}
    (h : (Attempt.ofRow key limit length t row).retry ≤ retry) (hpos : 1 ≤ retry)
    (hle : t + retry * 1000000 ≤ t') : (Attempt.ofRow key limit length t' row).retry ≤ 0 := by
  cases row with
  | none => exact le_rfl
  | some row =>
    by_cases hlimited : limit ≤ row.count ∧ t' < row.expiresAt
    · have hbefore : t < row.expiresAt := by omega
      have hwait := (secondsLeft_spec row.expiresAt t).2
      simp only [ofRow, hlimited.1, hbefore, and_self, if_true] at h
      omega
    · simp only [ofRow, hlimited, if_false]
      exact le_rfl

/-- A login that waited as long as it was told need not wait any more. -/
theorem loginRetry_waited {row : Option PasswordAttemptRow} (h : loginRetry row t ≤ retry)
    (hpos : 1 ≤ retry) (hle : t + retry * 1000000 ≤ t') : loginRetry row t' ≤ 0 := by
  cases row with
  | none => exact le_rfl
  | some row =>
    by_cases hlimited : row.failures = passwordFailureLimit ∧ row.windowOpen t' = true
    · obtain ⟨until', huntil, hopen⟩ := (Option.any_eq_true _ _).mp hlimited.2
      simp only [decide_eq_true_eq] at hopen
      have hbefore : row.windowOpen t = true := by
        simp only [PasswordAttemptRow.windowOpen, huntil, Option.any_some, decide_eq_true_eq]
        omega
      have hwait := (secondsLeft_spec until' t).2
      simp only [loginRetry, hlimited.1, hbefore, and_self, if_true, huntil, Option.getD_some] at h
      omega
    · simp only [loginRetry, hlimited, if_false]
      exact le_rfl

/-- What need not wait before clean-up need not wait after it. -/
theorem Attempt.ofRow_cleaned {key : String} {limit length : ℤ} {row row' : Option AttemptRow}
    (h : (Attempt.ofRow key limit length t row).retry ≤ 0) (hrow : row' = row ∨ row' = none) :
    (Attempt.ofRow key limit length t row').retry ≤ 0 := by
  rcases hrow with rfl | rfl
  · exact h
  · exact le_rfl

/-- A reservation fails only where it must wait. -/
theorem run_reserve_error {scope : AttemptScope}
    (h : (reserve source scope.key).run ⟨db, t, [], n⟩ = .error e) : ∃ db₁, Cleaned t db db₁ ∧
      0 < max (sourceAttempt db₁ source t).retry (scopeAttempt db₁ scope t).retry := by
  rcases Tx.run_bind_error.mp h with h | ⟨_, w₁, hcleanup, h⟩
  · exact absurd h (cleanup_avoids _)
  obtain ⟨db₁, rfl, hcleaned⟩ := run_cleanup_instant hcleanup
  rcases Tx.run_bind_error.mp h with h | ⟨a, w₂, ha, h⟩
  · exact absurd h (attempt_avoids _)
  obtain ⟨hequal, rfl⟩ := run_attempt_instant ha
  rcases Tx.run_bind_error.mp h with h | ⟨b, w₃, hb, h⟩
  · exact absurd h (attempt_avoids _)
  obtain ⟨hequal', rfl⟩ := run_attempt_instant hb
  refine ⟨db₁, hcleaned, ?_⟩
  by_contra hwait
  simp only at h
  rw [if_neg (by rw [hequal, hequal']; exact hwait)] at h
  have hcompletes : ∀ total : ℤ, (if maxAttemptRows < total + (if a.present then 0 else 1) +
      (if b.present then 0 else 1) then (pure (.error .busy) : Action (Except AuthorityError Unit))
      else do
        a.consume
        b.consume
        pure (.ok ())).Avoids e := by
    refine fun total => .ite .pure ?_
    refine (consume_avoids (run_attempt ha).2.1).bind fun _ => ?_
    exact (consume_avoids (run_attempt hb).2.1).bind fun _ => .pure
  exact (Tx.Avoids.query.bind hcompletes) _ h

/-- A claim's row is written where it was admitted: no clock reading lies between its checks. -/
theorem claimRow_completes {login : Digest} {token : Uuid} {lease : ℤ} :
    (claimRow login token lease).run ⟨db, t, [], n⟩ ≠ .error e := by
  intro h
  have hconstraint : e = .constraint := by
    simp only [claimRow, Tx.run_bind_error, Tx.run_clockTimestamp_error, Tx.find,
      Tx.run_query_error, Tx.run_clockTimestamp_instant, Tx.run_query, false_or,
      Tables.passwordAttempts_get] at h
    obtain ⟨_, _, ⟨rfl, rfl⟩, _, _, ⟨rfl, rfl⟩, h⟩ := h
    cases hrow : db.passwordAttempts.find? login with
    | none =>
      simp only [hrow, Tx.run_insertInto_error] at h
      exact h.2
    | some row =>
      simp only [hrow, Tx.run_bind_error, Tx.run_clockTimestamp_error, Tx.run_updateIn_error,
        Tx.run_pure_error, and_false, exists_false, or_false, false_or] at h
      obtain ⟨_, _, -, _, _, -, -, rfl⟩ := h
      rfl
  rw [hconstraint] at h
  obtain ⟨row, until', -, -, hbefore, hafter⟩ := claimRow_aborts_iff.mp h
  simp only [World.tick_instant] at hbefore hafter
  omega

/-- Admission of a claim fails only where it must wait. -/
theorem run_admitPassword_error {login : Digest}
    (h : (admitPassword login source).run ⟨db, t, [], n⟩ = .error e) : ∃ db₁, Cleaned t db db₁ ∧
      0 < max (loginRetry (db₁.passwordAttempts.find? login) t)
        (sourceAttempt db₁ source t).retry := by
  rcases Tx.run_bind_error.mp h with h | ⟨_, w₁, hcleanup, h⟩
  · exact absurd h (cleanup_avoids _)
  obtain ⟨db₁, rfl, hcleaned⟩ := run_cleanup_instant hcleanup
  rcases Tx.run_bind_error.mp h with h | ⟨a, w₂, ha, h⟩
  · exact absurd h (attempt_avoids _)
  obtain ⟨hequal, rfl⟩ := run_attempt_instant ha
  rcases Tx.run_bind_error.mp h with h | ⟨_, w₃, hfind, h⟩
  · exact absurd h (Tx.Avoids.query _)
  obtain ⟨rfl, rfl⟩ := Tx.run_find.mp hfind
  rcases Tx.run_bind_error.mp h with h | ⟨retry, w₄, hretry, h⟩
  · exact absurd h (retryNow_avoids _ _)
  obtain ⟨hequal', rfl⟩ := run_retryNow_instant hretry
  rcases Tx.run_bind_error.mp h with h | ⟨busy, w₅, hbusy, h⟩
  · exact absurd h (busyNow_avoids _ _)
  refine ⟨db₁, hcleaned, ?_⟩
  by_contra hwait
  simp only at h
  rw [if_neg (by rw [hequal, hequal']; exact hwait)] at h
  exact (Tx.Avoids.ite .pure (Tx.Avoids.query.bind fun _ => .ite .pure .pure)) _ h

/-- A claim fails only where it must wait. -/
theorem run_claimPassword_error {login : String} {lease : ℤ}
    (h : (claimPassword env login source lease).run ⟨db, t, [], n⟩ = .error e) :
    ∃ db₁, Cleaned t db db₁ ∧
      0 < max (loginRetry (db₁.passwordAttempts.find? (env.sha256.text login)) t)
        (sourceAttempt db₁ source t).retry := by
  simp only [claimPassword, prepareClaim] at h
  rcases Tx.run_bind_error.mp h with h | ⟨prepared, w₁, hprepare, h⟩
  · rcases Tx.run_bind_error.mp h with h | ⟨admitted, w₂, hadmit, h⟩
    · exact run_admitPassword_error h
    · exfalso
      cases admitted with
      | error refusal => exact Tx.run_pure_error.mp h
      | ok a =>
        refine ((consume_avoids ((run_admitPassword hadmit).2 a rfl).1).bind fun _ => ?_) _ h
        exact (Tx.Avoids.random.bind fun _ => .pure).bind fun _ => .pure
  · exfalso
    cases prepared with
    | error refusal => exact Tx.run_pure_error.mp h
    | ok token =>
      obtain ⟨admitted, _, hadmit, hprepare⟩ := Tx.run_bind.mp hprepare
      obtain ⟨db₁, -, rfl, houtcome⟩ := run_admitPassword_instant hadmit
      cases admitted with
      | error refusal => cases (Tx.run_pure.mp hprepare).1
      | ok a =>
        rcases houtcome with ⟨_, hrefused, -⟩ | hrefused | ⟨hsource, -⟩
        · cases hrefused
        · cases hrefused
        · simp only [Except.ok.injEq] at hsource
          subst hsource
          simp only [Tx.run_bind, run_newV4, Tx.run_pure] at hprepare
          obtain ⟨_, w₃, hconsume, _, _, ⟨-, rfl⟩, -, rfl⟩ := hprepare
          obtain ⟨db₂, rfl, -⟩ := run_consume_instant hconsume
          rcases Tx.run_bind_error.mp h with h | ⟨_, _, -, h⟩
          · exact claimRow_completes h
          · exact Tx.run_pure_error.mp h

end Waiting

section Steps

/-- A world in which no time passes inside the next transaction. -/
def stillWorld (w : Tenant) : Tenant := { w with delays := [] }

/-- What one transaction on the attempts did, with its answer. -/
inductive AttemptLabel
  | reserve (source : String) (scope : AttemptScope) (answer : Except AuthorityError Unit)
  | claim (login source : String) (lease : ℤ) (answer : Except AuthorityError PasswordClaim)
  | settle (claim : PasswordClaim) (outcome answer : Except AuthorityError AuthenticationCandidate)
  | clear (key : AccountKey)
  | cleanup
  | cancel (claim : PasswordClaim)
  | elsewhere

/-- The steps of the tenant's attempts with one clock reading in each transaction. A call that is
cancelled, or whose settlement fails, gives its claim up without a trace. -/
inductive AttemptStep (env : Env) : PasswordState → AttemptLabel → PasswordState → Prop
  | reserve {s : PasswordState} {source : String} {scope : AttemptScope}
      {answer : Except AuthorityError Unit} {w' : Tenant} :
      (IdentityAuthority.reserve source scope.key).run (stillWorld s.world) = .ok (answer, w') →
      AttemptStep env s (.reserve source scope answer) ⟨w', s.held⟩
  | claim {s : PasswordState} {login source : String} {lease : ℤ}
      {answer : Except AuthorityError PasswordClaim} {w' : Tenant} :
      (claimPassword env login source lease).run (stillWorld s.world) = .ok (answer, w') →
      AttemptStep env s (.claim login source lease answer)
        ⟨w', answer.toOption.toList ++ s.held⟩
  | settle {s : PasswordState} {claim : PasswordClaim}
      {outcome answer : Except AuthorityError AuthenticationCandidate} {w' : Tenant} :
      claim ∈ s.held →
      (settlePassword env claim outcome).run (stillWorld s.world) = .ok (answer, w') →
      AttemptStep env s (.settle claim outcome answer)
        ⟨w', s.held.filter fun c => decide (c ≠ claim)⟩
  | clear {s : PasswordState} {key : AccountKey} {u : Unit} {w' : Tenant} :
      (clearAttempts env key).run (stillWorld s.world) = .ok (u, w') →
      AttemptStep env s (.clear key) ⟨w', s.held⟩
  | cleanup {s : PasswordState} {u : Unit} {w' : Tenant} :
      IdentityAuthority.cleanup.run (stillWorld s.world) = .ok (u, w') →
      AttemptStep env s .cleanup ⟨w', s.held⟩
  | cancel {s : PasswordState} {claim : PasswordClaim} :
      AttemptStep env s (.cancel claim) ⟨s.world, s.held.filter fun c => decide (c ≠ claim)⟩
  | elsewhere {s : PasswordState} {w' : Tenant} :
      w'.state.attempts = s.world.state.attempts →
      w'.state.passwordAttempts = s.world.state.passwordAttempts → s.world.Advances w' →
      AttemptStep env s .elsewhere ⟨w', s.held⟩

variable {env : Env} {s s' : PasswordState} {label : AttemptLabel}

/-- Every step with one clock reading keeps what holds between steps with any number of them. -/
theorem AttemptStep.inv (hinv : s.Inv env) (hstep : AttemptStep env s label s') : s'.Inv env := by
  cases hstep with
  | @reserve source scope answer w' hrun =>
    have hcommit : PasswordStep env s (.call (.reserve source scope.key) [] none) _ :=
      .commit trivial (Tx.run_bind.mpr ⟨answer, w', hrun, Tx.run_pure.mpr ⟨rfl, rfl⟩⟩)
    exact hcommit.inv hinv
  | @claim login source lease answer w' hrun =>
    have hcommit : PasswordStep env s (.call (.claim login source lease) [] none) _ :=
      .commit trivial (Tx.run_bind.mpr ⟨answer, w', hrun, Tx.run_pure.mpr ⟨rfl, rfl⟩⟩)
    exact hcommit.inv hinv
  | @settle claim outcome answer w' hheld hrun =>
    have hcommit : PasswordStep env s (.call (.settle claim outcome) [] none) _ :=
      .commit hheld (Tx.run_bind.mpr ⟨answer, w', hrun, Tx.run_pure.mpr ⟨rfl, rfl⟩⟩)
    exact hcommit.inv hinv
  | @clear key u w' hrun =>
    have hcommit : PasswordStep env s (.call (.clear key) [] none) _ :=
      .commit trivial (Tx.run_bind.mpr ⟨u, w', hrun, Tx.run_pure.mpr ⟨rfl, rfl⟩⟩)
    exact hcommit.inv hinv
  | @cleanup u w' hrun =>
    have hcommit : PasswordStep env s (.call .cleanup [] none) _ :=
      .commit trivial (Tx.run_bind.mpr ⟨u, w', hrun, Tx.run_pure.mpr ⟨rfl, rfl⟩⟩)
    exact hcommit.inv hinv
  | cancel =>
    refine ⟨hinv.below, fun c hc => hinv.drawn c (List.mem_filter.mp hc).1, fun c hc c' hc' => ?_⟩
    exact hinv.distinct c (List.mem_filter.mp hc).1 c' (List.mem_filter.mp hc').1
  | elsewhere _ hsame hadvances =>
    have helsewhere : PasswordStep env s .elsewhere _ := .elsewhere hsame hadvances
    exact helsewhere.inv hinv

/-- Time never goes back. -/
theorem AttemptStep.clock_le (hstep : AttemptStep env s label s') :
    s.world.clock ≤ s'.world.clock := by
  cases hstep with
  | reserve h => exact ((IdentityAuthority.reserve _ _).advances _ _ _ h).clock
  | claim h => exact ((claimPassword _ _ _ _).advances _ _ _ h).clock
  | settle _ h => exact ((settlePassword _ _ _).advances _ _ _ h).clock
  | clear h => exact ((clearAttempts _ _).advances _ _ _ h).clock
  | cleanup h => exact (IdentityAuthority.cleanup.advances _ _ _ h).clock
  | cancel => exact le_rfl
  | elsewhere _ _ hadvances => exact hadvances.clock

end Steps

section Admission

variable {env : Env} {s s' start : PasswordState} {label : AttemptLabel}
  {trace : List (Event PasswordState AttemptLabel)}

/-- What attempts are counted under. -/
inductive AttemptKey
  | source (value : String)
  | scope (value : AttemptScope)

namespace AttemptKey

/-- The key of the row. -/
def text : AttemptKey → String
  | source value => "s:" ++ value
  | scope value => value.key

/-- The attempts admitted in a window. -/
def limit : AttemptKey → ℤ
  | source _ => attemptSourceLimit
  | scope _ => attemptScopeLimit

/-- The length of a window, in microseconds. -/
def length : AttemptKey → ℤ
  | source _ => attemptSourceSeconds * 1000000
  | scope _ => attemptScopeSeconds * 1000000

theorem length_pos (key : AttemptKey) : 0 < key.length := by
  cases key with
  | source => exact Int.mul_pos (by decide : (0 : ℤ) < attemptSourceSeconds) (by decide)
  | scope => exact Int.mul_pos (by decide : (0 : ℤ) < attemptScopeSeconds) (by decide)

theorem one_le_limit (key : AttemptKey) : 1 ≤ key.limit := by
  cases key with
  | source => exact (by decide : (1 : ℤ) ≤ attemptSourceLimit)
  | scope => exact (by decide : (1 : ℤ) ≤ attemptScopeLimit)

/-- The row of a source is that of no other key. -/
theorem eq_source_of_text {key : AttemptKey} {value : String} (h : key.text = "s:" ++ value) :
    key = source value := by
  cases key with
  | source other =>
    simp only [text, String.append_right_inj] at h
    rw [h]
  | scope scope => exact absurd h (scope.not_source value)

end AttemptKey

/-- The step admits an attempt that counts under a key. -/
def AttemptLabel.admits (key : AttemptKey) : AttemptLabel → Bool
  | reserve source scope (.ok _) =>
    decide (key.text = "s:" ++ source) || decide (key.text = scope.key)
  | claim _ source _ (.ok _) => decide (key.text = "s:" ++ source)
  | _ => false

/-- The times at which attempts were admitted under a key. -/
def admittedTimes (key : AttemptKey) (trace : List (Event PasswordState AttemptLabel)) : List ℤ :=
  (trace.filter fun e => e.label.admits key).map fun e => e.before.world.clock

/-- What one step does to a counter: an admitted attempt hits it below its limit, any other step
leaves what it stands for. -/
theorem AttemptStep.counter (hstep : AttemptStep env s label s') (key : AttemptKey) :
    (label.admits key = true ∧ s'.world.clock = s.world.clock ∧
      ∃ c, Agree s.world.clock c (s.world.state.attemptCounter key.text) ∧
        (∀ d ∈ Limits.live c s.world.clock, d.count < key.limit) ∧
        s'.world.state.attemptCounter key.text = some (hit key.length s.world.clock c)) ∨
    (label.admits key = false ∧ Agree s'.world.clock (s'.world.state.attemptCounter key.text)
      (s.world.state.attemptCounter key.text)) := by
  have hsame : ∀ {db db' : Db} {t : ℤ} {text : String},
      db'.attempts.find? text = db.attempts.find? text →
      Agree t (db'.attemptCounter text) (db.attemptCounter text) := by
    intro db db' t text h
    simp only [Db.attemptCounter, h]
    exact .refl _ _
  cases hstep with
  | @reserve source scope answer w' hrun =>
    obtain ⟨db₁, hcleaned, houtcome⟩ := run_reserve_instant hrun
    have hagree := hcleaned.attemptCounter key.text
    rcases houtcome with ⟨_, rfl, -, -, rfl⟩ | ⟨rfl, rfl⟩ |
      ⟨rfl, hsource, hscope, db₂, db₃, rfl, hcounted, hcounted', -⟩
    · exact .inr ⟨rfl, hagree⟩
    · exact .inr ⟨rfl, hagree⟩
    · by_cases hkey : key.text = "s:" ++ source
      · obtain rfl := AttemptKey.eq_source_of_text hkey
        refine .inl ⟨by simp [AttemptLabel.admits, hkey], rfl, _, hagree, ?_, ?_⟩
        · exact Attempt.ofRow_retry hsource
        · refine Eq.trans ?_ hcounted.hit
          have hother : "s:" ++ source ≠ scope.key := fun h => scope.not_source source h.symm
          simp only [Db.attemptCounter, AttemptKey.text, hcounted'.others _ hother]
      · by_cases hkey' : key.text = scope.key
        · have hkind : key = .scope ⟨key.text, by rw [hkey']; exact scope.not_source⟩ := by
            cases key with
            | source value => exact absurd hkey'.symm (scope.not_source value)
            | scope other => rfl
          have hlimit : key.limit = attemptScopeLimit := by rw [hkind]; rfl
          have hlength : key.length = attemptScopeSeconds * 1000000 := by rw [hkind]; rfl
          refine .inl ⟨by simp [AttemptLabel.admits, hkey'], rfl, _, hagree, ?_, ?_⟩
          · rw [hlimit, hkey']
            exact Attempt.ofRow_retry hscope
          · rw [hlength, hkey', hcounted'.hit]
            simp only [Db.attemptCounter, hcounted.scopeAttempt]
        · refine .inr ⟨by simp [AttemptLabel.admits, hkey, hkey'], (hsame ?_).trans hagree⟩
          rw [hcounted'.others _ hkey', hcounted.others _ hkey]
  | @claim login source lease answer w' hrun =>
    obtain ⟨db₁, hcleaned, houtcome⟩ := run_claimPassword_instant hrun
    have hagree := hcleaned.attemptCounter key.text
    rcases houtcome with ⟨_, rfl, -, -, rfl⟩ | ⟨rfl, rfl⟩ |
      ⟨token, rfl, -, hsource, db₂, db₃, rfl, hcounted, hclaimed, -⟩
    · exact .inr ⟨rfl, hagree⟩
    · exact .inr ⟨rfl, hagree⟩
    · have hattempts : db₃.attempts = db₂.attempts := by rw [hclaimed.frame]
      by_cases hkey : key.text = "s:" ++ source
      · obtain rfl := AttemptKey.eq_source_of_text hkey
        refine .inl ⟨by simp [AttemptLabel.admits, hkey], rfl, _, hagree, ?_, ?_⟩
        · exact Attempt.ofRow_retry hsource
        · refine Eq.trans ?_ hcounted.hit
          simp only [Db.attemptCounter, AttemptKey.text, hattempts]
      · refine .inr ⟨by simp [AttemptLabel.admits, hkey], (hsame ?_).trans hagree⟩
        rw [hattempts, hcounted.others _ hkey]
  | @settle claim outcome answer w' hheld hrun =>
    refine .inr ⟨rfl, hsame ?_⟩
    rcases run_settlePassword hrun with hstate | ⟨-, ⟨table, hstate⟩, -, -⟩
    · simp only [hstate, stillWorld]
    · simp only [hstate, stillWorld]
  | @clear _ u w' hrun =>
    obtain ⟨q, hstate⟩ := run_clearAttempts hrun
    refine .inr ⟨rfl, hsame ?_⟩
    simp only [hstate, stillWorld]
  | @cleanup u w' hrun =>
    obtain ⟨db₁, rfl, hcleaned⟩ := run_cleanup_instant hrun
    exact .inr ⟨rfl, hcleaned.attemptCounter key.text⟩
  | cancel => exact .inr ⟨rfl, .refl _ _⟩
  | @elsewhere w' hattempts _ hadvances => exact .inr ⟨rfl, hsame (by rw [hattempts])⟩

/-- What a run established of a counter: it stands for the attempts admitted so far, of which no
window held more than the limit. -/
structure Tallied (key : AttemptKey) (trace : List (Event PasswordState AttemptLabel))
    (s : PasswordState) : Prop where
  agree : Agree s.world.clock (s.world.state.attemptCounter key.text)
    (tally key.length (admittedTimes key trace))
  bounded : ∀ p, p <+: admittedTimes key trace → ∀ c ∈ tally key.length p, c.count ≤ key.limit
  sorted : (admittedTimes key trace).Pairwise (· ≤ ·)
  past : ∀ t ∈ admittedTimes key trace, t ≤ s.world.clock

/-- A hit below the limit stays within it. -/
theorem hit_count_le {c : Option Counter} {length t limit : ℤ} (hone : 1 ≤ limit)
    (hbelow : ∀ d ∈ Limits.live c t, d.count < limit) : (hit length t c).count ≤ limit := by
  unfold hit
  cases hlive : Limits.live c t with
  | none => exact hone
  | some d =>
    have hd := hbelow d hlive
    simp only
    omega

/-- Every step keeps a counter in agreement with the attempts admitted. -/
theorem Tallied.step {key : AttemptKey} (h : Tallied key trace s)
    (hstep : AttemptStep env s label s') : Tallied key (trace ++ [⟨s, label, s'⟩]) s' := by
  have hclock := hstep.clock_le
  rcases hstep.counter key with ⟨hadmits, hnow, c, hagree, hbelow, hhit⟩ | ⟨hadmits, hagree⟩
  · have htimes : admittedTimes key (trace ++ [⟨s, label, s'⟩]) =
        admittedTimes key trace ++ [s.world.clock] := by
      simp [admittedTimes, hadmits]
    have hsame : hit key.length s.world.clock c =
        hit key.length s.world.clock (tally key.length (admittedTimes key trace)) :=
      (hagree.trans h.agree).hit_eq
    have hpast : ∀ t ∈ admittedTimes key trace ++ [s.world.clock], t ≤ s'.world.clock := by
      intro t ht
      rcases List.mem_append.mp ht with ht | ht
      · exact (h.past t ht).trans hclock
      · rw [List.mem_singleton.mp ht]
        exact hclock
    refine ⟨?_, ?_, ?_, by rwa [htimes]⟩
    · rw [htimes, tally_append_singleton, hhit, hsame]
      exact .refl _ _
    · rw [htimes]
      intro p hp d hd
      rcases List.prefix_concat_iff.mp hp with rfl | hp
      · rw [tally_append_singleton, Option.mem_some_iff, ← hsame] at hd
        rw [← hd]
        exact hit_count_le key.one_le_limit hbelow
      · exact h.bounded p hp d hd
    · rw [htimes, List.pairwise_append]
      refine ⟨h.sorted, List.pairwise_singleton _ _, fun t ht x hx => ?_⟩
      rw [List.mem_singleton.mp hx]
      exact h.past t ht
  · have htimes : admittedTimes key (trace ++ [⟨s, label, s'⟩]) = admittedTimes key trace := by
      simp [admittedTimes, hadmits]
    refine ⟨?_, by rw [htimes]; exact h.bounded, by rw [htimes]; exact h.sorted, ?_⟩
    · rw [htimes]
      exact hagree.trans (h.agree.later hclock)
    · rw [htimes]
      exact fun t ht => (h.past t ht).trans hclock

/-- No step makes the attempt tables larger than their limit. -/
theorem AttemptStep.rows_le (hstep : AttemptStep env s label s')
    (h : (s.world.state.attemptRows : ℤ) ≤ maxAttemptRows) :
    (s'.world.state.attemptRows : ℤ) ≤ maxAttemptRows := by
  cases hstep with
  | @reserve source scope answer w' hrun =>
    obtain ⟨db₁, hcleaned, houtcome⟩ := run_reserve_instant hrun
    have hrows : (db₁.attemptRows : ℤ) ≤ s.world.state.attemptRows :=
      Int.ofNat_le.mpr hcleaned.rows
    rcases houtcome with ⟨_, -, -, -, rfl⟩ | ⟨-, rfl⟩ | ⟨-, -, -, db₂, db₃, rfl, -, -, hfits⟩
    · exact hrows.trans h
    · exact hrows.trans h
    · exact hfits
  | @claim login source lease answer w' hrun =>
    obtain ⟨db₁, hcleaned, houtcome⟩ := run_claimPassword_instant hrun
    have hrows : (db₁.attemptRows : ℤ) ≤ s.world.state.attemptRows :=
      Int.ofNat_le.mpr hcleaned.rows
    rcases houtcome with ⟨_, -, -, -, rfl⟩ | ⟨-, rfl⟩ | ⟨_, -, -, -, db₂, db₃, rfl, -, -, hfits⟩
    · exact hrows.trans h
    · exact hrows.trans h
    · exact hfits
  | @settle claim outcome answer w' hheld hrun =>
    rcases run_settlePassword_instant hrun with ⟨-, -, rfl⟩ | ⟨-, -, db₁, rfl, hsettled⟩
    · exact h
    · have hrows := hsettled.rows
      have hattempts := congrArg Db.attempts hsettled.frame
      simp only at hattempts
      simp only [Db.attemptRows, hattempts] at h ⊢
      omega
  | @clear _ u w' hrun =>
    obtain ⟨q, hstate⟩ := run_clearAttempts hrun
    have hrows := Table.length_deleteWhere_le s.world.state.passwordAttempts q
    simp only [Db.attemptRows, hstate, stillWorld] at h ⊢
    omega
  | @cleanup u w' hrun =>
    obtain ⟨db₁, rfl, hcleaned⟩ := run_cleanup_instant hrun
    exact (Int.ofNat_le.mpr hcleaned.rows).trans h
  | cancel => exact h
  | @elsewhere w' hattempts hpasswords _ =>
    simp only [Db.attemptRows, hattempts, hpasswords] at h ⊢
    exact h

/-- The attempts of a tenant before any call. -/
def PasswordState.unattempted (w : Tenant) : PasswordState :=
  ⟨{ w with state := { w.state with attempts := .empty, passwordAttempts := .empty } }, []⟩

theorem PasswordState.unattempted_inv (w : Tenant) : (unattempted w).Inv env :=
  ⟨fun _ hr => absurd hr Table.not_mem_empty, by simp [unattempted], by simp [unattempted]⟩

theorem PasswordState.unattempted_tallied (w : Tenant) (key : AttemptKey) :
    Tallied key [] (unattempted w) := by
  refine ⟨.refl _ _, fun p hp c hc => ?_, .nil, by simp [admittedTimes]⟩
  obtain rfl := List.prefix_nil.mp hp
  cases hc

/-- What admission control promises of a run and of the next call after it. -/
structure AdmissionControl (env : Env) (trace : List (Event PasswordState AttemptLabel))
    (s : PasswordState) : Prop where
  limited : ∀ (key : AttemptKey) pre t post, admittedTimes key trace = pre ++ t :: post →
    Limits.live (tally key.length pre) t = none →
    (((t :: post).filter fun x => decide (x < t + key.length)).length : ℤ) ≤ key.limit
  rows : (s.world.state.attemptRows : ℤ) ≤ maxAttemptRows
  reserveRefused : ∀ source (scope : AttemptScope) refusal w₁,
    (reserve source scope.key).run (stillWorld s.world) = .ok (.error refusal, w₁) →
    Cleaned s.world.clock s.world.state w₁.state
  claimRefused : ∀ login source lease refusal w₁,
    (claimPassword env login source lease).run (stillWorld s.world) = .ok (.error refusal, w₁) →
    Cleaned s.world.clock s.world.state w₁.state
  reserveRetry : ∀ source (scope : AttemptScope) retry w₁,
    (reserve source scope.key).run (stillWorld s.world) = .ok (.error (.rateLimited retry), w₁) →
    1 ≤ retry ∧ ∀ w₂ : Tenant, w₂.state.attempts = w₁.state.attempts →
      w₂.state.passwordAttempts = w₁.state.passwordAttempts →
      s.world.clock + retry * 1000000 ≤ w₂.clock →
      ∃ answer w₃, (reserve source scope.key).run (stillWorld w₂) = .ok (answer, w₃) ∧
        ∀ r, answer ≠ .error (.rateLimited r)
  claimRetry : ∀ login source lease retry w₁,
    (claimPassword env login source lease).run (stillWorld s.world) =
      .ok (.error (.rateLimited retry), w₁) →
    1 ≤ retry ∧ ∀ w₂ : Tenant, w₂.state.attempts = w₁.state.attempts →
      w₂.state.passwordAttempts = w₁.state.passwordAttempts →
      s.world.clock + retry * 1000000 ≤ w₂.clock →
      ∃ answer w₃, (claimPassword env login source lease).run (stillWorld w₂) = .ok (answer, w₃) ∧
        ∀ r, answer ≠ .error (.rateLimited r)

/-- The rows that a later clean-up leaves are rows that were there. -/
theorem Cleaned.attempts_imp {t : ℤ} {db db₁ db₂ : Db} (h : Cleaned t db₂ db₁)
    (hsame : db₂.attempts = db.attempts) (key : String) :
    db₁.attempts.find? key = db.attempts.find? key ∨ db₁.attempts.find? key = none := by
  rw [← hsame]
  exact (h.attempts key).imp_right And.left

theorem Cleaned.passwords_imp {t : ℤ} {db db₁ db₂ : Db} (h : Cleaned t db₂ db₁)
    (hsame : db₂.passwordAttempts = db.passwordAttempts) (login : Digest) :
    db₁.passwordAttempts.find? login = db.passwordAttempts.find? login ∨
      db₁.passwordAttempts.find? login = none := by
  rw [← hsame]
  exact (h.passwords login).imp_right And.left

/-- A reservation that waited as long as it was told is not told to wait. -/
theorem reserve_waited {w w₁ w₂ : Tenant} {source : String} {scope : AttemptScope} {retry : ℤ}
    (h : (reserve source scope.key).run (stillWorld w) = .ok (.error (.rateLimited retry), w₁))
    (hattempts : w₂.state.attempts = w₁.state.attempts)
    (hlater : w.clock + retry * 1000000 ≤ w₂.clock) :
    ∃ answer w₃, (reserve source scope.key).run (stillWorld w₂) = .ok (answer, w₃) ∧
      ∀ r, answer ≠ .error (.rateLimited r) := by
  obtain ⟨db₁, -, houtcome⟩ := run_reserve_instant h
  rcases houtcome with ⟨_, hrefusal, hpos, hretry, rfl⟩ | ⟨hrefusal, -⟩ | ⟨hok, -⟩
  · simp only [Except.error.injEq, AuthorityError.rateLimited.injEq] at hrefusal
    subst hrefusal
    have hno : ∀ db₃, Cleaned w₂.clock w₂.state db₃ →
        max (sourceAttempt db₃ source w₂.clock).retry (scopeAttempt db₃ scope w₂.clock).retry ≤ 0 := by
      intro db₃ hcleaned
      refine max_le ?_ ?_
      · exact Attempt.ofRow_cleaned (Attempt.ofRow_waited (hretry ▸ le_max_left _ _) hpos hlater)
          (hcleaned.attempts_imp hattempts _)
      · exact Attempt.ofRow_cleaned (Attempt.ofRow_waited (hretry ▸ le_max_right _ _) hpos hlater)
          (hcleaned.attempts_imp hattempts _)
    cases hrun : (reserve source scope.key).run (stillWorld w₂) with
    | error e =>
      obtain ⟨db₃, hcleaned, hwait⟩ := run_reserve_error hrun
      have hle := hno db₃ hcleaned
      omega
    | ok result =>
      obtain ⟨answer, w₃⟩ := result
      refine ⟨answer, w₃, rfl, ?_⟩
      rintro r rfl
      obtain ⟨db₃, hcleaned, houtcome⟩ := run_reserve_instant hrun
      rcases houtcome with ⟨_, -, hwait, hequal, -⟩ | ⟨hbusy, -⟩ | ⟨hok, -⟩
      · have hle := hno db₃ hcleaned
        omega
      · cases hbusy
      · cases hok
  · cases hrefusal
  · cases hok

/-- A claim that waited as long as it was told is not told to wait. -/
theorem claimPassword_waited {w w₁ w₂ : Tenant} {login source : String} {lease retry : ℤ}
    (h : (claimPassword env login source lease).run (stillWorld w) =
      .ok (.error (.rateLimited retry), w₁))
    (hattempts : w₂.state.attempts = w₁.state.attempts)
    (hpasswords : w₂.state.passwordAttempts = w₁.state.passwordAttempts)
    (hlater : w.clock + retry * 1000000 ≤ w₂.clock) :
    ∃ answer w₃, (claimPassword env login source lease).run (stillWorld w₂) = .ok (answer, w₃) ∧
      ∀ r, answer ≠ .error (.rateLimited r) := by
  obtain ⟨db₁, -, houtcome⟩ := run_claimPassword_instant h
  rcases houtcome with ⟨_, hrefusal, hpos, hretry, rfl⟩ | ⟨hrefusal, -⟩ | ⟨token, hok, -⟩
  · simp only [Except.error.injEq, AuthorityError.rateLimited.injEq] at hrefusal
    subst hrefusal
    have hno : ∀ db₃, Cleaned w₂.clock w₂.state db₃ →
        max (loginRetry (db₃.passwordAttempts.find? (env.sha256.text login)) w₂.clock)
          (sourceAttempt db₃ source w₂.clock).retry ≤ 0 := by
      intro db₃ hcleaned
      refine max_le ?_ ?_
      · rcases hcleaned.passwords_imp hpasswords (env.sha256.text login) with hsame | hnone
        · rw [hsame]
          exact loginRetry_waited (hretry ▸ le_max_left _ _) hpos hlater
        · rw [hnone]
          exact le_rfl
      · exact Attempt.ofRow_cleaned (Attempt.ofRow_waited (hretry ▸ le_max_right _ _) hpos hlater)
          (hcleaned.attempts_imp hattempts _)
    cases hrun : (claimPassword env login source lease).run (stillWorld w₂) with
    | error e =>
      obtain ⟨db₃, hcleaned, hwait⟩ := run_claimPassword_error hrun
      have hle := hno db₃ hcleaned
      omega
    | ok result =>
      obtain ⟨answer, w₃⟩ := result
      refine ⟨answer, w₃, rfl, ?_⟩
      rintro r rfl
      obtain ⟨db₃, hcleaned, houtcome⟩ := run_claimPassword_instant hrun
      rcases houtcome with ⟨_, -, hwait, hequal, -⟩ | ⟨hbusy, -⟩ | ⟨token, hok, -⟩
      · have hle := hno db₃ hcleaned
        omega
      · cases hbusy
      · cases hok
  · cases hrefusal
  · cases hok

/-- Admission control: in every run of reservations and claims, with whatever else happens on the
attempt tables in between, no window admits more than its limit, and the tables stay bounded. -/
theorem admission_controlled {w : Tenant} (hrun : Run (AttemptStep env) (.unattempted w) trace s) :
    AdmissionControl env trace s := by
  have htallied : ∀ key, Tallied key trace s := fun key =>
    hrun.history (PasswordState.unattempted_tallied w key)
      fun _ _ _ _ _ htallied hstep => htallied.step hstep
  have hrows : (s.world.state.attemptRows : ℤ) ≤ maxAttemptRows := by
    refine hrun.history (H := fun _ s => (s.world.state.attemptRows : ℤ) ≤ maxAttemptRows) ?_ ?_
    · change ((0 : ℕ) : ℤ) ≤ maxAttemptRows
      decide
    · exact fun _ s label s' _ h hstep => hstep.rows_le h
  refine ⟨?_, hrows, ?_, ?_, ?_, ?_⟩
  · intro key pre t post htimes hopens
    exact hits_in_window_le key.length_pos (htallied key).sorted (htallied key).bounded htimes hopens
  · intro source scope refusal w₁ h
    obtain ⟨db₁, hcleaned, houtcome⟩ := run_reserve_instant h
    rcases houtcome with ⟨_, -, -, -, rfl⟩ | ⟨-, rfl⟩ | ⟨hok, -⟩
    · exact hcleaned
    · exact hcleaned
    · cases hok
  · intro login source lease refusal w₁ h
    obtain ⟨db₁, hcleaned, houtcome⟩ := run_claimPassword_instant h
    rcases houtcome with ⟨_, -, -, -, rfl⟩ | ⟨-, rfl⟩ | ⟨token, hok, -⟩
    · exact hcleaned
    · exact hcleaned
    · cases hok
  · intro source scope retry w₁ h
    obtain ⟨db₁, -, houtcome⟩ := run_reserve_instant h
    refine ⟨?_, fun w₂ hattempts _ hlater => reserve_waited h hattempts hlater⟩
    rcases houtcome with ⟨_, hrefusal, hpos, -⟩ | ⟨hrefusal, -⟩ | ⟨hok, -⟩
    · cases hrefusal
      exact hpos
    · cases hrefusal
    · cases hok
  · intro login source lease retry w₁ h
    obtain ⟨db₁, -, houtcome⟩ := run_claimPassword_instant h
    refine ⟨?_, fun w₂ hattempts hpasswords hlater =>
      claimPassword_waited h hattempts hpasswords hlater⟩
    rcases houtcome with ⟨_, hrefusal, hpos, -⟩ | ⟨hrefusal, -⟩ | ⟨token, hok, -⟩
    · cases hrefusal
      exact hpos
    · cases hrefusal
    · cases hok

/-- The first claim of the reference deployment, with its answer. -/
def firstAnswer : Except Failure (Except AuthorityError PasswordClaim × Tenant) :=
  (claimPassword .transparent "a" "x" 60000000).run
    (stillWorld (PasswordState.unattempted ⟨.provisioned, 0, [], 0⟩).world)

/-- After one claim its source has one admitted attempt, and admission control holds. -/
theorem firstClaim_controlled : ∃ trace s, AdmissionControl .transparent trace s ∧
    admittedTimes (.source "x") trace = [0] := by
  have hok : (firstAnswer.toOption.any fun r => r.1.toOption.isSome) = true := by decide
  cases hanswer : firstAnswer with
  | error e => simp [hanswer, Except.toOption] at hok
  | ok result =>
    obtain ⟨answer, w'⟩ := result
    cases answer with
    | error refusal => simp [hanswer, Except.toOption] at hok
    | ok claim =>
      have hstep : AttemptStep .transparent (.unattempted ⟨.provisioned, 0, [], 0⟩) _ _ :=
        .claim hanswer
      exact ⟨_, _, admission_controlled (Run.start.step hstep), rfl⟩

end Admission

end IdentityAuthority
