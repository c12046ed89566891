import IdentityAuthority.Protocols.Admission

/-!
# Lockout

Rejected passwords of a login are counted in a fixed window, and at five of them the login is locked
until the window ends. A verification runs outside the database between a claim and its settlement;
claims may expire, be superseded or be given up, and the counter still stands for the rejections
that were confirmed since it was last reset.
-/

namespace IdentityAuthority

open Relational Transition Limits

variable {env : Env} {s s' : PasswordState} {label : AttemptLabel}
  {trace : List (Event PasswordState AttemptLabel)}

section History

/-- The event resets the failures of a login: it verified, or its credential changed. -/
def resets (env : Env) (login : Digest) (e : Event PasswordState AttemptLabel) : Bool :=
  match e.label with
  | .settle claim _ (.ok _) => decide (claim.login = login)
  | .clear key =>
    (e.before.world.state.localCredentials.filter fun row => decide (row.principal = key)).any
      fun row => decide (env.sha256.text row.loginKey = login)
  | _ => false

/-- The event is a confirmed rejection of a login. -/
def rejects (login : Digest) (e : Event PasswordState AttemptLabel) : Bool :=
  match e.label with
  | .settle claim (.error .rejected) _ =>
    decide (claim.login = login) && claim.holds e.before.world.state e.before.world.clock
  | _ => false

/-- The times of the confirmed rejections of a login since its last reset. -/
def rejections (env : Env) (login : Digest) (trace : List (Event PasswordState AttemptLabel)) :
    List ℤ :=
  trace.foldl (fun times e =>
    if resets env login e then []
    else if rejects login e then times ++ [e.before.world.clock] else times) []

theorem rejections_append {login : Digest} {e : Event PasswordState AttemptLabel} :
    rejections env login (trace ++ [e]) =
      if resets env login e then []
      else if rejects login e then rejections env login trace ++ [e.before.world.clock]
      else rejections env login trace := by
  simp [rejections, List.foldl_append]

end History

section Steps

variable {db db₁ : Db} {t : ℤ} {n : ℕ} {w' : Tenant} {login : Digest}

/-- A credential change forgets the attempts on the logins of its account, and no others. -/
theorem run_clearAttempts_instant {key : AccountKey} {u : Unit}
    (h : (clearAttempts env key).run ⟨db, t, [], n⟩ = .ok (u, w')) :
    ∃ db', w' = ⟨db', t, [], n⟩ ∧
      db' = { db with passwordAttempts := db'.passwordAttempts } ∧
      ∀ login, db'.passwordAttempts.find? login =
        if (db.localCredentials.filter fun row => decide (row.principal = key)).any
          (fun row => decide (env.sha256.text row.loginKey = login)) then none
        else db.passwordAttempts.find? login := by
  simp only [clearAttempts, Tx.run_bind, Tx.run_select, Tx.run_deleteFrom, Tx.run_pure,
    Tables.passwordAttempts_put, Tables.passwordAttempts_get, Tables.localCredentials_get,
    Option.some.injEq] at h
  obtain ⟨logins, _, ⟨rfl, rfl⟩, _, _, ⟨_, rfl, -, rfl⟩, -, rfl⟩ := h
  refine ⟨_, rfl, rfl, fun login => ?_⟩
  have hcontains : ∀ logins : List LocalCredentialRow,
      (logins.map fun row => env.sha256.text row.loginKey).contains login =
        logins.any fun row => decide (env.sha256.text row.loginKey = login) := by
    intro logins
    induction logins with
    | nil => rfl
    | cons row logins ih =>
      simp only [List.map_cons, List.contains_cons, List.any_cons, ih]
      by_cases hlogin : env.sha256.text row.loginKey = login
      · simp [hlogin]
      · simp [hlogin, Ne.symm hlogin]
  rcases Table.find?_deleteWhere db.passwordAttempts (fun row =>
      ((db.localCredentials.filter fun row => decide (row.principal = key)).map
        fun row => env.sha256.text row.loginKey).contains row.loginDigest) login with
    hsame | ⟨hnone, row, hrow, hdeleted⟩
  · split
    · rename_i hreset
      cases hfound : db.passwordAttempts.find? login with
      | none => exact hsame.trans hfound
      | some row =>
        have hkept := (Table.find?_deleteWhere_eq_some.mp (hsame.trans hfound)).2
        have hlogin : row.loginDigest = login := Table.key_of_find? hfound
        rw [hlogin, hcontains, hreset] at hkept
        cases hkept
    · exact hsame
  · have hlogin : row.loginDigest = login := Table.key_of_find? hrow
    rw [hlogin, hcontains] at hdeleted
    rw [if_pos hdeleted]
    exact hnone

/-- A confirmed rejection hits the counter of its row. -/
theorem counter_failed (row : PasswordAttemptRow) :
    (row.failed t t t).counter = some (hit passwordFailureWindow t row.counter) := by
  simp only [hit, live_counter]
  cases hopen : row.windowOpen t with
  | false => simp [PasswordAttemptRow.failed, PasswordAttemptRow.counter, hopen]
  | true =>
    obtain ⟨until', huntil, -⟩ := (Option.any_eq_true _ _).mp hopen
    simp [PasswordAttemptRow.failed, PasswordAttemptRow.counter, hopen, huntil]

/-- Rows that are the same keep what they count. -/
theorem agree_of_find? (h : db₁.passwordAttempts.find? login = db.passwordAttempts.find? login) :
    Agree t (db₁.failureCounter login) (db.failureCounter login) := by
  simp only [Db.failureCounter, h]
  exact .refl _ _

/-- A login that is let through stands below its limit. -/
theorem failures_lt_of_retry (h : loginRetry (db.passwordAttempts.find? login) t ≤ 0) :
    ∀ c ∈ Limits.live (db.failureCounter login) t, c.count < passwordFailureLimit := by
  unfold Db.failureCounter
  cases hrow : db.passwordAttempts.find? login with
  | none => simp
  | some row =>
    have hcheck : Keyed.Check row := Table.check_of_mem (Table.mem_of_find? hrow)
    have hmax : row.failures ≤ 5 := hcheck.1.2
    intro c hc
    simp only [Option.bind_some, live_counter] at hc
    cases hopen : row.windowOpen t with
    | false => simp [hopen] at hc
    | true =>
      simp only [hopen, if_true, Option.mem_some_iff] at hc
      subst hc
      simp only [hrow, loginRetry, hopen, and_true] at h
      by_contra hlimit
      unfold passwordFailureLimit at hlimit h
      simp only at hlimit
      have hwait := (secondsLeft_spec (row.windowUntil.getD 0) t).1
      rw [if_pos (by omega)] at h
      omega

/-- A login whose row is claimed stands below its limit. -/
theorem failures_lt_of_holds {claim : PasswordClaim} (hbelow : ClaimedBelowLimit db)
    (h : claim.holds db t = true) :
    ∀ c ∈ Limits.live (db.failureCounter claim.login) t, c.count < passwordFailureLimit := by
  unfold PasswordClaim.holds at h
  unfold Db.failureCounter
  cases hrow : db.passwordAttempts.find? claim.login with
  | none => simp
  | some row =>
    simp only [hrow, Option.any_some, Bool.and_eq_true, decide_eq_true_eq] at h
    have hlt := hbelow row (Table.mem_of_find? hrow) (by simp [h.1])
    intro c hc
    simp only [Option.bind_some, live_counter] at hc
    split at hc
    · rw [← Option.mem_some_iff.mp hc]
      exact hlt
    · cases hc

/-- What one step does to the failures of a login. -/
theorem AttemptStep.failures (hinv : s.Inv env) (hstep : AttemptStep env s label s')
    (login : Digest) :
    (resets env login ⟨s, label, s'⟩ = true ∧ s'.world.state.failureCounter login = none) ∨
    (resets env login ⟨s, label, s'⟩ = false ∧ rejects login ⟨s, label, s'⟩ = true ∧
      (∀ d ∈ Limits.live (s.world.state.failureCounter login) s.world.clock,
        d.count < passwordFailureLimit) ∧
      s'.world.state.failureCounter login =
        some (hit passwordFailureWindow s.world.clock (s.world.state.failureCounter login))) ∨
    (resets env login ⟨s, label, s'⟩ = false ∧ rejects login ⟨s, label, s'⟩ = false ∧
      Agree s'.world.clock (s'.world.state.failureCounter login)
        (s.world.state.failureCounter login)) := by
  cases hstep with
  | @reserve source scope answer w' hrun =>
    refine .inr (.inr ⟨rfl, rfl, ?_⟩)
    obtain ⟨db₁, hcleaned, houtcome⟩ := run_reserve_instant hrun
    have hagree := hcleaned.failureCounter login
    rcases houtcome with ⟨_, -, -, -, rfl⟩ | ⟨-, rfl⟩ | ⟨-, -, -, db₂, db₃, rfl, hcounted, hcounted', -⟩
    · exact hagree
    · exact hagree
    · refine (agree_of_find? ?_).trans hagree
      rw [hcounted'.frame, hcounted.frame]
  | @claim name source lease answer w' hrun =>
    refine .inr (.inr ⟨rfl, rfl, ?_⟩)
    obtain ⟨db₁, hcleaned, houtcome⟩ := run_claimPassword_instant hrun
    have hagree := hcleaned.failureCounter login
    rcases houtcome with ⟨_, -, -, -, rfl⟩ | ⟨-, rfl⟩ |
      ⟨token, -, -, -, db₂, db₃, rfl, hcounted, hclaimed, -⟩
    · exact hagree
    · exact hagree
    · have hcountedAgree : Agree s.world.clock (db₂.failureCounter login)
          (db₁.failureCounter login) := agree_of_find? (by rw [hcounted.frame])
      refine Agree.trans ?_ (hcountedAgree.trans hagree)
      by_cases hlogin : login = env.sha256.text name
      · rw [hlogin]
        exact hclaimed.counter
      · exact agree_of_find? (hclaimed.others login hlogin)
  | @settle claim outcome answer w' hheld hrun =>
    rcases run_settlePassword_instant hrun with ⟨hlost, rfl, rfl⟩ | ⟨hholds, rfl, db₁, rfl, hsettled⟩
    · refine .inr (.inr ⟨rfl, ?_, .refl _ _⟩)
      unfold rejects
      simp only
      split
      · have hlost' : claim.holds s.world.state s.world.clock = false := hlost
        simp_all
      · rfl
    · by_cases hlogin : claim.login = login
      · subst hlogin
        have hrow := hsettled.row
        cases answer with
        | ok candidate =>
          refine .inl ⟨by simp [resets], ?_⟩
          simp only [Db.failureCounter, hrow]
          cases s.world.state.passwordAttempts.find? claim.login <;> rfl
        | error error =>
          by_cases hrejected : error = .rejected
          · subst hrejected
            have hheldRow : claim.holds s.world.state s.world.clock = true := hholds
            refine .inr (.inl ⟨rfl, by simp [rejects, hheldRow],
              failures_lt_of_holds hinv.below hheldRow, ?_⟩)
            simp only [Db.failureCounter, hrow]
            unfold PasswordClaim.holds at hheldRow
            cases hfound : s.world.state.passwordAttempts.find? claim.login with
            | none => simp [hfound] at hheldRow
            | some row =>
              simp only [Option.bind_some, settledRow, if_true]
              exact counter_failed row
          · refine .inr (.inr ⟨rfl, ?_, ?_⟩)
            · simp [rejects, hrejected]
            · simp only [Agree, Db.failureCounter, hrow]
              cases s.world.state.passwordAttempts.find? claim.login with
              | none => rfl
              | some row =>
                simp only [Option.bind_some, settledRow, hrejected, if_false]
                rfl
      · refine .inr (.inr ⟨?_, ?_, agree_of_find? (hsettled.others login (Ne.symm hlogin))⟩)
        · cases answer <;> simp [resets, hlogin]
        · unfold rejects
          simp only
          split
          · rename_i heq
            cases heq
            simp [hlogin]
          · rfl
  | @clear key u w' hrun =>
    obtain ⟨db₁, rfl, -, hfind⟩ := run_clearAttempts_instant hrun
    have hrow := hfind login
    split at hrow
    · rename_i hreset
      refine .inl ⟨hreset, ?_⟩
      simp only [Db.failureCounter, hrow, Option.bind_none]
    · rename_i hkept
      exact .inr (.inr ⟨by simpa [resets] using hkept, rfl, agree_of_find? hrow⟩)
  | @cleanup u w' hrun =>
    obtain ⟨db₁, rfl, hcleaned⟩ := run_cleanup_instant hrun
    exact .inr (.inr ⟨rfl, rfl, hcleaned.failureCounter login⟩)
  | cancel => exact .inr (.inr ⟨rfl, rfl, .refl _ _⟩)
  | elsewhere _ hpasswords _ =>
    exact .inr (.inr ⟨rfl, rfl, agree_of_find? (by rw [hpasswords])⟩)

end Steps

section Runs

variable {login : Digest} {w : Tenant}

/-- What a run established of the failures of a login: its row stands for the rejections that were
confirmed since its last reset, of which no window held more than the limit. -/
structure Guessed (env : Env) (login : Digest) (trace : List (Event PasswordState AttemptLabel))
    (s : PasswordState) : Prop where
  agree : Agree s.world.clock (s.world.state.failureCounter login)
    (tally passwordFailureWindow (rejections env login trace))
  bounded : ∀ p, p <+: rejections env login trace → ∀ c ∈ tally passwordFailureWindow p,
    c.count ≤ passwordFailureLimit
  sorted : (rejections env login trace).Pairwise (· ≤ ·)
  past : ∀ t ∈ rejections env login trace, t ≤ s.world.clock

/-- After a reset nothing is counted. -/
theorem Guessed.of_reset (hrejections : rejections env login trace = [])
    (hcounter : s.world.state.failureCounter login = none) : Guessed env login trace s := by
  refine ⟨?_, fun p hp c hc => ?_, ?_, ?_⟩
  · rw [hrejections, hcounter]
    exact .refl _ _
  · rw [hrejections] at hp
    obtain rfl := List.prefix_nil.mp hp
    cases hc
  · rw [hrejections]
    exact .nil
  · simp [hrejections]

/-- Every step keeps the row of a login in agreement with its confirmed rejections. -/
theorem Guessed.step (h : Guessed env login trace s) (hinv : s.Inv env)
    (hstep : AttemptStep env s label s') : Guessed env login (trace ++ [⟨s, label, s'⟩]) s' := by
  have hclock := hstep.clock_le
  rcases hstep.failures hinv login with ⟨hreset, hnone⟩ | ⟨hreset, hrejects, hbelow, hhit⟩ |
    ⟨hreset, hrejects, hagree⟩
  · exact .of_reset (by simp only [rejections_append, hreset, if_true]) hnone
  · have htimes : rejections env login (trace ++ [⟨s, label, s'⟩]) =
        rejections env login trace ++ [s.world.clock] := by
      simp only [rejections_append, hreset, hrejects, Bool.false_eq_true, if_false, if_true]
    have hsame : hit passwordFailureWindow s.world.clock (s.world.state.failureCounter login) =
        hit passwordFailureWindow s.world.clock
          (tally passwordFailureWindow (rejections env login trace)) := h.agree.hit_eq
    refine ⟨?_, ?_, ?_, ?_⟩
    · rw [htimes, tally_append_singleton, hhit, hsame]
      exact .refl _ _
    · rw [htimes]
      intro p hp d hd
      rcases List.prefix_concat_iff.mp hp with rfl | hp
      · rw [tally_append_singleton, Option.mem_some_iff, ← hsame] at hd
        rw [← hd]
        exact hit_count_le (by decide) hbelow
      · exact h.bounded p hp d hd
    · rw [htimes, List.pairwise_append]
      refine ⟨h.sorted, List.pairwise_singleton _ _, fun t ht x hx => ?_⟩
      rw [List.mem_singleton.mp hx]
      exact h.past t ht
    · rw [htimes]
      intro t ht
      rcases List.mem_append.mp ht with ht | ht
      · exact (h.past t ht).trans hclock
      · rw [List.mem_singleton.mp ht]
        exact hclock
  · have htimes : rejections env login (trace ++ [⟨s, label, s'⟩]) = rejections env login trace := by
      simp only [rejections_append, hreset, hrejects, Bool.false_eq_true, if_false]
    refine ⟨?_, by rw [htimes]; exact h.bounded, by rw [htimes]; exact h.sorted, ?_⟩
    · rw [htimes]
      exact hagree.trans (h.agree.later hclock)
    · rw [htimes]
      exact fun t ht => (h.past t ht).trans hclock

/-- A granted claim finds its login below the limit. -/
theorem failures_lt_of_claim {db : Db} {t lease : ℤ} {n : ℕ} {name source : String}
    {claim : PasswordClaim} {w' : Tenant}
    (h : (claimPassword env name source lease).run ⟨db, t, [], n⟩ = .ok (.ok claim, w')) :
    ∀ c ∈ Limits.live (db.failureCounter (env.sha256.text name)) t, c.count < passwordFailureLimit := by
  obtain ⟨db₁, hcleaned, houtcome⟩ := run_claimPassword_instant h
  rcases houtcome with ⟨_, hrefused, -⟩ | ⟨hrefused, -⟩ | ⟨token, -, hretry, -⟩
  · cases hrefused
  · cases hrefused
  · have hagree := hcleaned.failureCounter (env.sha256.text name)
    have hbelow := failures_lt_of_retry hretry
    rw [hagree] at hbelow
    exact hbelow

/-- A settlement whose claim was superseded, or is over, rejects whatever its check found. -/
theorem settlePassword_lost {db : Db} {t : ℤ} {n : ℕ} {claim : PasswordClaim}
    {outcome : Except AuthorityError AuthenticationCandidate} (hlost : claim.holds db t = false) :
    (settlePassword env claim outcome).run ⟨db, t, [], n⟩ =
      .ok (.error .rejected, ⟨db, t, [], n⟩) := by
  cases hrun : (settlePassword env claim outcome).run ⟨db, t, [], n⟩ with
  | ok result =>
    obtain ⟨answer, w'⟩ := result
    rcases run_settlePassword_instant hrun with ⟨-, rfl, rfl⟩ | ⟨hheld, -⟩
    · rfl
    · rw [hlost] at hheld
      cases hheld
  | error e =>
    rcases Tx.run_bind_error.mp hrun with h | ⟨owned, w₁, howned, h⟩
    · exact absurd h (ownedNow_avoids _)
    · obtain ⟨rfl, -⟩ := run_ownedNow_instant howned
      rw [if_pos hlost] at h
      exact absurd h Tx.run_pure_error.mp

/-- The failures and the window of a login's row. -/
def Db.failures (db : Db) (login : Digest) : Option (ℤ × Option ℤ) :=
  (db.passwordAttempts.find? login).map fun row => (row.failures, row.windowUntil)

/-- What the lockout promises of a run and of the next call after it. -/
structure Lockout (env : Env) (trace : List (Event PasswordState AttemptLabel))
    (s : PasswordState) : Prop where
  bounded : ∀ login pre t post, rejections env login trace = pre ++ t :: post →
    Limits.live (tally passwordFailureWindow pre) t = none →
    (((t :: post).filter fun x => decide (x < t + passwordFailureWindow)).length : ℤ) ≤
      passwordFailureLimit
  locked : ∀ name source lease pre t post,
    rejections env (env.sha256.text name) trace = pre ++ t :: post →
    Limits.live (tally passwordFailureWindow pre) t = none →
    passwordFailureLimit ≤ (t :: post).length → s.world.clock < t + passwordFailureWindow →
    ∀ claim w₁, (claimPassword env name source lease).run (stillWorld s.world) ≠ .ok (.ok claim, w₁)
  lockedRow : ∀ name source lease row,
    s.world.state.passwordAttempts.find? (env.sha256.text name) = some row →
    row.failures = passwordFailureLimit → row.windowOpen s.world.clock = true →
    ∀ claim w₁, (claimPassword env name source lease).run (stillWorld s.world) ≠ .ok (.ok claim, w₁)
  answered : ∀ claim outcome candidate w₁,
    (settlePassword env claim outcome).run (stillWorld s.world) = .ok (.ok candidate, w₁) →
    claim.holds s.world.state s.world.clock = true ∧ outcome = .ok candidate
  exclusive : ∀ claim ∈ s.held, ∀ claim' ∈ s.held, claim.login = claim'.login →
    claim.holds s.world.state s.world.clock = true →
    claim'.holds s.world.state s.world.clock = true → claim = claim'
  refused : ∀ name source lease refusal w₁,
    (claimPassword env name source lease).run (stillWorld s.world) = .ok (.error refusal, w₁) →
    ∀ login, Agree s.world.clock (w₁.state.failureCounter login)
      (s.world.state.failureCounter login)
  unanswered : ∀ claim outcome error w₁,
    (settlePassword env claim outcome).run (stillWorld s.world) = .ok (.error error, w₁) →
    error ≠ .rejected → ∀ login, w₁.state.failures login = s.world.state.failures login
  lost : ∀ claim outcome, claim.holds s.world.state s.world.clock = false →
    (settlePassword env claim outcome).run (stillWorld s.world) =
      .ok (.error .rejected, stillWorld s.world)

/-- Two claims of one login that both hold its row are one. -/
theorem PasswordState.Inv.holds_unique (hinv : s.Inv env) {claim claim' : PasswordClaim} {t : ℤ}
    (hclaim : claim ∈ s.held) (hclaim' : claim' ∈ s.held) (hlogin : claim.login = claim'.login)
    (hholds : claim.holds s.world.state t = true) (hholds' : claim'.holds s.world.state t = true) :
    claim = claim' := by
  unfold PasswordClaim.holds at hholds hholds'
  rw [← hlogin] at hholds'
  cases hrow : s.world.state.passwordAttempts.find? claim.login with
  | none => simp [hrow] at hholds
  | some row =>
    simp only [hrow, Option.any_some, Bool.and_eq_true, decide_eq_true_eq] at hholds hholds'
    have htoken : claim.token = claim'.token :=
      Option.some.inj (hholds.1.symm.trans hholds'.1)
    exact hinv.distinct claim hclaim claim' hclaim' htoken

/-- A settlement with another error than a rejection leaves the failures of every login. -/
theorem settlePassword_failures {db : Db} {t : ℤ} {n : ℕ} {claim : PasswordClaim}
    {outcome : Except AuthorityError AuthenticationCandidate} {error : AuthorityError} {w' : Tenant}
    (h : (settlePassword env claim outcome).run ⟨db, t, [], n⟩ = .ok (.error error, w'))
    (herror : error ≠ .rejected) : w'.state.failures login = db.failures login := by
  rcases run_settlePassword_instant h with ⟨-, hrejected, -⟩ | ⟨-, rfl, db', rfl, hsettled⟩
  · exact absurd (Except.error.inj hrejected) herror
  · by_cases hlogin : login = claim.login
    · subst hlogin
      simp only [Db.failures, hsettled.row]
      cases db.passwordAttempts.find? claim.login with
      | none => rfl
      | some row => simp [settledRow, herror]
    · simp only [Db.failures, hsettled.others login hlogin]

/-- Lockout: in every run of claims, settlements, credential changes and clean-ups, with one clock
reading in each transaction, at most five rejections of a login are confirmed in one window. -/
theorem lockout_bounds_guesses (hrun : Run (AttemptStep env) (.unattempted w) trace s) :
    Lockout env trace s := by
  have hinv : s.Inv env := hrun.invariant (PasswordState.unattempted_inv w)
    fun _ _ _ hinv hstep => hstep.inv hinv
  have hguessed : ∀ login, Guessed env login trace s := by
    intro login
    refine hrun.history (H := fun trace s => Guessed env login trace s) (.of_reset rfl rfl) ?_
    intro trace s label s' hrun hguessed hstep
    have hinv : s.Inv env := hrun.invariant (PasswordState.unattempted_inv w)
      fun _ _ _ hinv hstep => hstep.inv hinv
    exact hguessed.step hinv hstep
  have hwindow : 0 < passwordFailureWindow := by decide
  refine ⟨?_, ?_, ?_, ?_, ?_, ?_, ?_, ?_⟩
  · intro login pre t post htimes hopens
    exact hits_in_window_le hwindow (hguessed login).sorted (hguessed login).bounded htimes hopens
  · intro name source lease pre t post htimes hopens hfive hbefore claim w₁ hgranted
    have hguess := hguessed (env.sha256.text name)
    have hinside : ∀ x ∈ post, x < t + passwordFailureWindow := by
      intro x hx
      have hpast := hguess.past x (by rw [htimes]; simp [hx])
      omega
    have htally := tally_inside hopens hinside
    have hbelow := failures_lt_of_claim hgranted
    rw [hguess.agree, htimes, htally] at hbelow
    have hlt := hbelow _ (live_eq_some.mpr ⟨rfl, hbefore⟩)
    simp only [List.length_cons] at hfive hlt
    push_cast at hfive
    omega
  · intro name source lease row hrow hfive hopen claim w₁ hgranted
    have hbelow := failures_lt_of_claim hgranted
    simp only [Db.failureCounter, hrow, Option.bind_some, live_counter, hopen, if_true] at hbelow
    have hlt := hbelow _ rfl
    simp only [hfive] at hlt
    omega
  · intro claim outcome candidate w₁ h
    rcases run_settlePassword_instant h with ⟨-, hrejected, -⟩ | ⟨hholds, houtcome, -⟩
    · cases hrejected
    · exact ⟨hholds, houtcome.symm⟩
  · exact fun claim hclaim claim' hclaim' => hinv.holds_unique hclaim hclaim'
  · intro name source lease refusal w₁ h login
    obtain ⟨db₁, hcleaned, houtcome⟩ := run_claimPassword_instant h
    rcases houtcome with ⟨_, -, -, -, rfl⟩ | ⟨-, rfl⟩ | ⟨token, hok, -⟩
    · exact hcleaned.failureCounter login
    · exact hcleaned.failureCounter login
    · cases hok
  · exact fun claim outcome error w₁ h herror login => settlePassword_failures h herror
  · exact fun claim outcome hlost => settlePassword_lost hlost

/-- The first claim of the reference deployment and the rejection that settles it, with the answers
they got. -/
def firstRejection : Except Failure
    (PasswordClaim × Tenant × Except AuthorityError AuthenticationCandidate × Tenant) := do
  let (answer, w₁) ← firstAnswer
  match answer with
  | .error _ => .error .constraint
  | .ok claim => do
    let (answer', w₂) ← (settlePassword .transparent claim (.error .rejected)).run (stillWorld w₁)
    pure (claim, w₁, answer', w₂)

/-- After its first rejection a login has one that counts, and the lockout holds. -/
theorem firstRejection_bounded : ∃ trace s, Lockout .transparent trace s ∧
    rejections .transparent (Env.transparent.sha256.text "a") trace = [0] := by
  have hok : (firstRejection.toOption.any fun r =>
      r.1.holds r.2.1.state r.2.1.clock && decide (r.1.login = Env.transparent.sha256.text "a") &&
        decide (r.2.1.clock = 0)) = true := by decide
  cases hrejection : firstRejection with
  | error e => simp [hrejection, Except.toOption] at hok
  | ok result =>
    obtain ⟨claim, w₁, answer', w₂⟩ := result
    simp only [hrejection, Except.toOption, Option.any_some, Bool.and_eq_true,
      decide_eq_true_eq] at hok
    obtain ⟨⟨hholds, hlogin⟩, hclock⟩ := hok
    unfold firstRejection at hrejection
    cases hanswer : firstAnswer with
    | error e => simp [hanswer, bind, Except.bind] at hrejection
    | ok first =>
      obtain ⟨answer, w⟩ := first
      cases answer with
      | error refusal => simp [hanswer, bind, Except.bind] at hrejection
      | ok claimed =>
        simp only [hanswer, bind, Except.bind] at hrejection
        cases hsettle : (settlePassword .transparent claimed (.error .rejected)).run
            (stillWorld w) with
        | error e => simp [hsettle] at hrejection
        | ok settled =>
          obtain ⟨answer', w'⟩ := settled
          simp only [hsettle, pure, Except.pure, Except.ok.injEq, Prod.mk.injEq] at hrejection
          obtain ⟨rfl, rfl, rfl, rfl⟩ := hrejection
          have hrejected : answer' = .error .rejected := by
            rcases run_settlePassword_instant hsettle with ⟨-, h, -⟩ | ⟨-, h, -⟩
            · exact h
            · exact h
          subst hrejected
          have hclaim : AttemptStep .transparent (.unattempted ⟨.provisioned, 0, [], 0⟩) _ _ :=
            .claim hanswer
          have hreject : AttemptStep .transparent _ _ _ :=
            .settle (s := ⟨w, [claimed]⟩) (by simp) hsettle
          refine ⟨_, _, lockout_bounds_guesses ((Run.start.step hclaim).step hreject), ?_⟩
          rw [hclock] at hholds
          rw [rejections_append, rejections_append]
          simp [resets, rejects, rejections, hholds, hlogin, hclock]

end Runs

end IdentityAuthority
