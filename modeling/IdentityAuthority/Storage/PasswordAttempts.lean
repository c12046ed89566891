import IdentityAuthority.Storage.Accounts

/-!
# Admission and password attempts

Every login has at most one row that counts its rejected passwords in a fixed window and
holds the claim on its next verification. Verification runs outside the database between
two transactions: one claims the row, the other settles it. Each occurrence of
`clock_timestamp()` in a statement is a clock reading of its own.
-/

namespace IdentityAuthority

open Relational

/-- The answer of a transaction that commits without granting what was asked. -/
inductive AuthorityError
  | rejected
  | busy
  | rateLimited (seconds : ℤ)
  | unavailable
  | reauthenticationFailed
deriving DecidableEq, Repr

/-- `PASSWORD_FAILURE_LIMIT`. -/
def passwordFailureLimit : ℤ := 5

/-- `PASSWORD_FAILURE_SECONDS`, in microseconds. -/
def passwordFailureWindow : ℤ := 600 * 1000000

/-- `ATTEMPT_SOURCE_LIMIT`. -/
def attemptSourceLimit : ℤ := 30

/-- `ATTEMPT_SOURCE_SECONDS`. -/
def attemptSourceSeconds : ℤ := 300

/-- `ATTEMPT_SCOPE_LIMIT`. -/
def attemptScopeLimit : ℤ := 5

/-- `ATTEMPT_SCOPE_SECONDS`. -/
def attemptScopeSeconds : ℤ := 900

/-- `MAX_ATTEMPT_ROWS`. -/
def maxAttemptRows : ℤ := 10000

/-- The whole seconds left until a time, at least one
(`greatest(1,ceil(extract(epoch FROM until-clock_timestamp())))`). -/
def secondsLeft (until' now : ℤ) : ℤ := max 1 ((until' - now + 999999) / 1000000)

/-- What is known of an admission key before it is counted. -/
structure Attempt where
  key : String
  count : ℤ
  seconds : ℤ
  present : Bool
  retry : ℤ

/-- Reads an admission key (`attempt`). -/
def attempt (key : String) (limit seconds : ℤ) : Action Attempt := do
  let row ← Tx.find Tables.attempts key
  match row with
  | none => pure { key, count := 0, seconds, present := false, retry := 0 }
  | some row => do
    let t₁ ← Tx.clockTimestamp
    let count := if t₁ < row.expiresAt then row.count else 0
    if limit ≤ row.count then do
      let t₂ ← Tx.clockTimestamp
      if t₂ < row.expiresAt then do
        let t₃ ← Tx.clockTimestamp
        pure { key, count, seconds, present := true, retry := secondsLeft row.expiresAt t₃ }
      else pure { key, count, seconds, present := true, retry := 0 }
    else pure { key, count, seconds, present := true, retry := 0 }

/-- Counts an admission key; the first count of a window sets its end. -/
def Attempt.consume (attempt : Attempt) : Action Unit := do
  let t ← Tx.clockTimestamp
  let expiresAt := t + attempt.seconds * 1000000
  let row ← Tx.find Tables.attempts attempt.key
  match row with
  | none => Tx.insertInto Tables.attempts { key := attempt.key, count := 1, expiresAt } .constraint
  | some _ => do
    let _ ← Tx.updateIn Tables.attempts (fun row => decide (Keyed.key row = attempt.key))
      (fun row => { row with
        count := attempt.count + 1
        expiresAt := if attempt.count + 1 = 1 then expiresAt else row.expiresAt }) .constraint
    pure ()

/-- The refusal that names the seconds to wait (`rate_limited`); they fit a `u32`. -/
def rateLimited (retry : ℤ) : Except Failure AuthorityError :=
  if 0 < retry ∧ retry < 2 ^ 32 then .ok (.rateLimited retry) else .error .corrupt

/-- The rows of both attempt tables (`total`). -/
def totalAttempts : Action ℤ :=
  Tx.query fun db => (db.attempts.rows.length + db.passwordAttempts.rows.length : ℤ)

/-- An end that is absent or over at a clock reading of its own. -/
def endedNow : Option ℤ → Action Bool
  | none => pure true
  | some t => do
    let now ← Tx.clockTimestamp
    pure (decide (t ≤ now))

/-- `window_until IS NULL OR …` and `claim_until IS NULL OR …` of one row. -/
def abandonedNow (row : PasswordAttemptRow) : Action Bool := do
  let window ← endedNow row.windowUntil
  if window then endedNow row.claimUntil else pure false

/-- The order of optional ends, absent ones first. -/
def endLe : Option ℤ → Option ℤ → Bool
  | none, _ => true
  | some _, none => false
  | some s, some t => decide (s ≤ t)

/-- Removes up to 128 attempt rows that are over (`cleanup`). -/
def cleanup : Action Unit := do
  let rows ← Tx.select Tables.attempts fun _ => true
  let expired ← Tx.filterRows (fun row => endedNow (some row.expiresAt)) rows
  let expired := ((expired.insertionSort fun r s => r.expiresAt ≤ s.expiresAt).take 128).map
    AttemptRow.key
  let removed ← Tx.deleteFrom Tables.attempts (fun row => expired.contains row.key) .constraint
  let rows ← Tx.select Tables.passwordAttempts fun _ => true
  let expired ← Tx.filterRows abandonedNow rows
  let expired := ((expired.insertionSort fun r s => endLe r.windowUntil s.windowUntil = true).take
    (128 - removed)).map PasswordAttemptRow.loginDigest
  let _ ← Tx.deleteFrom Tables.passwordAttempts (fun row => expired.contains row.loginDigest)
    .constraint
  pure ()

/-- Counts an attempt at an upstream or platform scope; never refunded (`reserve`). -/
def reserve (source scope : String) : Action (Except AuthorityError Unit) := do
  cleanup
  let source ← attempt ("s:" ++ source) attemptSourceLimit attemptSourceSeconds
  let scope ← attempt scope attemptScopeLimit attemptScopeSeconds
  let retry := max source.retry scope.retry
  if 0 < retry then do
    let refusal ← Tx.ofExcept (rateLimited retry)
    pure (.error refusal)
  else do
    let total ← totalAttempts
    if maxAttemptRows <
        total + (if source.present then 0 else 1) + (if scope.present then 0 else 1) then
      pure (.error .busy)
    else do
      source.consume
      scope.consume
      pure (.ok ())

/-- Permission to verify one password, fenced by the token in the row. -/
structure PasswordClaim where
  login : Digest
  token : Uuid
deriving DecidableEq

/-- The failure window of a row is open at a time (`window_until>…`). -/
def PasswordAttemptRow.windowOpen (row : PasswordAttemptRow) (t : ℤ) : Bool :=
  row.windowUntil.any fun until' => decide (t < until')

/-- How long a login must wait: as long as its window is open at the limit of failures. -/
def retryNow : Option PasswordAttemptRow → Action ℤ
  | none => pure 0
  | some row =>
    if row.failures = passwordFailureLimit then do
      let t₁ ← Tx.clockTimestamp
      if row.windowOpen t₁ then do
        let t₂ ← Tx.clockTimestamp
        pure (secondsLeft (row.windowUntil.getD 0) t₂)
      else pure 0
    else pure 0

/-- Whether the login is being verified (`claim_until>…`). -/
def busyNow : Option PasswordAttemptRow → Action Bool
  | none => pure false
  | some row => do
    let t ← Tx.clockTimestamp
    pure (row.claimUntil.any fun until' => decide (t < until'))

/-- Everything a claim decides before it writes: the clean-up, the admission of the source,
and whether the login is limited or being verified already. -/
def admitPassword (login : Digest) (source : String) :
    Action (Except AuthorityError Attempt) := do
  cleanup
  let source ← attempt ("s:" ++ source) attemptSourceLimit attemptSourceSeconds
  let row ← Tx.find Tables.passwordAttempts login
  let retry ← retryNow row
  let busy ← busyNow row
  let retry := max retry source.retry
  if 0 < retry then do
    let refusal ← Tx.ofExcept (rateLimited retry)
    pure (.error refusal)
  else if busy then pure (.error .busy)
  else do
    let total ← totalAttempts
    if maxAttemptRows <
        total + (if source.present then 0 else 1) + (if row.isSome then 0 else 1) then
      pure (.error .busy)
    else pure (.ok source)

/-- The row after a claim that read the clock at these two times: the failures stay if the
window was open at the first, the window stays if it was open at the second. -/
def PasswordAttemptRow.claimed (row : PasswordAttemptRow) (t₁ t₂ : ℤ) (token : Uuid)
    (claimUntil : ℤ) : PasswordAttemptRow :=
  { row with
    failures := if row.windowOpen t₁ then row.failures else 0
    windowUntil := if row.windowOpen t₂ then row.windowUntil else none
    claimToken := some token
    claimUntil := some claimUntil }

/-- Writes the claim on a login (`INSERT … ON CONFLICT DO UPDATE`). -/
def claimRow (login : Digest) (token : Uuid) (lease : ℤ) : Action Unit := do
  let t₀ ← Tx.clockTimestamp
  let row ← Tx.find Tables.passwordAttempts login
  match row with
  | none =>
    Tx.insertInto Tables.passwordAttempts
      { loginDigest := login, failures := 0, windowUntil := none, claimToken := some token,
        claimUntil := some (t₀ + lease) } .constraint
  | some _ => do
    let t₁ ← Tx.clockTimestamp
    let t₂ ← Tx.clockTimestamp
    let _ ← Tx.updateIn Tables.passwordAttempts (fun row => decide (Keyed.key row = login))
      (fun row => row.claimed t₁ t₂ token (t₀ + lease)) .constraint
    pure ()

/-- Everything of a claim before the row is written: the admission, its count, and the
token to write. -/
def prepareClaim (env : Env) (login : Digest) (source : String) :
    Action (Except AuthorityError Uuid) := do
  let admitted ← admitPassword login source
  match admitted with
  | .error refusal => pure (.error refusal)
  | .ok source => do
    source.consume
    let token ← newV4 env
    pure (.ok token)

/-- Claims the next verification of a login for a time in microseconds (`claim_password`). -/
def claimPassword (env : Env) (login : String) (source : String) (lease : ℤ) :
    Action (Except AuthorityError PasswordClaim) := do
  let digest := env.sha256.text login
  let prepared ← prepareClaim env digest source
  match prepared with
  | .error refusal => pure (.error refusal)
  | .ok token => do
    claimRow digest token lease
    pure (.ok { login := digest, token })

/-- The row after a rejected password, with the clock read at these times. -/
def PasswordAttemptRow.failed (row : PasswordAttemptRow) (t₁ t₂ t₃ : ℤ) : PasswordAttemptRow :=
  { row with
    failures := if row.windowOpen t₁ then row.failures + 1 else 1
    windowUntil :=
      if row.windowOpen t₂ then row.windowUntil else some (t₃ + passwordFailureWindow)
    claimToken := none
    claimUntil := none }

/-- The row of a claim. -/
def PasswordClaim.owns (claim : PasswordClaim) (row : PasswordAttemptRow) : Bool :=
  decide (row.loginDigest = claim.login ∧ row.claimToken = some claim.token)

/-- Whether the claim still holds its row (`owned`). -/
def ownedNow (claim : PasswordClaim) : Action Bool := do
  let row ← Tx.find Tables.passwordAttempts claim.login
  match row with
  | none => pure false
  | some row =>
    if row.claimToken = some claim.token then do
      let t ← Tx.clockTimestamp
      pure (row.claimUntil.any fun until' => decide (t < until'))
    else pure false

/-- Counts a rejected password and gives the claim back. -/
def countFailure (claim : PasswordClaim) : Action Unit := do
  let t₁ ← Tx.clockTimestamp
  let t₂ ← Tx.clockTimestamp
  let row ← Tx.find Tables.passwordAttempts claim.login
  let t₃ ← (if row.any fun row => !row.windowOpen t₂ then Tx.clockTimestamp
    else pure t₂ : Action ℤ)
  let _ ← Tx.updateIn Tables.passwordAttempts claim.owns (fun row => row.failed t₁ t₂ t₃)
    .constraint
  pure ()

/-- Gives the claim back after a failure; only a rejected password counts. -/
def failClaim (claim : PasswordClaim) (error : AuthorityError) : Action Unit :=
  if error = .rejected then countFailure claim
  else do
    let _ ← Tx.updateIn Tables.passwordAttempts claim.owns
      (fun row => { row with claimToken := none, claimUntil := none }) .constraint
    pure ()

/-- Settles a claim with the outcome of its verification (`settle_password`). -/
def settlePassword (env : Env) (claim : PasswordClaim)
    (outcome : Except AuthorityError AuthenticationCandidate) :
    Action (Except AuthorityError AuthenticationCandidate) := do
  let owned ← ownedNow claim
  if owned = false then pure (.error .rejected)
  else
    match outcome with
    | .ok candidate => do
      let _ ← current env candidate
      let _ ← Tx.deleteFrom Tables.passwordAttempts claim.owns .constraint
      pure (.ok candidate)
    | .error error => do
      failClaim claim error
      pure (.error error)

/-- Forgets the attempts on an account's login after its credential changed (`clear`). -/
def clearAttempts (env : Env) (key : AccountKey) : Action Unit := do
  let logins ← Tx.select Tables.localCredentials fun row => decide (row.principal = key)
  let _ ← Tx.deleteFrom Tables.passwordAttempts
    (fun row => (logins.map fun l => env.sha256.text l.loginKey).contains row.loginDigest)
    .constraint
  pure ()

end IdentityAuthority
