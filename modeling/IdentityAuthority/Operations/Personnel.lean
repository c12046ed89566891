import IdentityAuthority.Operations.PersonnelRelations
import IdentityAuthority.Relational.Recovery
import IdentityAuthority.Storage.PasswordAttempts

/-!
# Reads of a host

A host runs statements of its own over the relations that are put before it, and hears how long what
it read is good for. It runs inside the transaction that rechecked the actor and asked the policy,
and its result counts only if the transaction is in time at its end.
-/

namespace IdentityAuthority

open Relational

/-- What a statement of a host may name: the personnel relation where it is installed, and the
session references. -/
structure Installed where
  personnel : Option (List PersonnelRow)
  sessionReferences : List SessionReferenceRow

/-- `PersonnelRevision`. -/
structure PersonnelRevision where
  generation : ℤ
  validUntil : ℤ
  logins : Bool
  profiles : PersonnelProfileScope

/-- `PersonnelRead`, until an instant in microseconds. -/
structure PersonnelRead where
  relation : Installed
  expires : ℤ
  revision : PersonnelRevision

/-- What a read answers a host where it fails, and what a host may fail with. -/
inductive ReadError
  | configuration
  | authority (error : AuthorityError)
deriving DecidableEq

/-- The callback of a host: it asks for the revision and runs statements, each after what the earlier
ones answered. A statement is a function of what is installed and of its bound arguments, or it
fails. -/
inductive HostRead (A R T : Type)
  | done (result : Except ReadError T)
  | revision (next : Except ReadError PersonnelRevision → HostRead A R T)
  | query (select : Installed → A → Option (List R)) (arguments : A) (maxRows : ℕ)
      (next : Except ReadError (List R) → HostRead A R T)

namespace PersonnelRead

variable {A R : Type}

/-- The read is in time (`live`). -/
def live (read : PersonnelRead) : Action Bool := do
  let instant ← Tx.clockTimestamp
  pure (decide (instant < read.expires))

/-- The rows of a statement, at most so many, and one more is too many. -/
def fetch (relation : Installed) (select : Installed → A → Option (List R)) (arguments : A)
    (maxRows : ℕ) : Except ReadError (List R) :=
  match select relation arguments with
  | none => .error (.authority .unavailable)
  | some found =>
    let rows := found.take (maxRows + 1)
    if maxRows < rows.length then .error (.authority .rejected) else .ok rows

/-- What a statement answers while the read is in time. -/
def answer (relation : Installed) (select : Installed → A → Option (List R)) (arguments : A)
    (maxRows : ℕ) : Except ReadError (List R) :=
  if 1 ≤ maxRows ∧ maxRows ≤ 1001 then fetch relation select arguments maxRows
  else .error .configuration

/-- Runs a statement (`PersonnelRead::query`). -/
def query (read : PersonnelRead) (select : Installed → A → Option (List R)) (arguments : A)
    (maxRows : ℕ) : Action (Except ReadError (List R)) := do
  let before ← read.live
  if before = false then pure (.error (.authority .rejected))
  else if ¬ (1 ≤ maxRows ∧ maxRows ≤ 1001) then pure (.error .configuration)
  else
    match fetch read.relation select arguments maxRows with
    | .error e => pure (.error e)
    | .ok rows => do
      let after ← read.live
      pure (if after then .ok rows else .error (.authority .rejected))

end PersonnelRead

namespace HostRead

variable {A R T : Type}

/-- Runs a callback over a read. -/
def run (read : PersonnelRead) : HostRead A R T → Action (Except ReadError T)
  | done result => pure result
  | revision next => do
    let alive ← read.live
    run read (next (if alive then .ok read.revision else .error (.authority .rejected)))
  | query select arguments maxRows next => do
    let rows ← read.query select arguments maxRows
    run read (next rows)

/-- What a callback answers while the read is in time. -/
def answer (relation : Installed) (revised : PersonnelRevision) : HostRead A R T →
    Except ReadError T
  | done result => result
  | revision next => answer relation revised (next (.ok revised))
  | query select arguments maxRows next =>
    answer relation revised (next (PersonnelRead.answer relation select arguments maxRows))

/-- A callback that runs statements only. -/
inductive Selects : HostRead A R T → Prop
  | done (result : Except ReadError T) : Selects (.done result)
  | query {select : Installed → A → Option (List R)} {arguments : A} {maxRows : ℕ}
      {next : Except ReadError (List R) → HostRead A R T} :
      (∀ rows, Selects (next rows)) → Selects (.query select arguments maxRows next)

/-- A callback that runs statements only does not hear of the revision. -/
theorem Selects.answer_eq {host : HostRead A R T} (h : host.Selects) (relation : Installed)
    (revised revised' : PersonnelRevision) :
    host.answer relation revised = host.answer relation revised' := by
  induction h with
  | done result => rfl
  | query _ ih => exact ih _

end HostRead

/-- `PersonnelWindow`, until an instant in microseconds. -/
structure PersonnelWindow where
  generation : ℤ
  validUntil : ℤ
  now : ℤ
  expires : ℤ

/-- The earliest end of a session that is not revoked. -/
def sessionEnds (db : Db) (now : ℤ) : List (Option ℤ) :=
  let live := db.sessions.rows.filter fun s => decide (s.revokedAt = none)
  [((live.filter fun s => decide (now < s.idleExpiresAt)).map SessionRow.idleExpiresAt).min?,
    ((live.filter fun s => decide (now < s.absoluteExpiresAt)).map
      SessionRow.absoluteExpiresAt).min?]

/-- The earliest end of an observation, whoever may see it. -/
def observationEnds (db : Db) (maxAge now : ℤ) : List (Option ℤ) :=
  [((db.profileObservations.rows.filter fun o => decide (now < o.expiresAt)).map
      ProfileObservationRow.expiresAt).min?,
    ((db.profileObservations.rows.filter fun o => decide (now - maxAge < o.observedAt)).map
      ProfileObservationRow.observedAt).min?.map (· + maxAge)]

/-- How long what is read at a time is good for. -/
def readUntil (db : Db) (maxAge : Option ℤ) (now : ℤ) (actorUntil : Option ℤ) : ℤ :=
  let next := least (sessionEnds db now ++ maxAge.elim [] fun age => observationEnds db age now)
  min (min (next.getD i64Max) (actorUntil.getD i64Max)) (saturatingAdd now 60)

/-- Samples the time of a read, and how long it is good for (`read_window`); neither read of a host
asks for departments here. -/
def readWindow (maxAge : Option ℤ) (expires : ℤ) (actorUntil : Option ℤ) :
    Action PersonnelWindow := do
  let sampled ← Tx.clockTimestamp
  let micros ← Tx.clockTimestamp
  let db ← Tx.query id
  let now := seconds micros
  let validUntil := readUntil db maxAge now actorUntil
  let remaining := max (saturatingSub (saturatingSub (validUntil * 1000000) micros) 1) 0
  pure
    { generation := db.tenantGuard.personnelRevision
      validUntil
      now
      expires := min expires (sampled + remaining) }

/-- Runs the callback of a host; its result counts only in time. The error of a host takes the place
of the refusal for its caller. -/
def settleRead {A R T : Type} (read : PersonnelRead) (host : HostRead A R T) : Action T := do
  let result ← host.run read
  let alive ← read.live
  Tx.require (alive = true) .rejected
  match result with
  | .ok value => pure value
  | .error _ => Tx.throw .rejected

/-- The policy refuses an operation. -/
def Failure.insufficientPrivilege : Failure → Bool
  | .rule .insufficientPrivilege => true
  | _ => false

/-- Asks the policy where its refusal is an answer (`permission`). -/
def permission (env : Env) (loaded : Loaded) (operation : ManagementOperation)
    (target : Option AccountKey) : Action Bool := do
  let granted ← Tx.recover Failure.insufficientPrivilege (authorize env loaded operation target)
  pure granted.isSome

/-- The instant before which a loaded session and a deadline are in time (`checked_expiry`). -/
def checkedExpiry (loaded : Loaded) (deadline : ℤ) : Action ℤ := do
  let expires := min deadline (loaded.lifetime.idleExpiresAt * 1000000 - 1)
  let instant ← Tx.clockTimestamp
  Tx.require (instant < expires) .rejected
  pure expires

/-- What the recheck of the actor and the policy answered. -/
structure PersonnelAnswers where
  loaded : Loaded
  expires : ℤ
  logins : Bool
  profiles : PersonnelProfileScope

/-- Rechecks the actor, before the earlier of the deadline of the call and of the proof, and asks the
policy what it may read. -/
def askPersonnel (env : Env) (actor : AuthenticatedSession) (deadline : ℤ) :
    Action PersonnelAnswers := do
  let loaded ← recheck env actor
  let expires ← checkedExpiry loaded deadline
  let login ← permission env loaded .listAccounts none
  let all ← permission env loaded .readLatestProfile none
  let own ← if all then pure true
    else permission env loaded .readLatestProfile (some actor.key)
  pure
    { loaded
      expires
      logins := login
      profiles := if all then .all else if own then .selfOnly else .none }

/-- The terms of the personnel relation. -/
def PersonnelAnswers.terms (answers : PersonnelAnswers) (env : Env) (actor : AuthenticatedSession)
    (now : ℤ) : PersonnelTerms where
  logins := answers.logins
  profiles := answers.profiles
  reader := actor.key
  maxAge := env.profileLimits.maxAge
  now

/-- Runs a callback over both relations. -/
def readPersonnel {A R T : Type} (env : Env) (platform : Option String)
    (actor : AuthenticatedSession) (answers : PersonnelAnswers) (window : PersonnelWindow)
    (host : HostRead A R T) : Action T := do
  let db ← Tx.query id
  settleRead
    { relation :=
        { personnel := some ((answers.terms env actor window.now).relation db)
          sessionReferences :=
            (ReferenceTerms.mk env.instanceId window.now platform).relation db }
      expires := window.expires
      revision :=
        { generation := window.generation
          validUntil := window.validUntil
          logins := answers.logins
          profiles := answers.profiles } } host

/-- Runs a callback of a host under the current policy (`with_personnel_read`). The audience of the
platform was asked for before the transaction. -/
def withPersonnelRead {A R T : Type} (env : Env) (platform : Option String)
    (actor : AuthenticatedSession) (deadline : ℤ) (host : HostRead A R T) : Action T := do
  let answers ← askPersonnel env actor deadline
  let window ← readWindow (some env.profileLimits.maxAge) answers.expires
    (some (min answers.loaded.view.idleExpiresAt answers.loaded.view.absoluteExpiresAt))
  readPersonnel env platform actor answers window host

/-- Runs a callback over the session references alone. -/
def readReferences {A R T : Type} (env : Env) (platform : Option String) (window : PersonnelWindow)
    (host : HostRead A R T) : Action T := do
  let db ← Tx.query id
  settleRead
    { relation :=
        { personnel := none
          sessionReferences :=
            (ReferenceTerms.mk env.instanceId window.now platform).relation db }
      expires := window.expires
      revision :=
        { generation := window.generation
          validUntil := window.validUntil
          logins := false
          profiles := .none } } host

/-- Runs a callback of a host that no actor stands behind (`with_session_references_read`). -/
def withSessionReferencesRead {A R T : Type} (env : Env) (platform : Option String) (deadline : ℤ)
    (host : HostRead A R T) : Action T := do
  let window ← readWindow none deadline none
  readReferences env platform window host

section Runs

variable {A R T : Type} {env : Env} {w w' : Tenant} {read : PersonnelRead}

@[simp] theorem run_live {alive : Bool} :
    read.live.run w = .ok (alive, w') ↔ alive = decide (w.tick.clock < read.expires) ∧ w' = w.tick := by
  simp only [PersonnelRead.live, Tx.run_bind, Tx.run_clockTimestamp, Tx.run_pure]
  constructor
  · rintro ⟨_, _, ⟨rfl, rfl⟩, rfl, rfl⟩
    exact ⟨rfl, rfl⟩
  · rintro ⟨rfl, rfl⟩
    exact ⟨_, _, ⟨rfl, rfl⟩, rfl, rfl⟩

/-- A check before the end of a read that is still in time finds it in time. -/
theorem live_of_later {w₁ : Tenant} {alive : Bool} (h : read.live.run w = .ok (alive, w₁))
    (hlater : w₁.Advances w') (hin : w'.clock < read.expires) : alive = true := by
  obtain ⟨rfl, rfl⟩ := run_live.mp h
  have hclock := hlater.clock
  rw [decide_eq_true_eq]
  omega

/-- A statement answers the same at any instant of a read that is in time. -/
theorem run_query {select : Installed → A → Option (List R)} {arguments : A} {maxRows : ℕ}
    {w₁ : Tenant} {rows : Except ReadError (List R)}
    (h : (read.query select arguments maxRows).run w = .ok (rows, w₁))
    (hlater : w₁.Advances w') (hin : w'.clock < read.expires) :
    rows = PersonnelRead.answer read.relation select arguments maxRows := by
  simp only [PersonnelRead.query, Tx.run_bind] at h
  obtain ⟨before, w₂, hbefore, h⟩ := h
  -- The rest of the statement is a transaction of its own, so the first check was earlier.
  have hadvances : w₂.Advances w₁ := Tx.advances _ _ _ _ h
  obtain rfl := live_of_later hbefore (hadvances.trans hlater) hin
  rw [if_neg Bool.true_eq_false.mp] at h
  unfold PersonnelRead.answer
  by_cases hrows : 1 ≤ maxRows ∧ maxRows ≤ 1001
  · rw [if_neg (not_not.mpr hrows)] at h
    rw [if_pos hrows]
    cases hfetch : PersonnelRead.fetch read.relation select arguments maxRows with
    | error e =>
      rw [hfetch] at h
      exact (Tx.run_pure.mp h).1
    | ok found =>
      simp only [hfetch, Tx.run_bind, Tx.run_pure] at h
      obtain ⟨after, w₃, hafter, hresult, rfl⟩ := h
      obtain rfl := live_of_later hafter hlater hin
      rw [hresult, if_pos rfl]
  · rw [if_pos hrows] at h
    rw [if_neg hrows]
    exact (Tx.run_pure.mp h).1

/-- A callback answers the same at any instants of a read that is in time at its end. -/
theorem run_host {host : HostRead A R T} {w₁ : Tenant} {result : Except ReadError T}
    (h : (host.run read).run w = .ok (result, w₁)) (hlater : w₁.Advances w')
    (hin : w'.clock < read.expires) : result = host.answer read.relation read.revision := by
  induction host generalizing w with
  | done answer => exact (Tx.run_pure.mp h).1
  | revision next ih =>
    simp only [HostRead.run, Tx.run_bind] at h
    obtain ⟨alive, w₂, halive, hrest⟩ := h
    have hadvances : w₂.Advances w₁ := Tx.advances _ _ _ _ hrest
    obtain rfl := live_of_later halive (hadvances.trans hlater) hin
    exact ih _ hrest
  | query select arguments maxRows next ih =>
    simp only [HostRead.run, Tx.run_bind] at h
    obtain ⟨rows, w₂, hrows, hrest⟩ := h
    have hadvances : w₂.Advances w₁ := Tx.advances _ _ _ _ hrest
    obtain rfl := run_query hrows (hadvances.trans hlater) hin
    exact ih _ hrest

/-- What a read settles with is the answer of its callback. -/
theorem run_settleRead {host : HostRead A R T} {value : T}
    (h : (settleRead read host).run w = .ok (value, w')) :
    host.answer read.relation read.revision = .ok value := by
  simp only [settleRead, Tx.run_bind, Tx.run_require, run_live] at h
  obtain ⟨result, w₁, hresult, _, w₂, ⟨rfl, rfl⟩, -, _, ⟨hin, rfl⟩, h⟩ := h
  rw [decide_eq_true_eq] at hin
  rw [← run_host hresult (.tick w₁) hin]
  cases result with
  | ok answer => rw [(Tx.run_pure.mp h).1]
  | error e => exact (Tx.run_throw.mp h).elim

/-- A sample tells the time, the revision and how long what is read is good for, of a state that it
leaves as it is. -/
theorem run_readWindow {maxAge : Option ℤ} {expires : ℤ} {actorUntil : Option ℤ}
    {window : PersonnelWindow} (h : (readWindow maxAge expires actorUntil).run w = .ok (window, w')) :
    w'.state = w.state ∧ window.generation = w.state.tenantGuard.personnelRevision ∧
      window.validUntil = readUntil w.state maxAge window.now actorUntil := by
  simp only [readWindow, Tx.run_bind, Tx.run_clockTimestamp, Tx.run_query, Tx.run_pure] at h
  obtain ⟨_, _, ⟨rfl, rfl⟩, _, _, ⟨rfl, rfl⟩, _, _, ⟨rfl, rfl⟩, rfl, rfl⟩ := h
  exact ⟨rfl, rfl, rfl⟩

/-- Asking the policy leaves the state as it is. -/
theorem run_permission {loaded : Loaded} {operation : ManagementOperation}
    {target : Option AccountKey} {granted : Bool}
    (h : (permission env loaded operation target).run w = .ok (granted, w')) :
    w'.state = w.state := by
  simp only [permission, Tx.run_bind, Tx.run_pure] at h
  obtain ⟨found, w₁, hfound, -, rfl⟩ := h
  rcases Tx.run_recover.mp hfound with ⟨a, -, hauthorize⟩ | ⟨-, rfl, -⟩
  · exact (run_authorize hauthorize).1
  · rfl

/-- The actor is rechecked in the state that is read, and the policy leaves it as it is. -/
theorem run_askPersonnel {actor : AuthenticatedSession} {deadline : ℤ} {answers : PersonnelAnswers}
    (h : (askPersonnel env actor deadline).run w = .ok (answers, w')) :
    w'.state = w.state ∧ ∃ w₁, (recheck env actor).run w = .ok (answers.loaded, w₁) := by
  simp only [askPersonnel, Tx.run_bind, Tx.run_pure, Tx.run_ite] at h
  obtain ⟨loaded, w₁, hrecheck, expires, w₂, hexpires, login, w₃, hlogin, all, w₄, hall, h⟩ := h
  obtain ⟨rfl, -⟩ := run_recheck hrecheck
  simp only [checkedExpiry, Tx.run_bind, Tx.run_clockTimestamp, Tx.run_require, Tx.run_pure] at hexpires
  obtain ⟨_, _, ⟨-, rfl⟩, -, _, ⟨-, rfl⟩, -, rfl⟩ := hexpires
  have hpolicy : w₄.state = w.state := by
    rw [run_permission hall, run_permission hlogin, World.tick_state, World.tick_state]
  rcases h with ⟨-, _, _, ⟨-, rfl⟩, rfl, rfl⟩ | ⟨-, own, w₅, hown, rfl, rfl⟩
  · exact ⟨hpolicy, _, hrecheck⟩
  · exact ⟨(run_permission hown).trans hpolicy, _, hrecheck⟩

end Runs

end IdentityAuthority
