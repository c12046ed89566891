import IdentityAuthority.Operations.Personnel
import IdentityAuthority.System

/-!
# What a host may learn

Two runs of one callback over databases that differ in what the policy did not grant end with the
same result, wherever both succeed. What is granted is still not shown of an account that is not
active, nor from an observation that is over or whose provider has changed.
-/

namespace IdentityAuthority

open Relational

/-- What a run of a personnel read was told: the answers of the policy, and the time. -/
structure PersonnelSample where
  logins : Bool
  profiles : PersonnelProfileScope
  now : ℤ
deriving DecidableEq

/-- How long a session is good for, to its actor. -/
def SessionView.goodUntil (view : SessionView) : ℤ :=
  min view.idleExpiresAt view.absoluteExpiresAt

section Reads

variable {A R T : Type}

/-- A personnel read succeeds, with what it was told on the way. -/
def PersonnelReads (env : Env) (platform : Option String) (actor : AuthenticatedSession)
    (deadline : ℤ) (host : HostRead A R T) (w : Tenant) (sample : PersonnelSample) (value : T)
    (w' : Tenant) : Prop :=
  ∃ answers w₁ window w₂, (askPersonnel env actor deadline).run w = .ok (answers, w₁) ∧
    (readWindow (some env.profileLimits.maxAge) answers.expires
      (some answers.loaded.view.goodUntil)).run w₁ = .ok (window, w₂) ∧
    (readPersonnel env platform actor answers window host).run w₂ = .ok (value, w') ∧
    sample = ⟨answers.logins, answers.profiles, window.now⟩

/-- A read of session references succeeds, at a sampled time. -/
def ReferencesRead (env : Env) (platform : Option String) (deadline : ℤ) (host : HostRead A R T)
    (w : Tenant) (now : ℤ) (value : T) (w' : Tenant) : Prop :=
  ∃ window w₁, (readWindow none deadline none).run w = .ok (window, w₁) ∧
    (readReferences env platform window host).run w₁ = .ok (value, w') ∧ window.now = now

variable {env : Env} {platform : Option String} {actor : AuthenticatedSession} {deadline : ℤ}
  {host : HostRead A R T} {w w' : Tenant} {value : T}

/-- Every personnel read that succeeds was told something. -/
theorem run_withPersonnelRead :
    (withPersonnelRead env platform actor deadline host).run w = .ok (value, w') ↔
      ∃ sample, PersonnelReads env platform actor deadline host w sample value w' := by
  simp only [withPersonnelRead, Tx.run_bind]
  constructor
  · rintro ⟨answers, w₁, hanswers, window, w₂, hwindow, hread⟩
    exact ⟨_, answers, w₁, window, w₂, hanswers, hwindow, hread, rfl⟩
  · rintro ⟨_, answers, w₁, window, w₂, hanswers, hwindow, hread, -⟩
    exact ⟨answers, w₁, hanswers, window, w₂, hwindow, hread⟩

theorem run_withSessionReferencesRead :
    (withSessionReferencesRead env platform deadline host).run w = .ok (value, w') ↔
      ∃ now, ReferencesRead env platform deadline host w now value w' := by
  simp only [withSessionReferencesRead, Tx.run_bind]
  constructor
  · rintro ⟨window, w₁, hwindow, hread⟩
    exact ⟨_, window, w₁, hwindow, hread, rfl⟩
  · rintro ⟨_, window, w₁, hwindow, hread, -⟩
    exact ⟨window, w₁, hwindow, hread⟩

/-- The terms of a run. -/
def PersonnelSample.terms (sample : PersonnelSample) (env : Env) (actor : AuthenticatedSession) :
    PersonnelTerms where
  logins := sample.logins
  profiles := sample.profiles
  reader := actor.key
  maxAge := env.profileLimits.maxAge
  now := sample.now

/-- What is installed in a run. -/
def PersonnelSample.installed (sample : PersonnelSample) (env : Env) (platform : Option String)
    (actor : AuthenticatedSession) (db : Db) : Installed where
  personnel := some ((sample.terms env actor).relation db)
  sessionReferences := (ReferenceTerms.mk env.instanceId sample.now platform).relation db

/-- The revision of a run, whose actor is good until a time. -/
def PersonnelSample.revision (sample : PersonnelSample) (env : Env) (db : Db) (actorUntil : ℤ) :
    PersonnelRevision where
  generation := db.tenantGuard.personnelRevision
  validUntil := readUntil db (some env.profileLimits.maxAge) sample.now (some actorUntil)
  logins := sample.logins
  profiles := sample.profiles

/-- The result of a run is the answer of its callback over the database it started in. -/
theorem PersonnelReads.answer {sample : PersonnelSample}
    (h : PersonnelReads env platform actor deadline host w sample value w') :
    ∃ loaded w₁, (recheck env actor).run w = .ok (loaded, w₁) ∧
      host.answer (sample.installed env platform actor w.state)
        (sample.revision env w.state loaded.view.goodUntil) = .ok value := by
  obtain ⟨answers, w₁, window, w₂, hanswers, hwindow, hread, rfl⟩ := h
  obtain ⟨hasked, w₃, hrecheck⟩ := run_askPersonnel hanswers
  obtain ⟨hsampled, hgeneration, huntil⟩ := run_readWindow hwindow
  simp only [readPersonnel, Tx.run_bind, Tx.run_query] at hread
  obtain ⟨_, _, ⟨rfl, rfl⟩, hsettle⟩ := hread
  have hanswer := run_settleRead hsettle
  rw [id_eq, hsampled, hgeneration, huntil, hasked] at hanswer
  exact ⟨answers.loaded, w₃, hrecheck, hanswer⟩

theorem ReferencesRead.answer {now : ℤ}
    (h : ReferencesRead env platform deadline host w now value w') :
    host.answer ⟨none, (ReferenceTerms.mk env.instanceId now platform).relation w.state⟩
      ⟨w.state.tenantGuard.personnelRevision, readUntil w.state none now none, false, .none⟩ =
        .ok value := by
  obtain ⟨window, w₁, hwindow, hread, rfl⟩ := h
  obtain ⟨hsampled, hgeneration, huntil⟩ := run_readWindow hwindow
  simp only [readReferences, Tx.run_bind, Tx.run_query] at hread
  obtain ⟨_, _, ⟨rfl, rfl⟩, hsettle⟩ := hread
  have hanswer := run_settleRead hsettle
  rw [id_eq, hsampled, hgeneration, huntil] at hanswer
  exact hanswer

/-- An actor that is rechecked over the same sessions is shown the same session. -/
theorem view_of_recheck {w₁ w₂ w₁' w₂' : Tenant} {loaded loaded' : Loaded}
    (h : (recheck env actor).run w₁ = .ok (loaded, w₁'))
    (h' : (recheck env actor).run w₂ = .ok (loaded', w₂'))
    (hsessions : w₁.state.sessions = w₂.state.sessions) : loaded.view = loaded'.view := by
  obtain ⟨-, -, hid, row, hof, -⟩ := run_recheck h
  obtain ⟨-, -, hid', row', hof', -⟩ := run_recheck h'
  have hfound := hof.found
  rw [hid, hsessions, ← hid', hof'.found] at hfound
  obtain rfl := Option.some_injective _ hfound
  have hlifetime := Option.some_injective _ (hof.lifetime.symm.trans hof'.lifetime)
  rw [hof.view, hof'.view, hlifetime]

/-- Session ends do not tell the facts of a login. -/
theorem sessionEnds_congr {db db' : Db} (h : db.SameSessions db') (now : ℤ) :
    sessionEnds db now = sessionEnds db' now := by
  have hends : ∀ d : Db, sessionEnds d now =
      let live := (d.sessions.rows.map SessionRow.withoutFacts).filter fun s =>
        decide (s.1.revokedAt = none)
      [((live.filter fun s => decide (now < s.1.idleExpiresAt)).map fun s =>
          s.1.idleExpiresAt).min?,
        ((live.filter fun s => decide (now < s.1.absoluteExpiresAt)).map fun s =>
          s.1.absoluteExpiresAt).min?] := by
    intro d
    simp only [sessionEnds, List.filter_map, List.map_map]
    rfl
  rw [hends, hends, h.sessions]

end Reads

/-- What a deployment lets a host learn. -/
structure RevealsOnlyGranted (env : Env) : Prop where
  /-- Where logins are denied, the credentials of accounts make no difference, to any callback. -/
  logins : ∀ {A R T : Type} {platform : Option String} {actor : AuthenticatedSession} {deadline : ℤ}
    {host : HostRead A R T} {w₁ w₁' w₂ w₂' : Tenant} {sample : PersonnelSample} {v₁ v₂ : T},
    PersonnelReads env platform actor deadline host w₁ sample v₁ w₁' →
    PersonnelReads env platform actor deadline host w₂ sample v₂ w₂' → sample.logins = false →
    w₂.state = { w₁.state with localCredentials := w₂.state.localCredentials } → v₁ = v₂
  /-- Where profiles are denied, the observations make no difference, to any statements. -/
  profiles : ∀ {A R T : Type} {platform : Option String} {actor : AuthenticatedSession}
    {deadline : ℤ} {host : HostRead A R T} {w₁ w₁' w₂ w₂' : Tenant} {sample : PersonnelSample}
    {v₁ v₂ : T}, host.Selects → PersonnelReads env platform actor deadline host w₁ sample v₁ w₁' →
    PersonnelReads env platform actor deadline host w₂ sample v₂ w₂' → sample.profiles = .none →
    w₂.state = { w₁.state with profileObservations := w₂.state.profileObservations } → v₁ = v₂
  /-- Where an actor may read the own profile only, the observations of others make no difference. -/
  ownProfiles : ∀ {A R T : Type} {platform : Option String} {actor : AuthenticatedSession}
    {deadline : ℤ} {host : HostRead A R T} {w₁ w₁' w₂ w₂' : Tenant} {sample : PersonnelSample}
    {v₁ v₂ : T}, host.Selects → PersonnelReads env platform actor deadline host w₁ sample v₁ w₁' →
    PersonnelReads env platform actor deadline host w₂ sample v₂ w₂' →
    sample.profiles = .selfOnly →
    w₂.state = { w₁.state with profileObservations := w₂.state.profileObservations } →
    (w₁.state.profileObservations.filter fun o => decide (o.principal = actor.key)) =
      w₂.state.profileObservations.filter (fun o => decide (o.principal = actor.key)) → v₁ = v₂
  /-- A read of session references tells, to any callback, the revision and which sessions are
  current; no credential, no observation and no fact of a login makes a difference. -/
  references : ∀ {A R T : Type} {platform : Option String} {deadline : ℤ} {host : HostRead A R T}
    {w₁ w₁' w₂ w₂' : Tenant} {now : ℤ} {v₁ v₂ : T},
    ReferencesRead env platform deadline host w₁ now v₁ w₁' →
    ReferencesRead env platform deadline host w₂ now v₂ w₂' →
    w₁.state.tenantGuard = w₂.state.tenantGuard → w₁.state.SameSessions w₂.state → v₁ = v₂
  /-- Of an account that is not active, nothing is shown. -/
  inactive : ∀ (terms : PersonnelTerms) (db : Db), ∀ row ∈ terms.relation db, row.active = false →
    row.login = none ∧ row.displayName = none ∧ row.username = none ∧ row.status ≠ .available
  /-- Of an observation that is over, or whose provider is disabled, changed or not linked any more,
  nothing is shown. -/
  stale : ∀ (terms : PersonnelTerms) (db : Db), ∀ row ∈ terms.relation db,
    ∀ o ∈ db.profileObservations, o.principal = row.principal → row.source = some o.source →
      o.Stale db terms.maxAge terms.now →
      row.displayName = none ∧ row.username = none ∧ row.status ≠ .available

section Agreement

variable {A R T : Type} {env : Env} {platform : Option String} {actor : AuthenticatedSession}
  {deadline : ℤ} {host : HostRead A R T} {w₁ w₁' w₂ w₂' : Tenant} {sample : PersonnelSample}
  {v₁ v₂ : T}

/-- Databases with the same sessions, accounts and providers have the same current sessions. -/
theorem sameSessions_of_eq {db db' : Db} (haccounts : db.accounts = db'.accounts)
    (hmemberships : db.memberships = db'.memberships) (hproviders : db.providers = db'.providers)
    (hidentities : db.externalIdentities = db'.externalIdentities)
    (hsessions : db.sessions = db'.sessions) : db.SameSessions db' :=
  ⟨haccounts, hmemberships, hproviders, hidentities, by rw [hsessions]⟩

/-- What is installed is a matter of what the terms let a reader see, and of the sessions. -/
theorem installed_congr {db db' : Db} (hagree : (sample.terms env actor).Agree db db')
    (hsessions : db.sessions = db'.sessions) :
    sample.installed env platform actor db = sample.installed env platform actor db' := by
  have hsame := sameSessions_of_eq hagree.accounts hagree.memberships hagree.providers
    hagree.externalIdentities hsessions
  rw [PersonnelSample.installed, relation_congr hagree, referenceRelation_congr hsame]
  rfl

/-- Two runs of statements over databases in which the terms let a reader see the same end alike. -/
theorem reads_agree (hhost : host.Selects)
    (h₁ : PersonnelReads env platform actor deadline host w₁ sample v₁ w₁')
    (h₂ : PersonnelReads env platform actor deadline host w₂ sample v₂ w₂')
    (hagree : (sample.terms env actor).Agree w₁.state w₂.state)
    (hsessions : w₁.state.sessions = w₂.state.sessions) : v₁ = v₂ := by
  obtain ⟨loaded, _, -, hanswer₁⟩ := h₁.answer
  obtain ⟨loaded', _, -, hanswer₂⟩ := h₂.answer
  rw [installed_congr hagree hsessions,
    hhost.answer_eq _ _ (sample.revision env w₂.state loaded'.view.goodUntil), hanswer₂] at hanswer₁
  exact (Except.ok.inj hanswer₁).symm

theorem logins_confined (h₁ : PersonnelReads env platform actor deadline host w₁ sample v₁ w₁')
    (h₂ : PersonnelReads env platform actor deadline host w₂ sample v₂ w₂')
    (hdenied : sample.logins = false)
    (hstate : w₂.state = { w₁.state with localCredentials := w₂.state.localCredentials }) :
    v₁ = v₂ := by
  obtain ⟨loaded, _, hrecheck₁, hanswer₁⟩ := h₁.answer
  obtain ⟨loaded', _, hrecheck₂, hanswer₂⟩ := h₂.answer
  have hsessions : w₁.state.sessions = w₂.state.sessions := by rw [hstate]
  have hagree : (sample.terms env actor).Agree w₁.state w₂.state := by
    refine ⟨by rw [hstate], by rw [hstate], by rw [hstate], by rw [hstate], ?_, ?_⟩
    · intro hgranted
      rw [show (sample.terms env actor).logins = false from hdenied] at hgranted
      cases hgranted
    · intro principal _
      rw [hstate]
  have hrevision : sample.revision env w₁.state loaded.view.goodUntil =
      sample.revision env w₂.state loaded'.view.goodUntil := by
    rw [view_of_recheck hrecheck₁ hrecheck₂ hsessions, hstate]
    rfl
  rw [installed_congr hagree hsessions, hrevision, hanswer₂] at hanswer₁
  exact (Except.ok.inj hanswer₁).symm

/-- Databases that differ in observations alone are alike to terms that cover no other ones. -/
theorem agree_of_observations {terms : PersonnelTerms} {db db' : Db}
    (hstate : db' = { db with profileObservations := db'.profileObservations })
    (hcovered : ∀ principal, terms.covers principal = true →
      (db.profileObservations.rows.filter fun o => decide (o.principal = principal)) =
        db'.profileObservations.rows.filter fun o => decide (o.principal = principal)) :
    terms.Agree db db' := by
  refine ⟨by rw [hstate], by rw [hstate], by rw [hstate], by rw [hstate], ?_, hcovered⟩
  intro _
  rw [hstate]

theorem profiles_confined (hhost : host.Selects)
    (h₁ : PersonnelReads env platform actor deadline host w₁ sample v₁ w₁')
    (h₂ : PersonnelReads env platform actor deadline host w₂ sample v₂ w₂')
    (hdenied : sample.profiles = .none)
    (hstate : w₂.state = { w₁.state with profileObservations := w₂.state.profileObservations }) :
    v₁ = v₂ := by
  refine reads_agree hhost h₁ h₂ (agree_of_observations hstate ?_) (by rw [hstate])
  intro principal hcovers
  simp [PersonnelTerms.covers, PersonnelSample.terms, hdenied] at hcovers

theorem ownProfiles_confined (hhost : host.Selects)
    (h₁ : PersonnelReads env platform actor deadline host w₁ sample v₁ w₁')
    (h₂ : PersonnelReads env platform actor deadline host w₂ sample v₂ w₂')
    (hown : sample.profiles = .selfOnly)
    (hstate : w₂.state = { w₁.state with profileObservations := w₂.state.profileObservations })
    (hsame : (w₁.state.profileObservations.filter fun o => decide (o.principal = actor.key)) =
      w₂.state.profileObservations.filter fun o => decide (o.principal = actor.key)) :
    v₁ = v₂ := by
  refine reads_agree hhost h₁ h₂ (agree_of_observations hstate ?_) (by rw [hstate])
  intro principal hcovers
  simp only [PersonnelTerms.covers, PersonnelSample.terms, hown, decide_eq_true_eq] at hcovers
  rw [hcovers]
  exact hsame

theorem references_confined {now : ℤ}
    (h₁ : ReferencesRead env platform deadline host w₁ now v₁ w₁')
    (h₂ : ReferencesRead env platform deadline host w₂ now v₂ w₂')
    (hguard : w₁.state.tenantGuard = w₂.state.tenantGuard)
    (hsame : w₁.state.SameSessions w₂.state) : v₁ = v₂ := by
  have hanswer₁ := h₁.answer
  have huntil : readUntil w₁.state none now none = readUntil w₂.state none now none := by
    simp only [readUntil, sessionEnds_congr hsame, Option.elim_none]
  rw [referenceRelation_congr hsame, hguard, huntil, h₂.answer] at hanswer₁
  exact (Except.ok.inj hanswer₁).symm

end Agreement

/-- A row with a source was made of the observation of its account at that source. -/
theorem observation_of_row {terms : PersonnelTerms} {db : Db} {j : PersonnelJoin}
    {o : ProfileObservationRow} (hj : j ∈ terms.joined db) (ho : o ∈ db.profileObservations)
    (hprincipal : o.principal = j.a.principal)
    (hsource : j.o.map ProfileObservationRow.source = some o.source) : j.o = some o := by
  obtain ⟨observed, hobserved, hsame⟩ := Option.map_eq_some_iff.mp hsource
  obtain ⟨hstored, hof, -⟩ := (mem_joined hj).2 observed hobserved
  have hkey : key observed = key o := Prod.ext (hof.trans hprincipal.symm) hsame
  rw [hobserved, Table.eq_of_key hstored ho hkey]

/-- Personnel relations reveal only what the policy granted: two runs of one callback end alike over
databases that differ in what was denied, and what is granted is neither of an account that is not
active nor of an observation that is not good any more. -/
theorem personnel_confined (env : Env) : RevealsOnlyGranted env where
  logins := logins_confined
  profiles := profiles_confined
  ownProfiles := ownProfiles_confined
  references := references_confined
  inactive := by
    intro terms db row hrow hinactive
    obtain ⟨j, -, rfl⟩ := List.mem_map.mp hrow
    obtain ⟨hlogin, hshown, hstatus⟩ := inactive_row terms db hinactive
    refine ⟨hlogin, hshown _, hshown _, fun havailable => ?_⟩
    rw [show (terms.row db j).status = .unavailable from hstatus] at havailable
    cases havailable
  stale := by
    intro terms db row hrow o ho hprincipal hsource hstale
    obtain ⟨j, hj, rfl⟩ := List.mem_map.mp hrow
    obtain ⟨hshown, hstatus⟩ :=
      stale_row hj (observation_of_row hj ho hprincipal hsource) hstale
    exact ⟨hshown _, hshown _, hstatus⟩

/-- A deployment whose policy grants nothing. -/
def Env.closed : Env := { Env.transparent with policy := fun _ _ => none }

/-- A statement that lists the logins it is shown. -/
def shownLogins : HostRead Unit String (List String) :=
  .query (fun installed _ => installed.personnel.map fun rows => rows.filterMap PersonnelRow.login) ()
    100 .done

/-- The first account of a closed deployment signs in. -/
def closedLogin : Except Failure (AuthenticatedSession × Tenant) :=
  (do
    let issued ← firstLogin .closed ⟨Uuid.newV4 0⟩ "ada" "hash"
    authenticateSession .closed (Env.closed.sha256.secret issued.secret) .cookie false).run newTenant

/-- The same world, with another login of the account. -/
def renamed (w : Tenant) : Tenant :=
  { w with state := { w.state with localCredentials :=
      (Table.ofRows [⟨⟨Uuid.newV4 0⟩, "eve", "hash"⟩]).getD w.state.localCredentials } }

/-- The logins that an actor is shown in a world, with what the read was told. -/
def closedRead (actor : AuthenticatedSession) (w : Tenant) :
    Option (PersonnelSample × List String × Tenant) := do
  let (answers, w₁) ← ((askPersonnel .closed actor 200000000).run w).toOption
  let (window, w₂) ← ((readWindow (some Env.closed.profileLimits.maxAge) answers.expires
    (some answers.loaded.view.goodUntil)).run w₁).toOption
  let (value, w₃) ← ((readPersonnel .closed none actor answers window shownLogins).run w₂).toOption
  some (⟨answers.logins, answers.profiles, window.now⟩, value, w₃)

theorem reads_of_closedRead {actor : AuthenticatedSession} {w w' : Tenant}
    {sample : PersonnelSample} {value : List String}
    (h : closedRead actor w = some (sample, value, w')) :
    PersonnelReads .closed none actor 200000000 shownLogins w sample value w' := by
  simp only [closedRead, Option.bind_eq_bind, Option.bind_eq_some_iff, Option.some.injEq,
    Prod.mk.injEq, Prod.exists] at h
  obtain ⟨answers, w₁, hanswers, window, w₂, hwindow, value, w₃, hvalue, rfl, rfl, rfl⟩ := h
  exact ⟨answers, w₁, window, w₂, eq_ok_of_toOption hanswers, eq_ok_of_toOption hwindow,
    eq_ok_of_toOption hvalue, rfl⟩

/-- To a closed deployment, `ada` and `eve` are the same. -/
theorem renamed_confined : ∃ actor w sample v₁ v₂ w₁ w₂,
    PersonnelReads .closed none actor 200000000 shownLogins w sample v₁ w₁ ∧
      PersonnelReads .closed none actor 200000000 shownLogins (renamed w) sample v₂ w₂ ∧
      w.state.localCredentials.rows.map LocalCredentialRow.loginKey = ["ada"] ∧
      (renamed w).state.localCredentials.rows.map LocalCredentialRow.loginKey = ["eve"] ∧
      v₁ = v₂ := by
  have hok : (closedLogin.toOption.map fun found =>
      ((closedRead found.1 found.2).map Prod.fst, (closedRead found.1 (renamed found.2)).map Prod.fst,
        found.2.state.localCredentials.rows.map LocalCredentialRow.loginKey,
        (renamed found.2).state.localCredentials.rows.map LocalCredentialRow.loginKey)) =
      some (some ⟨false, .none, 100⟩, some ⟨false, .none, 100⟩, ["ada"], ["eve"]) := by
    decide +kernel
  obtain ⟨⟨actor, w⟩, -, hreads⟩ := Option.map_eq_some_iff.mp hok
  simp only [Prod.mk.injEq, Option.map_eq_some_iff] at hreads
  obtain ⟨⟨⟨sample, v₁, w₁⟩, hread₁, rfl⟩, ⟨⟨_, v₂, w₂⟩, hread₂, rfl⟩, hada, heve⟩ := hreads
  have hreads₁ := reads_of_closedRead hread₁
  have hreads₂ := reads_of_closedRead hread₂
  exact ⟨actor, w, _, v₁, v₂, w₁, w₂, hreads₁, hreads₂, hada, heve,
    (personnel_confined .closed).logins hreads₁ hreads₂ rfl rfl⟩

end IdentityAuthority
