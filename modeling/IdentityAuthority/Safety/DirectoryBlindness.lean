import IdentityAuthority.Relational.Agreement
import IdentityAuthority.Safety.AccountPages

/-!
# What a query does not ask for

A page of accounts is the same, cursor and all, whatever was observed of profiles or told of
departments that the query does not ask for. A field that asks for them may stand anywhere in a query,
and the policy is asked before anything is read for it.
-/

namespace IdentityAuthority

open Relational Transition Json

section Access

variable {env : Env} {R : Db → Db → Prop} {key : AccountKey} {sid : SessionId}
  {actor : AuthenticatedSession}

/-- Two databases have the same accounts, and the same of what sessions come from. -/
structure Db.SameAccess (db db' : Db) : Prop where
  accounts : db.accounts = db'.accounts
  memberships : db.memberships = db'.memberships
  localCredentials : db.localCredentials = db'.localCredentials
  providers : db.providers = db'.providers
  externalIdentities : db.externalIdentities = db'.externalIdentities

/-- The host answers alike in worlds that agree. -/
structure HostBlind (env : Env) (R : Db → Db → Prop) (actor : AuthenticatedSession) : Prop where
  policy : ∀ context w v, w.Agree R v → env.policy context w = env.policy context v
  audience : ∀ verifier ∈ actor.checks, ∀ w v, w.Agree R v → verifier.audience w = verifier.audience v
  recheck : ∀ verifier ∈ actor.checks, ∀ binding w v, w.Agree R v →
    verifier.recheck binding w = verifier.recheck binding v

theorem load_blind (hR : ∀ s t, R s t → s.SameAccess t) : (load key).Blind R := by
  have haccounts : (Tx.find Tables.accounts key : Action _).Blind R :=
    .find fun s t h => by simp only [Tables.accounts_get, (hR s t h).accounts]
  have hmemberships : (Tx.find Tables.memberships key : Action _).Blind R :=
    .find fun s t h => by simp only [Tables.memberships_get, (hR s t h).memberships]
  have hcredentials : (Tx.find Tables.localCredentials key : Action _).Blind R :=
    .find fun s t h => by simp only [Tables.localCredentials_get, (hR s t h).localCredentials]
  exact haccounts.bind fun _ => Tx.Blind.demand.bind fun _ => hmemberships.bind fun _ =>
    Tx.Blind.demand.bind fun _ => hcredentials.bind fun _ => Tx.Blind.demand.bind fun _ =>
      Tx.Blind.require.bind fun _ => .pure

theorem provider_row_blind (hR : ∀ s t, R s t → s.SameAccess t) {id : ProviderId} :
    (Tx.find Tables.providers id : Action _).Blind R :=
  .find fun s t h => by simp only [Tables.providers_get, (hR s t h).providers]

theorem identity_row_blind (hR : ∀ s t, R s t → s.SameAccess t) {id : Uuid} :
    (Tx.find Tables.externalIdentities id : Action _).Blind R :=
  .find fun s t h => by simp only [Tables.externalIdentities_get, (hR s t h).externalIdentities]

theorem checkOrigin_blind (hR : ∀ s t, R s t → s.SameAccess t) {o : Origin} :
    (checkOrigin env key o).Blind R :=
  (identity_row_blind hR).bind fun _ => Tx.Blind.demand.bind fun _ => (provider_row_blind hR).bind
    fun _ => Tx.Blind.demand.bind fun _ => Tx.Blind.require.bind fun _ => .demand

theorem external_blind (hR : ∀ s t, R s t → s.SameAccess t) {binding : PlatformBinding} :
    (external binding).Blind R := by
  unfold external
  split
  · exact .pure
  · exact (identity_row_blind hR).bind fun _ => Tx.Blind.demand.bind fun _ =>
      (provider_row_blind hR).bind fun _ => Tx.Blind.demand.bind fun _ => .require

theorem recheckPlatform_blind (hR : ∀ s t, R s t → s.SameAccess t) (hhost : HostBlind env R actor)
    {stored : PlatformAuthentication} : (recheckPlatform env key stored actor.checks).Blind R := by
  unfold recheckPlatform
  intro w v h
  refine (Tx.Blind.demand w v h).bind fun verifier w' v' hverifier h' => ?_
  have hmem : verifier ∈ actor.checks := (Tx.run_demand.mp hverifier).1
  refine Tx.Blind.world (fun w v h => ?_) w' v' h'
  rw [hhost.audience verifier hmem w v h, hhost.recheck verifier hmem _ w v h]
  exact (Tx.Blind.require.bind fun _ => Tx.Blind.require.bind fun _ => (external_blind hR).bind fun _ =>
    Tx.Blind.ofExcept.bind fun _ => .pure) w v h

theorem origin_blind (hsession : ∀ s t, R s t → s.sessions.find? sid = t.sessions.find? sid) :
    (origin sid).Blind R := by
  have hfind : (Tx.find Tables.sessions sid : Action _).Blind R :=
    .find fun s t h => by simp only [Tables.sessions_get, hsession s t h]
  refine hfind.bind fun _ => Tx.Blind.demand.bind fun row => ?_
  split
  · exact Tx.Blind.demand.bind fun _ => Tx.Blind.demand.bind fun _ => Tx.Blind.demand.bind fun _ =>
      Tx.Blind.ofExcept.bind fun _ => .pure
  · exact Tx.Blind.require.bind fun _ => .pure

theorem checkedOrigin_blind (hR : ∀ s t, R s t → s.SameAccess t)
    (hsession : ∀ s t, R s t → s.sessions.find? sid = t.sessions.find? sid) :
    (checkedOrigin env key sid).Blind R := by
  refine (origin_blind hsession).bind fun found => ?_
  split
  · exact (checkOrigin_blind hR).bind fun _ => .pure
  · exact .pure

theorem assuranceAndGroups_blind (hR : ∀ s t, R s t → s.SameAccess t) (hhost : HostBlind env R actor)
    {admitted : Admitted} : (assuranceAndGroups env key actor.checks admitted).Blind R := by
  unfold assuranceAndGroups
  split
  · exact Tx.Blind.ofExcept.bind fun _ => .pure
  · exact Tx.Blind.demand.bind fun _ => Tx.Blind.demand.bind fun _ => .pure
  · exact Tx.Blind.demand.bind fun _ => (recheckPlatform_blind hR hhost).bind fun _ =>
      Tx.Blind.ofExcept.bind fun _ => .pure
  · exact .throw

/-- Checking a session is blind to the rows of others. -/
theorem byId_blind (hR : ∀ s t, R s t → s.SameAccess t) (hhost : HostBlind env R actor)
    (hsession : ∀ s t, R s t → s.sessions.find? sid = t.sessions.find? sid) :
    (byId env key sid actor.checks).Blind R := by
  have hfind : (Tx.find Tables.sessions sid : Action _).Blind R :=
    .find fun s t h => by simp only [Tables.sessions_get, hsession s t h]
  have hadmitted : (admitSession env key sid).Blind R :=
    (load_blind hR).bind fun _ => hfind.bind fun _ => Tx.Blind.demand.bind fun _ =>
      Tx.Blind.require.bind fun _ => (checkedOrigin_blind hR hsession).bind fun _ =>
        Tx.Blind.demand.bind fun _ => Tx.Blind.clockTimestamp.bind fun _ =>
          Tx.Blind.require.bind fun _ => Tx.Blind.require.bind fun _ => .pure
  exact hadmitted.bind fun _ => Tx.Blind.ofExcept.bind fun _ =>
    (assuranceAndGroups_blind hR hhost).bind fun _ => Tx.Blind.require.bind fun _ =>
      Tx.Blind.require.bind fun _ => .pure

/-- So is asking the policy. -/
theorem authorize_blind (hhost : HostBlind env R actor) {loaded : Loaded}
    {operation : ManagementOperation} {target : Option AccountKey} :
    (authorize env loaded operation target).Blind R := by
  have hrecent : ∀ age mfa, (requireRecent loaded age mfa).Blind R := fun age mfa =>
    (Tx.Blind.clockTimestamp.bind fun _ => .pure).bind fun _ => .require
  refine Tx.Blind.world fun w v h => ?_
  rw [hhost.policy _ w v h]
  refine (Tx.Blind.demand.bind fun requirement => ?_) w v h
  cases requirement with
  | none => exact .pure
  | recent age => exact hrecent age false
  | recentMfa age => exact hrecent age true

theorem authorizeEach_blind (hhost : HostBlind env R actor) {loaded : Loaded}
    (operations : List ManagementOperation) : (authorizeEach env loaded operations).Blind R := by
  induction operations with
  | nil => exact .pure
  | cons operation rest ih => exact (authorize_blind hhost).bind fun _ => ih

end Access

/-- A session, but for the department that its login was told of. -/
def SessionRow.withoutDepartment (s : SessionRow) : SessionRow :=
  { s with authFacts := s.authFacts.map fun facts =>
      { facts with departmentSnapshot := .unavailable .notConfigured } }

/-- Two databases are the same but for what a query does not ask for: the observations of profiles, and
the departments of sessions that are not under a digest. -/
structure AccountQuery.Agrees (query : AccountQuery) (digest : Digest) (db db' : Db) : Prop where
  rest : db' = { db with profileObservations := db'.profileObservations, sessions := db'.sessions }
  observations : query.needsProfiles = true → db.profileObservations = db'.profileObservations
  departments : query.needsDepartments = true → db.sessions = db'.sessions
  sessions : db.sessions.rows.map SessionRow.withoutDepartment =
    db'.sessions.rows.map SessionRow.withoutDepartment
  own : (db.sessions.filter fun s => decide (s.tokenHash = digest)) =
    db'.sessions.filter fun s => decide (s.tokenHash = digest)

section Agreement

variable {env : Env} {query : AccountQuery} {digest : Digest} {db db' : Db}
  {actor : AuthenticatedSession}

theorem AccountQuery.Agrees.access (h : query.Agrees digest db db') : db.SameAccess db' := by
  refine ⟨?_, ?_, ?_, ?_, ?_⟩ <;> rw [h.rest]

theorem AccountQuery.Agrees.tenantGuard (h : query.Agrees digest db db') :
    db.tenantGuard = db'.tenantGuard := by
  rw [h.rest]

/-- A session under the digest is the same in both. -/
theorem AccountQuery.Agrees.find_own (h : query.Agrees digest db db') {row : SessionRow}
    (hrow : row ∈ db.sessions.filter fun s => decide (s.tokenHash = digest)) :
    db.sessions.find? row.session = db'.sessions.find? row.session := by
  have hrow' := h.own ▸ hrow
  exact (Table.find?_of_mem (Table.mem_filter.mp hrow).1).trans
    (Table.find?_of_mem (Table.mem_filter.mp hrow').1).symm

/-- Presenting a credential again ends alike, where its session is the same. -/
theorem recheck_alike (hhost : HostBlind env (query.Agrees actor.digest) actor) :
    (recheck env actor).Blind (query.Agrees actor.digest) := by
  have hrows : (Tx.select Tables.sessions fun row => decide (row.tokenHash = actor.digest) :
      Action _).Blind (query.Agrees actor.digest) := .query fun s t h => h.own
  have hlookup : (lookup env actor.digest actor.view.credentialKind actor.checks).Blind
      (query.Agrees actor.digest) := by
    intro w v h
    refine (hrows w v h).bind fun rows w₁ v₁ hread h₁ => ?_
    refine (Tx.Blind.demand w₁ v₁ h₁).bind fun located w₂ v₂ hlocated h₂ => ?_
    -- The session that is located is under the digest, so the rest depends on no other one.
    obtain ⟨rfl, rfl⟩ := Tx.run_select.mp hread
    obtain ⟨hhead, rfl⟩ := Tx.run_demand.mp hlocated
    let R : Db → Db → Prop := fun s t =>
      query.Agrees actor.digest s t ∧ s.sessions.find? located.session = t.sessions.find? located.session
    have hown : R w.state v₂.state := ⟨h₂.state, h₂.state.find_own (List.mem_of_head? hhead)⟩
    have hR : ∀ s t, R s t → s.SameAccess t := fun s t h => h.1.access
    have hhost' : HostBlind env R actor := by
      have hle : ∀ {w v : Tenant}, w.Agree R v → w.Agree (query.Agrees actor.digest) v :=
        fun h => ⟨h.state.1, h.clock, h.delays, h.drawn⟩
      exact ⟨fun context w v h => hhost.policy context w v (hle h),
        fun verifier hverifier w v h => hhost.audience verifier hverifier w v (hle h),
        fun verifier hverifier binding w v h => hhost.recheck verifier hverifier binding w v (hle h)⟩
    have hfind : (Tx.find Tables.sessions located.session : Action _).Blind R := .find fun s t h => h.2
    have hrest : (do
        let loaded ← byId env located.principal located.session actor.checks
        let stored ← Tx.find Tables.sessions located.session
        let stored ← Tx.demand stored .unavailable
        Tx.require (stored.tokenHash = actor.digest ∧ loaded.view.credentialKind =
          actor.view.credentialKind) .rejected
        pure loaded : Action Loaded).Blind R :=
      (byId_blind hR hhost' fun s t h => h.2).bind fun _ => hfind.bind fun _ =>
        Tx.Blind.demand.bind fun _ => Tx.Blind.require.bind fun _ => .pure
    exact (hrest w v₂ ⟨hown, h₂.clock, h₂.delays, h₂.drawn⟩).mono fun s t h => h.1
  exact Tx.Blind.require.bind fun _ => hlookup.bind fun _ => Tx.Blind.require.bind fun _ => .pure

/-- The ends of sessions do not tell of departments. -/
theorem sessionEnds_withoutDepartment (h : query.Agrees digest db db') (now : ℤ) :
    sessionEnds db now = sessionEnds db' now := by
  have hends : ∀ d : Db, sessionEnds d now =
      let live := (d.sessions.rows.map SessionRow.withoutDepartment).filter fun s =>
        decide (s.revokedAt = none)
      [((live.filter fun s => decide (now < s.idleExpiresAt)).map SessionRow.idleExpiresAt).min?,
        ((live.filter fun s => decide (now < s.absoluteExpiresAt)).map
          SessionRow.absoluteExpiresAt).min?] := by
    intro d
    simp only [sessionEnds, List.filter_map, List.map_map]
    rfl
  rw [hends, hends, h.sessions]

/-- The window of a query is the same in both. -/
theorem relationsUntil_agrees (h : query.Agrees digest db db') (limits : ProfileLimits) (now : ℤ)
    (actorUntil : Option ℤ) :
    relationsUntil db (query.windowAge limits) query.windowSource now actorUntil =
      relationsUntil db' (query.windowAge limits) query.windowSource now actorUntil := by
  have hobservations : ((query.windowAge limits).elim [] fun age => observationEnds db age now) =
      (query.windowAge limits).elim [] fun age => observationEnds db' age now := by
    unfold AccountQuery.windowAge
    split
    · rename_i hprofiles
      simp only [Option.elim_some, observationEnds, h.observations hprofiles]
    · rfl
  have hdepartments : (query.windowSource.bind fun source => departmentUntil db source now) =
      query.windowSource.bind fun source => departmentUntil db' source now := by
    unfold AccountQuery.windowSource
    split
    · rename_i hdepartments
      have hsourced : ∀ source, sourced db source = sourced db' source := fun source => by
        rw [sourced, sourced, h.departments hdepartments, h.access.externalIdentities]
      simp only [departmentUntil, latestDepartments, latestSourced, hsourced]
    · rfl
  unfold relationsUntil
  rw [sessionEnds_withoutDepartment h, hobservations, hdepartments]

section Rows

variable {limits : ProfileLimits} {now : ℤ} {uuids : UuidFormat} {a : AccountRow} {m : MembershipRow}

/-- What a row shows of a profile is the same in both. -/
theorem profileColumns_agree (h : query.Agrees digest db db') :
    (query.terms limits now).profileStatus db ((query.terms limits now).join db a m) =
        (query.terms limits now).profileStatus db' ((query.terms limits now).join db' a m) ∧
      ∀ pick, (query.terms limits now).shown db pick ((query.terms limits now).join db a m) =
        (query.terms limits now).shown db' pick ((query.terms limits now).join db' a m) := by
  cases hprofiles : query.needsProfiles with
  | false =>
    have hunavailable : ∀ (d : Db) (j : DirectoryJoin),
        (query.terms limits now).profileStatus d j = .unavailable := by
      intro d j
      simp [DirectoryTerms.profileStatus, AccountQuery.terms, hprofiles]
    refine ⟨by rw [hunavailable, hunavailable], fun pick => ?_⟩
    simp [DirectoryTerms.shown, hunavailable]
  | true =>
    have hjoined : ((query.terms limits now).join db a m).toPersonnelJoin =
        ((query.terms limits now).join db' a m).toPersonnelJoin := by
      simp only [DirectoryTerms.join, DirectoryTerms.observation, h.observations hprofiles,
        h.access.localCredentials, h.access.providers]
    have hstatus : (query.terms limits now).profileStatus db ((query.terms limits now).join db a m) =
        (query.terms limits now).profileStatus db' ((query.terms limits now).join db' a m) := by
      simp only [DirectoryTerms.profileStatus, DirectoryTerms.ends, PersonnelTerms.asObserved,
        PersonnelTerms.linked, hjoined, h.access.externalIdentities]
      rfl
    exact ⟨hstatus, fun pick => by simp only [DirectoryTerms.shown, hstatus, hjoined]⟩

/-- What a row shows of a department is the same in both. -/
theorem departmentColumns_agree (h : query.Agrees digest db db') :
    (query.terms limits now).departmentStatus ((query.terms limits now).join db a m) =
        (query.terms limits now).departmentStatus ((query.terms limits now).join db' a m) ∧
      (query.terms limits now).departmentSnapshot ((query.terms limits now).join db a m) =
        (query.terms limits now).departmentSnapshot ((query.terms limits now).join db' a m) := by
  cases hdepartments : query.needsDepartments with
  | false =>
    have hunavailable : ∀ j, (query.terms limits now).departmentStatus j = "unavailable" := by
      intro j
      simp [DirectoryTerms.departmentStatus, AccountQuery.terms, hdepartments]
    simp [DirectoryTerms.departmentSnapshot, hunavailable]
  | true =>
    have hlogin : (query.terms limits now).login db a.principal =
        (query.terms limits now).login db' a.principal := by
      simp only [DirectoryTerms.login, latestSourced, sourced, h.departments hdepartments,
        h.access.externalIdentities]
    have hidentity : ∀ ds, identityOf db a.principal ds = identityOf db' a.principal ds := by
      intro ds
      simp only [identityOf, h.access.externalIdentities]
    have hstatus : (query.terms limits now).departmentStatus ((query.terms limits now).join db a m) =
        (query.terms limits now).departmentStatus ((query.terms limits now).join db' a m) := by
      simp only [DirectoryTerms.departmentStatus, DirectoryTerms.departmentCurrent, DirectoryTerms.join,
        PersonnelTerms.active, hlogin, hidentity, h.access.providers]
      rfl
    refine ⟨hstatus, ?_⟩
    simp only [DirectoryTerms.departmentSnapshot, hstatus]
    simp only [DirectoryTerms.join, hlogin]
    rfl

/-- The rows of a query are the same in both. -/
theorem relation_agrees (h : query.Agrees digest db db') :
    (query.terms limits now).relation db uuids = (query.terms limits now).relation db' uuids := by
  unfold DirectoryTerms.relation
  rw [directoryJoined_eq, directoryJoined_eq, List.map_flatMap, List.map_flatMap, h.access.accounts]
  refine List.flatMap_congr fun a _ => ?_
  rw [List.map_map, List.map_map, h.access.memberships]
  refine List.map_congr_left fun m _ => ?_
  obtain ⟨hstatus, hshown⟩ := @profileColumns_agree query digest db db' limits now a m h
  obtain ⟨hdepartment, hsnapshot⟩ := @departmentColumns_agree query digest db db' limits now a m h
  rw [Function.comp_apply, Function.comp_apply, DirectoryTerms.row, DirectoryTerms.row, hstatus, hshown,
    hshown, hdepartment, hsnapshot]
  simp only [DirectoryTerms.join, h.access.localCredentials]

end Rows

end Agreement

section Main

variable {env : Env} {directory : AccountDirectory} {actor : AuthenticatedSession} {query : AccountQuery}
  {cursor : Option String} {deadline : ℤ}

/-- Sampling a window for a query is blind to what the query does not ask for. -/
theorem readWindowOf_blind {digest : Digest} {limits : ProfileLimits} {actorUntil : Option ℤ} :
    (readWindowOf (query.windowAge limits) query.windowSource deadline actorUntil).Blind
      (query.Agrees digest) := by
  refine Tx.Blind.clockTimestamp.bind fun sampled => Tx.Blind.clockTimestamp.bind fun micros =>
    Tx.Blind.snapshot fun w v h => ?_
  simp only [relationsUntil_agrees h.state, h.state.tenantGuard]
  exact Tx.Blind.pure w v h

/-- So is listing a page. -/
theorem listAccounts_blind (hhost : HostBlind env (query.Agrees actor.digest) actor) :
    (listAccounts env directory actor query cursor deadline).Blind (query.Agrees actor.digest) := by
  refine Tx.Blind.require.bind fun _ => (recheck_alike hhost).bind fun loaded =>
    (authorizeEach_blind hhost _).bind fun _ => readWindowOf_blind.bind fun window =>
      Tx.Blind.ofExcept.bind fun position => Tx.Blind.snapshot fun w v h => ?_
  have hrows : directory.page env query window.now position w.state =
      directory.page env query window.now position v.state := by
    rw [AccountDirectory.page, AccountDirectory.page, AccountDirectory.rows, AccountDirectory.rows,
      relation_agrees h.state]
  rw [hrows]
  exact (Tx.Blind.demand.bind fun _ => Tx.Blind.clockTimestamp.bind fun _ => Tx.Blind.require.bind
    fun _ => .pure) w v h

end Main

/-- A condition on a field stands in a filter, however deep. -/
inductive Expression.Mentions (field : Field) : Expression → Prop
  | compare (op : Operator) (values : List String) : Mentions field (.compare field op values)
  | and {item : Expression} {items : List Expression} : item ∈ items → Mentions field item →
      Mentions field (.and items)
  | or {item : Expression} {items : List Expression} : item ∈ items → Mentions field item →
      Mentions field (.or items)

/-- A query uses a field: to show it, to order by it, or in its filter. -/
inductive AccountQuery.Uses (query : AccountQuery) (field : Field) : Prop
  | shows : field ∈ query.fields → Uses query field
  | orders (s : SortKey) : s ∈ query.sort → s.field = field → Uses query field
  | filters (e : Expression) : query.filter = some e → e.Mentions field → Uses query field

section Fields

variable {env : Env} {query : AccountQuery} {field : Field} {w w' : Tenant} {loaded : Loaded}

theorem mem_expressionFields {item : Expression} {items : List Expression} (hitem : item ∈ items)
    (hfield : field ∈ item.fields) : field ∈ expressionFields items := by
  induction items with
  | nil => cases hitem
  | cons first rest ih =>
    refine List.mem_append.mpr ?_
    rcases List.mem_cons.mp hitem with rfl | hrest
    · exact .inl hfield
    · exact .inr (ih hrest)

theorem Expression.Mentions.mem_fields {e : Expression} (h : e.Mentions field) : field ∈ e.fields := by
  induction h with
  | compare op values => exact List.mem_singleton_self field
  | and hitem _ ih => exact mem_expressionFields hitem ih
  | or hitem _ ih => exact mem_expressionFields hitem ih

/-- Every field that is used is counted. -/
theorem AccountQuery.Uses.mem_usedFields (h : query.Uses field) : field ∈ query.usedFields := by
  unfold AccountQuery.usedFields
  cases h with
  | shows hfield => exact List.mem_append_left _ (List.mem_append_left _ hfield)
  | orders s hs hfield =>
    exact List.mem_append_left _ (List.mem_append_right _ (hfield ▸ List.mem_map_of_mem hs))
  | filters e he hmentions =>
    rw [he]
    exact List.mem_append_right _ hmentions.mem_fields

/-- The host admitted a loaded actor to an operation, in a state and before a time. -/
def HostAdmits (env : Env) (loaded : Loaded) (operation : ManagementOperation) (db : Db) (until_ : ℤ) :
    Prop :=
  ∃ (asked : Tenant) (requirement : ReauthenticationRequirement) (instant : ℤ),
    asked.state = db ∧ env.policy
      { actor := loaded.state.key
        target := none
        operation
        assurance := loaded.assurance
        groups := loaded.groups
        departmentSnapshot := loaded.departmentSnapshot } asked = some requirement ∧
      requirement.MetBy loaded instant ∧ instant ≤ until_

/-- Every operation that was asked for was admitted, one after the other. -/
theorem run_authorizeEach_admits {operations : List ManagementOperation} {u : Unit}
    (h : (authorizeEach env loaded operations).run w = .ok (u, w')) :
    ∀ operation ∈ operations, HostAdmits env loaded operation w.state w'.clock := by
  induction operations generalizing w with
  | nil => exact fun operation hmem => by cases hmem
  | cons first rest ih =>
    obtain ⟨_, w₁, hfirst, hrest⟩ := Tx.run_bind.mp h
    obtain ⟨requirement, hpolicy, hmet⟩ := run_authorize_met hfirst
    obtain ⟨hstate, -⟩ := run_authorize hfirst
    have hlater := (Tx.advances _ _ _ _ hrest).clock
    intro operation hmem
    rcases List.mem_cons.mp hmem with rfl | hmem
    · exact ⟨w, requirement, w₁.clock, rfl, hpolicy, hmet, hlater⟩
    · rw [← hstate]
      exact ih hrest operation hmem

end Fields

/-- What a query that was accepted lets an actor learn. -/
structure DirectoryConfined (env : Env) (directory : AccountDirectory) (query : AccountQuery) : Prop where
  /-- Nothing that the query does not ask for makes a difference, to any page or failure of it. -/
  blind : ∀ (actor : AuthenticatedSession) (cursor : Option String) (deadline : ℤ) (w v : Tenant),
    HostBlind env (query.Agrees actor.digest) actor → w.Agree (query.Agrees actor.digest) v →
    ((listAccounts env directory actor query cursor deadline).run w).map Prod.fst =
      ((listAccounts env directory actor query cursor deadline).run v).map Prod.fst
  /-- A field of profiles or departments has a source, wherever it stands. -/
  sourced : ∀ field, query.Uses field → (field.profile = true → query.source.isSome = true) ∧
    (field.ofDepartment = true → ∃ provider, query.source = some (.idp provider))
  /-- A page is given out only after the host admitted the actor to what it shows, in the state it was
  read in and before its window was opened. -/
  admitted : ∀ (actor : AuthenticatedSession) (cursor : Option String) (deadline : ℤ) (w w' : Tenant)
    (page : AccountPage), (listAccounts env directory actor query cursor deadline).run w =
      .ok (page, w') →
    ∃ loaded w₁ opened window w₂ position, (recheck env actor).run w = .ok (loaded, w₁) ∧
      (readWindowOf (query.windowAge env.profileLimits) query.windowSource deadline
        (some (min loaded.view.idleExpiresAt loaded.view.absoluteExpiresAt))).run opened =
          .ok (window, w₂) ∧
      (directory.page env query window.now position w.state).rows.mapM DirectoryRow.read =
        some page.accounts ∧
      HostAdmits env loaded .listAccounts w.state opened.clock ∧
      ∀ field, query.Uses field →
        (field.profile = true → HostAdmits env loaded .readLatestProfile w.state opened.clock) ∧
        (field.ofDepartment = true → HostAdmits env loaded .readLatestDepartments w.state opened.clock)

section Confined

variable {env : Env} {directory : AccountDirectory} {query : AccountQuery} {format : UuidFormat}

theorem AccountQuery.Uses.needsProfiles {field : Field} (h : query.Uses field)
    (hfield : field.profile = true) : query.needsProfiles = true :=
  List.any_eq_true.mpr ⟨field, h.mem_usedFields, hfield⟩

theorem AccountQuery.Uses.needsDepartments {field : Field} (h : query.Uses field)
    (hfield : field.ofDepartment = true) : query.needsDepartments = true :=
  List.any_eq_true.mpr ⟨field, h.mem_usedFields, hfield⟩

/-- A page of a query shows its reader nothing that the query does not ask for, and nothing that the
host did not admit its reader to. -/
theorem directory_confined {filter sort fields source : Option String} {limit : ℕ}
    (hparse : AccountQuery.parse format filter sort fields source limit = .ok query) :
    DirectoryConfined env directory query := by
  have haccepted := AccountQuery.parse_accepted hparse
  refine ⟨fun actor cursor deadline w v hhost h => (listAccounts_blind hhost w v h).answer,
    fun field hfield => ⟨fun hprofile => haccepted.profiles (hfield.needsProfiles hprofile),
      fun hdepartment => haccepted.departments (hfield.needsDepartments hdepartment)⟩, ?_⟩
  intro actor cursor deadline w w' page h
  simp only [listAccounts, Tx.run_bind, Tx.run_require, Tx.run_query, Tx.run_ofExcept, Tx.run_demand,
    Tx.run_clockTimestamp, Tx.run_pure] at h
  obtain ⟨-, _, ⟨-, rfl⟩, loaded, w₁, hrecheck, _, opened, hauthorize, window, w₂, hwindow, position, _,
    ⟨-, rfl⟩, db, _, ⟨rfl, rfl⟩, accounts, _, ⟨haccounts, rfl⟩, instant, _, ⟨rfl, -⟩, -, _, ⟨-, rfl⟩,
    rfl, -⟩ := h
  have hstate : w₁.state = w.state := by
    rw [(run_recheck hrecheck).1]
    rfl
  have hread : id w₂.state = w.state :=
    (run_readWindowOf hwindow).1.trans ((run_authorizeEach hauthorize).1.trans hstate)
  have hadmits := run_authorizeEach_admits hauthorize
  rw [hstate] at hadmits
  rw [hread] at haccounts
  refine ⟨loaded, w₁, opened, window, w₂, position, hrecheck, hwindow, haccounts,
    hadmits _ List.mem_cons_self, fun field hfield => ⟨fun hprofile => hadmits _ ?_, fun hdepartment =>
      hadmits _ ?_⟩⟩
  · simp [AccountQuery.operations, hfield.needsProfiles hprofile]
  · simp [AccountQuery.operations, hfield.needsDepartments hdepartment]

/-- The query that is asked by default. -/
def defaultQuery : AccountQuery where
  filter := none
  sort := [⟨.principalId, false⟩]
  fields := defaultFields
  source := none
  limit := 50

/-- Ada signs in and asks it. -/
def firstPage (env : Env) (directory : AccountDirectory) (key : AccountKey) (login hash : String) :
    Action (AuthenticatedSession × Tenant × AccountPage) := do
  let issued ← firstLogin env key login hash
  let actor ← authenticateSession env (env.sha256.secret issued.secret) .cookie false
  let reached ← Tx.world
  let page ← listAccounts env directory actor defaultQuery none 500000000
  pure (actor, reached, page)

/-- The page is the same where her profile was not observed. -/
theorem defaultQuery_confined : ∃ (actor : AuthenticatedSession) (w : Tenant) (page : AccountPage),
    w.state.profileObservations.rows.length = 1 ∧
      page.accounts.map AccountDirectoryRow.login = [some "ada"] ∧
      ((listAccounts .transparent adasDirectory actor defaultQuery none 500000000).run
        { w with state := { w.state with profileObservations := .empty } }).map Prod.fst = .ok page := by
  have hok : ((firstPage .transparent adasDirectory ⟨Uuid.newV4 0⟩ "ada" "hash").run newTenant
      |>.toOption.map fun found => (found.1.1.checks.isNone,
        found.1.2.1.state.profileObservations.rows.length,
        found.1.2.2.accounts.map AccountDirectoryRow.login)) = some (true, 1, [some "ada"]) := by
    decide +kernel
  obtain ⟨⟨⟨actor, w, page⟩, w'⟩, hsome, hfound⟩ := Option.map_eq_some_iff.mp hok
  simp only [Prod.mk.injEq, Option.isNone_iff_eq_none] at hfound
  obtain ⟨hchecks, hobserved, hlogins⟩ := hfound
  have hrun := eq_ok_of_toOption hsome
  simp only [firstPage, Tx.run_bind, Tx.run_world, Tx.run_pure, Prod.mk.injEq] at hrun
  obtain ⟨_, _, -, _, _, -, _, _, ⟨rfl, rfl⟩, _, _, hlist, ⟨rfl, rfl, rfl⟩, -⟩ := hrun
  have hagree : defaultQuery.Agrees actor.digest w.state
      { w.state with profileObservations := .empty } :=
    ⟨rfl, fun h => absurd h (by decide), fun _ => rfl, rfl, rfl⟩
  have hhost : HostBlind .transparent (defaultQuery.Agrees actor.digest) actor := by
    refine ⟨fun _ _ _ _ => rfl, fun verifier hverifier => ?_, fun verifier hverifier => ?_⟩ <;>
      rw [hchecks] at hverifier <;> cases hverifier
  have hparse : AccountQuery.parse .hyphenated none none none none 50 = .ok defaultQuery := rfl
  have hconfined : DirectoryConfined .transparent adasDirectory defaultQuery := directory_confined hparse
  have hblind := hconfined.blind actor none 500000000 w
    { w with state := { w.state with profileObservations := .empty } } hhost ⟨hagree, rfl, rfl, rfl⟩
  rw [hlist] at hblind
  exact ⟨actor, w, page, hobserved, hlogins, hblind.symm⟩

end Confined

end IdentityAuthority
