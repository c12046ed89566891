import IdentityAuthority.Operations.AccountDirectory
import IdentityAuthority.Relational.Boundary
import IdentityAuthority.Safety.Continuity

/-!
# How long a read is good for

A read tells a generation and a time. While the generation is the same and the time has not come, the
relations that the read was made for are what they were: every write that they could show advances the
generation, and every comparison with the clock in them changes at a boundary that the time keeps
before. The use of a session, which no trigger reports, moves no boundary to before that time.
-/

namespace IdentityAuthority

open Relational Transition

/-- What the use of a session writes to it without a trigger. -/
structure SessionRow.Used (now : ℤ) (row next : SessionRow) : Prop where
  fixed : next = { row with
    idleExpiresAt := next.idleExpiresAt
    tokenHash := next.tokenHash
    profileSource := next.profileSource
    profileSnapshot := next.profileSnapshot }
  idle : row.idleExpiresAt ≤ next.idleExpiresAt
  live : next.idleExpiresAt ≠ row.idleExpiresAt → now < row.idleExpiresAt

/-- A session without what its use writes. -/
def SessionRow.core (row : SessionRow) : SessionRow :=
  { row with idleExpiresAt := 0, tokenHash := ⟨0⟩, profileSource := none, profileSnapshot := none }

/-- The tables that directory reads depend on are what they were, but for the use of sessions. -/
structure Db.Kept (now : ℤ) (db db' : Db) : Prop where
  accounts : db'.accounts = db.accounts
  memberships : db'.memberships = db.memberships
  localCredentials : db'.localCredentials = db.localCredentials
  providers : db'.providers = db.providers
  externalIdentities : db'.externalIdentities = db.externalIdentities
  profileObservations : db'.profileObservations = db.profileObservations
  localProfiles : db'.localProfiles = db.localProfiles
  sessions : List.Forall₂ (SessionRow.Used now) db.sessions.rows db'.sessions.rows

/-- The revision of the personnel tables. -/
def Db.revision (db : Db) : ℤ := db.tenantGuard.personnelRevision

section Kept

variable {now now' : ℤ} {db db' db'' : Db} {row next : SessionRow}

theorem SessionRow.Used.refl (now : ℤ) (row : SessionRow) : row.Used now row :=
  ⟨rfl, le_rfl, fun h => absurd rfl h⟩

theorem SessionRow.Used.trans {a b c : SessionRow} (h : a.Used now b) (h' : b.Used now' c)
    (hnow : now ≤ now') : a.Used now c := by
  refine ⟨?_, h.idle.trans h'.idle, fun hmoved => ?_⟩
  · rw [h'.fixed, h.fixed]
  · by_cases heq : b.idleExpiresAt = a.idleExpiresAt
    · have hlive := h'.live (by rw [heq]; exact hmoved)
      omega
    · exact h.live heq

theorem SessionRow.Used.core_eq (h : row.Used now next) : next.core = row.core := by
  rw [h.fixed]
  rfl

theorem Db.Kept.refl (now : ℤ) (db : Db) : db.Kept now db :=
  ⟨rfl, rfl, rfl, rfl, rfl, rfl, rfl, List.forall₂_same.mpr fun _ _ => .refl _ _⟩

theorem Db.Kept.trans (h : db.Kept now db') (h' : db'.Kept now' db'') (hnow : now ≤ now') :
    db.Kept now db'' where
  accounts := h'.accounts.trans h.accounts
  memberships := h'.memberships.trans h.memberships
  localCredentials := h'.localCredentials.trans h.localCredentials
  providers := h'.providers.trans h.providers
  externalIdentities := h'.externalIdentities.trans h.externalIdentities
  profileObservations := h'.profileObservations.trans h.profileObservations
  localProfiles := h'.localProfiles.trans h.localProfiles
  sessions := by
    have hboth := List.forall₂_iff_get.mp h.sessions
    have hboth' := List.forall₂_iff_get.mp h'.sessions
    refine List.forall₂_iff_get.mpr ⟨hboth.1.trans hboth'.1, fun i hi hi' => ?_⟩
    have hmid : i < db'.sessions.rows.length := hboth.1 ▸ hi
    exact (hboth.2 i hi hmid).trans (hboth'.2 i hmid hi') hnow

theorem Db.Kept.of_directory (h : db'.directory = db.directory) : db.Kept now db' := by
  have hsessions : db'.sessions = db.sessions := congrArg Directory.sessions h
  refine ⟨congrArg Directory.accounts h, congrArg Directory.memberships h,
    congrArg Directory.localCredentials h, congrArg Directory.providers h,
    congrArg Directory.externalIdentities h, congrArg Directory.profileObservations h,
    congrArg Directory.localProfiles h, ?_⟩
  rw [hsessions]
  exact (Db.Kept.refl now db).sessions

theorem Db.Kept.core_eq (h : db.Kept now db') :
    db'.sessions.rows.map SessionRow.core = db.sessions.rows.map SessionRow.core := by
  have hrows := h.sessions
  generalize db.sessions.rows = rows at hrows ⊢
  generalize db'.sessions.rows = rows' at hrows ⊢
  induction hrows with
  | nil => rfl
  | cons hused _ ih => rw [List.map_cons, List.map_cons, hused.core_eq, ih]

end Kept

section Runs

variable {env : Env} {start w w' : Tenant} {a : Area} {db : Db}

theorem SessionRow.Renews.used {row next : SessionRow} (h : row.Renews env start w next) :
    row.Used (seconds w.clock) next := by
  have hsource : next.profileSource = row.profileSource := by rw [h.tracked]
  have hsnapshot : next.profileSnapshot = row.profileSnapshot := by rw [h.tracked]
  refine ⟨?_, h.idle, fun hmoved => (h.live hmoved).2.1⟩
  rw [hsource, hsnapshot]
  exact h.tracked

theorem SessionRow.Binds.used {now : ℤ} {row next : SessionRow} (h : row.Binds next) :
    row.Used now next := by
  have hidle : next.idleExpiresAt = row.idleExpiresAt := by rw [h]
  have hdigest : next.tokenHash = row.tokenHash := by rw [h]
  refine ⟨?_, hidle.ge, fun hmoved => absurd hidle hmoved⟩
  rw [hidle, hdigest]
  exact h

/-- Rows that are rewritten are used where their rewriting is a use. -/
theorem used_of_rewritten {now : ℤ} {S : SessionRow → SessionRow → Prop} {t t' : Table SessionRow}
    {n : ℕ} (h : t.Rewritten S n t') (hS : ∀ row next, S row next → row.Used now next) :
    List.Forall₂ (SessionRow.Used now) t.rows t'.rows := by
  refine h.rows.imp fun row next hrow => ?_
  rcases hrow with rfl | hrow
  · exact .refl _ _
  · exact hS row next hrow

/-- What a statement leaves at the same revision is what it found, but for the use of sessions. -/
theorem Effect.kept (h : Effect env start w a db) (hrevision : db.revision = w.state.revision) :
    w.state.Kept (seconds w.clock) db := by
  by_cases hd : a.ofDirectory = false
  · exact .of_directory (h.directory_eq hd)
  · have hrefl := Db.Kept.refl (seconds w.clock) w.state
    -- A trigger that counts no row was fired by a statement that touched none.
    have hnone : ∀ n : ℕ, w.state.revision + n = w.state.revision → n = 0 := fun n h => by omega
    cases h with
    | accountInserted => exact absurd (hnone _ hrevision) (by decide)
    | membershipInserted => exact absurd (hnone _ hrevision) (by decide)
    | credentialInserted => exact absurd (hnone _ hrevision) (by decide)
    | providerInserted => exact absurd (hnone _ hrevision) (by decide)
    | identityInserted => exact absurd (hnone _ hrevision) (by decide)
    | sessionInserted => exact absurd (hnone _ hrevision) (by decide)
    | observationInserted => exact absurd (hnone _ hrevision) (by decide)
    | localProfileInserted => exact absurd (hnone _ hrevision) (by decide)
    | accountsUpdated ht => exact { hrefl with accounts := ht.untouched (hnone _ hrevision) }
    | membershipsUpdated ht => exact { hrefl with memberships := ht.untouched (hnone _ hrevision) }
    | credentialsUpdated ht => exact { hrefl with localCredentials := ht (hnone _ hrevision) }
    | providersUpdated ht => exact { hrefl with providers := ht.untouched (hnone _ hrevision) }
    | credentialsSealed => exact { hrefl with }
    | observationsUpdated ht =>
      exact { hrefl with profileObservations := ht.untouched (hnone _ hrevision) }
    | localProfilesUpdated ht =>
      exact { hrefl with localProfiles := ht.untouched (hnone _ hrevision) }
    | sessionsClosed ht =>
      obtain rfl := ht.untouched (hnone _ hrevision)
      exact { hrefl with }
    | sessionsRenewed ht =>
      exact { hrefl with sessions := used_of_rewritten ht fun _ _ h => h.used }
    | sessionsBound ht =>
      exact { hrefl with sessions := used_of_rewritten ht fun _ _ h => h.used }
    | _ => exact absurd rfl hd

/-- What a transaction leaves at the same revision is what it found, but for the use of sessions. -/
theorem Effects.kept {areas : List Area} (h : Effects env areas start w w')
    (hrevision : w'.state.revision = w.state.revision) :
    w.state.Kept (seconds w.clock) w'.state := by
  induction h with
  | refl => exact .refl _ _
  | @tail w₁ w₂ hbefore hmove ih =>
    have hearlier : w.state.revision ≤ w₁.state.revision := (Effects.follows hbefore).revision
    have hclock := seconds_mono (Effects.follows hbefore).advances.clock
    have hlater : Follows w₁ w₂ := (Effects.follows (.single hmove))
    have hle : w₁.state.revision ≤ w₂.state.revision := hlater.revision
    have hsame : w₁.state.revision = w.state.revision := by omega
    refine (ih hsame).trans ?_ hclock
    rcases hmove with ⟨hstate, -⟩ | ⟨-, heffect⟩
    · exact .of_directory (by rw [hstate])
    · exact heffect.kept (hrevision.trans hsame.symm)

variable {s s' : System env} {trace : List (Event (System env) (Label env))}

/-- In a run that ends at the revision it began with, nothing was written that a directory read
could show, but for the use of sessions. -/
theorem kept_of_run (hrun : Run (Step env) s trace s')
    (hrevision : s'.world.state.revision = s.world.state.revision) :
    s.world.state.Kept (seconds s.world.clock) s'.world.state := by
  induction hrun with
  | start => exact .refl _ _
  | step hbefore hstep ih =>
    have hfirst := follows_of_run hbefore
    have hle : s.world.state.revision ≤ _ := hfirst.revision
    have hle' : _ ≤ _ := hstep.follows.revision
    simp only [Db.revision] at hrevision hle
    obtain ⟨areas, heffects⟩ := hstep.effects
    have hsame := le_antisymm (hle'.trans hrevision.le) hle
    exact (ih hsame).trans (heffects.kept (hrevision.trans hsame.symm))
      (seconds_mono hfirst.advances.clock)

end Runs

/-- No comparison of the relations with the clock comes out differently at a later time: the ends of
sessions, of observations and of the departments of a source. -/
structure Db.Steady (db : Db) (maxAge : Option ℤ) (departments : Option ProfileSource) (now t : ℤ) :
    Prop where
  le : now ≤ t
  idle : ∀ s ∈ db.sessions, s.revokedAt = none → now < s.idleExpiresAt → t < s.idleExpiresAt
  absolute : ∀ s ∈ db.sessions, s.revokedAt = none →
    now < s.absoluteExpiresAt → t < s.absoluteExpiresAt
  expires : ∀ age ∈ maxAge, ∀ o ∈ db.profileObservations, now < o.expiresAt → t < o.expiresAt
  ages : ∀ age ∈ maxAge, ∀ o ∈ db.profileObservations,
    now < o.observedAt + age → t < o.observedAt + age
  departments : ∀ source ∈ departments, ∀ d ∈ latestDepartments db (some source),
    ∀ b ∈ d.boundaries, now < b → t < b

section Steady

variable {db db' : Db} {maxAge : Option ℤ} {departments : Option ProfileSource} {now t : ℤ}
  {actorUntil : Option ℤ}

/-- A time before the end of a window is before each boundary that bounds it. -/
theorem lt_ends (h : t < relationsUntil db maxAge departments now actorUntil) :
    (∀ o ∈ sessionEnds db now, ∀ b ∈ o, t < b) ∧
      (∀ age ∈ maxAge, ∀ o ∈ observationEnds db age now, ∀ b ∈ o, t < b) ∧
      ∀ source ∈ departments, ∀ b ∈ departmentUntil db source now, t < b := by
  have hnext : ∀ m ∈ least [least (sessionEnds db now ++
      maxAge.elim [] fun age => observationEnds db age now),
        departments.bind fun source => departmentUntil db source now], t < m := by
    rintro m hm
    simp only [relationsUntil, Option.mem_def.mp hm, Option.getD_some] at h
    omega
  rw [lt_least] at hnext
  have hrelations := lt_least.mp (hnext _ List.mem_cons_self)
  refine ⟨fun o ho => hrelations o (List.mem_append_left _ ho), ?_, ?_⟩
  · rintro age rfl o ho
    exact hrelations o (List.mem_append_right _ ho)
  · rintro source rfl b hb
    exact hnext _ (List.mem_cons_of_mem _ List.mem_cons_self) b hb

/-- Before the end of a window nothing that it is for changes with the clock. -/
theorem steady_of_window (h : t < relationsUntil db maxAge departments now actorUntil)
    (hle : now ≤ t) : db.Steady maxAge departments now t := by
  obtain ⟨hsessions, hobservations, hdepartments⟩ := lt_ends h
  have hlive : ∀ (f : SessionRow → ℤ), (∀ m ∈ nextBoundary
      ((db.sessions.rows.filter fun s => decide (s.revokedAt = none)).map f) now, t < m) →
      ∀ s ∈ db.sessions, s.revokedAt = none → now < f s → t < f s := by
    intro f hf s hs hunrevoked hnow
    refine lt_of_nextBoundary (List.mem_map_of_mem (List.mem_filter.mpr ⟨hs, ?_⟩)) hf hnow
    exact decide_eq_true hunrevoked
  refine ⟨hle, hlive _ ?_, hlive _ ?_, ?_, ?_, ?_⟩
  · rw [nextBoundary, List.filter_map]
    exact hsessions _ List.mem_cons_self
  · rw [nextBoundary, List.filter_map]
    exact hsessions _ (List.mem_cons_of_mem _ List.mem_cons_self)
  · intro age hage o ho hnow
    have hends := hobservations age hage _ List.mem_cons_self
    have hmem := List.mem_map_of_mem (f := ProfileObservationRow.expiresAt) (Table.mem_rows.mpr ho)
    refine lt_of_nextBoundary hmem ?_ hnow
    rw [nextBoundary, List.filter_map]
    exact hends
  · intro age hage o ho hnow
    have hends := hobservations age hage _ (List.mem_cons_of_mem _ List.mem_cons_self)
    have hyoung : o ∈ db.profileObservations.rows.filter fun o =>
        decide (now - age < o.observedAt) :=
      List.mem_filter.mpr ⟨ho, decide_eq_true (by omega)⟩
    obtain ⟨m, hm, hmle⟩ := min?_le (List.mem_map_of_mem (f := ProfileObservationRow.observedAt)
      hyoung)
    have hbefore := hends (m + age) (Option.map_eq_some_iff.mpr ⟨m, hm, rfl⟩)
    omega
  · intro source hsource d hd b hb hnow
    have hmem : b ∈ (latestDepartments db (some source)).flatMap DepartmentObservation.boundaries :=
      List.mem_flatMap.mpr ⟨d, hd, hb⟩
    exact lt_of_nextBoundary hmem (hdepartments source hsource) hnow

/-- The same session references are listed, from sessions that were used in between. -/
theorem references_steady (hkept : db.Kept now db') (hsteady : db.Steady maxAge departments now t)
    (terms : ReferenceTerms) :
    ({ terms with now := now } : ReferenceTerms).relation db =
      ({ terms with now := t } : ReferenceTerms).relation db' := by
  refine flatMap_of_forall₂ hkept.sessions fun s hs next hused => ?_
  have hidle : s.revokedAt = none → (now < s.idleExpiresAt ↔ t < next.idleExpiresAt) := by
    intro hunrevoked
    have hcoming := hsteady.idle s hs hunrevoked
    have hmoved := hused.live
    have hle := hused.idle
    have hlater := hsteady.le
    constructor
    · intro hnow
      have := hcoming hnow
      omega
    · intro ht
      by_contra hno
      have hsame : next.idleExpiresAt = s.idleExpiresAt := by
        by_contra hne
        exact hno (hmoved hne)
      omega
  have habsolute : s.revokedAt = none → (now < s.absoluteExpiresAt ↔ t < s.absoluteExpiresAt) :=
    fun hunrevoked => lt_iff_of_steady hsteady.le (hsteady.absolute s hs hunrevoked)
  have hcurrent : ∀ a m, ({ terms with now := now } : ReferenceTerms).current db s a m =
      ({ terms with now := t } : ReferenceTerms).current db' next a m := by
    intro a m
    have hoidc : ReferenceTerms.oidcCurrent db s = ReferenceTerms.oidcCurrent db' next := by
      simp only [ReferenceTerms.oidcCurrent, hkept.externalIdentities, hkept.providers]
      rw [hused.fixed]
    have hplatform : ({ terms with now := now } : ReferenceTerms).platformCurrent db s =
        ({ terms with now := t } : ReferenceTerms).platformCurrent db' next := by
      have hbinding : ReferenceTerms.bindingCurrent db = ReferenceTerms.bindingCurrent db' := by
        funext principal named
        simp only [ReferenceTerms.bindingCurrent, hkept.externalIdentities, hkept.providers]
      simp only [ReferenceTerms.platformCurrent, hbinding]
      rw [hused.fixed]
    have hrest : next.authEpoch = s.authEpoch ∧ next.membershipEpoch = s.membershipEpoch ∧
        next.revokedAt = s.revokedAt ∧ next.absoluteExpiresAt = s.absoluteExpiresAt ∧
        next.authenticationSource = s.authenticationSource := by
      rw [hused.fixed]
      exact ⟨rfl, rfl, rfl, rfl, rfl⟩
    obtain ⟨hauth, hmembership, hrevoked, habs, hsource⟩ := hrest
    simp only [ReferenceTerms.current, hoidc, hplatform, hauth, hmembership, hrevoked, habs, hsource]
    congr 1
    by_cases hunrevoked : s.revokedAt = none
    · simp only [hidle hunrevoked, habsolute hunrevoked]
    · simp [hunrevoked]
  have hprincipal : next.principal = s.principal := by rw [hused.fixed]
  have hrow : ({ terms with now := now } : ReferenceTerms).row s =
      ({ terms with now := t } : ReferenceTerms).row next := by
    rw [hused.fixed]
    rfl
  simp only [ReferenceTerms.rows, hkept.accounts, hkept.memberships, hprincipal, hrow]
  simp only [hcurrent]

/-- An observation is over at both times or at neither. -/
theorem ends_steady {o : ProfileObservationRow} {age : ℤ} (ho : o ∈ db.profileObservations)
    (hage : maxAge = some age) (hsteady : db.Steady maxAge departments now t) :
    min o.expiresAt (o.observedAt + age) ≤ now ↔ min o.expiresAt (o.observedAt + age) ≤ t := by
  have hexpires := le_iff_of_steady hsteady.le (hsteady.expires age hage o ho)
  have hages := le_iff_of_steady hsteady.le (hsteady.ages age hage o ho)
  rw [min_le_iff, min_le_iff, hexpires, hages]

/-- The personnel relation is the same, for any terms with the age that the window is for. -/
theorem personnel_steady (hkept : db.Kept now db') (hsteady : db.Steady maxAge departments now t)
    (terms : PersonnelTerms) (hage : maxAge = some terms.maxAge) :
    ({ terms with now := now } : PersonnelTerms).relation db =
      ({ terms with now := t } : PersonnelTerms).relation db' := by
  have hagree : ({ terms with now := t } : PersonnelTerms).Agree db' db :=
    ⟨hkept.accounts, hkept.memberships, hkept.providers, hkept.externalIdentities,
      fun _ => hkept.localCredentials, fun _ _ => by rw [hkept.profileObservations]⟩
  rw [relation_congr hagree]
  unfold PersonnelTerms.relation
  have hjoined : ({ terms with now := t } : PersonnelTerms).joined db =
      ({ terms with now := now } : PersonnelTerms).joined db := rfl
  rw [hjoined]
  refine List.map_congr_left fun j hj => ?_
  have hover : ∀ o ∈ j.o, (min o.expiresAt (o.observedAt + terms.maxAge) ≤ now ↔
      min o.expiresAt (o.observedAt + terms.maxAge) ≤ t) := fun o ho =>
    ends_steady ((mem_joined hj).2 o ho).1 hage hsteady
  have hexpired : Truth.compare (fun e n => decide (e ≤ n)) (terms.ends j) (some now) =
      Truth.compare (fun e n => decide (e ≤ n)) (terms.ends j) (some t) := by
    cases ho : j.o with
    | none => simp [PersonnelTerms.ends, ho, Truth.compare]
    | some o =>
      simp only [PersonnelTerms.ends, ho, Option.map_some, Truth.compare,
        decide_eq_decide.mpr (hover o ho)]
  have hlive : Truth.compare (fun e n => decide (n < e)) (terms.ends j) (some now) =
      Truth.compare (fun e n => decide (n < e)) (terms.ends j) (some t) := by
    cases ho : j.o with
    | none => simp [PersonnelTerms.ends, ho, Truth.compare]
    | some o =>
      have hnot := not_congr (hover o ho)
      rw [not_le, not_le] at hnot
      simp only [PersonnelTerms.ends, ho, Option.map_some, Truth.compare, decide_eq_decide.mpr hnot]
  have hstatus : ({ terms with now := now } : PersonnelTerms).status db j =
      ({ terms with now := t } : PersonnelTerms).status db j := by
    change (if _ then _ else if _ then _ else
      if (Truth.compare _ (terms.ends j) (some now)).holds then _ else _) = _
    rw [hexpired]
    rfl
  have hshown : ∀ pick, ({ terms with now := now } : PersonnelTerms).shown db pick j =
      ({ terms with now := t } : PersonnelTerms).shown db pick j := by
    intro pick
    change (if ((((_ : Truth).and _).and (Truth.compare _ (terms.ends j) (some now))).and _ |>.and
      _).holds then _ else _) = _
    rw [hlive]
    rfl
  simp only [PersonnelTerms.row, hstatus, hshown]
  rfl

/-- A joined row without what the use of a session writes. -/
def DirectoryJoin.core (j : DirectoryJoin) : DirectoryJoin := { j with ds := j.ds.map SessionRow.core }

section Core

variable {terms : DirectoryTerms} {uuids : UuidFormat} {j : DirectoryJoin}

theorem row_core : terms.row db uuids j.core = terms.row db uuids j := by
  obtain ⟨joined, ds, de, dp⟩ := j
  cases ds <;> rfl

theorem sourced_core (db : Db) (source : Option ProfileSource) :
    (sourced db source).map SessionRow.core = (db.sessions.rows.map SessionRow.core).flatMap fun s =>
      (db.externalIdentities.rows.filter fun e => decide (some e.identity = s.externalIdentity ∧
        some (.idp e.provider) = source)).map fun _ => s := by
  unfold sourced
  rw [List.map_flatMap, List.flatMap_map]
  refine List.flatMap_congr fun s _ => ?_
  rw [List.map_map]
  rfl

/-- The latest login is found by what its use does not write. -/
theorem latestSourced_core (hkept : db.Kept now db') (source : Option ProfileSource)
    (principal : PrincipalId) : (latestSourced db' source principal).map SessionRow.core =
      (latestSourced db source principal).map SessionRow.core := by
  have hfirst : ∀ d : Db, (latestSourced d source principal).map SessionRow.core =
      (((sourced d source).map SessionRow.core).filter fun s =>
        decide (s.principal = principal)).argmin SessionRow.recency := by
    intro d
    rw [List.filter_map, argmin_map]
    rfl
  rw [hfirst, hfirst, sourced_core, sourced_core, hkept.core_eq, hkept.externalIdentities]

theorem login_core (hkept : db.Kept now db') (principal : PrincipalId) :
    (terms.login db' principal).map SessionRow.core =
      (terms.login db principal).map SessionRow.core := by
  unfold DirectoryTerms.login
  split
  · exact latestSourced_core hkept _ _
  · rfl

theorem identityOf_core (db : Db) (principal : PrincipalId) (ds : Option SessionRow) :
    identityOf db principal (ds.map SessionRow.core) = identityOf db principal ds := by
  cases ds <;> rfl

/-- The joined rows are the same, but for the use of sessions. -/
theorem directoryJoined_core (hkept : db.Kept now db') :
    (terms.joined db').map DirectoryJoin.core = (terms.joined db).map DirectoryJoin.core := by
  rw [directoryJoined_eq, directoryJoined_eq, List.map_flatMap, List.map_flatMap, hkept.accounts,
    hkept.memberships]
  refine List.flatMap_congr fun a _ => ?_
  rw [List.map_map, List.map_map]
  refine List.map_congr_left fun m _ => ?_
  have hobservation : terms.observation db' a.principal = terms.observation db a.principal := by
    rw [DirectoryTerms.observation, DirectoryTerms.observation, hkept.profileObservations]
  have hidentity : identityOf db' a.principal (terms.login db' a.principal) =
      identityOf db a.principal (terms.login db a.principal) := by
    rw [← identityOf_core db', ← identityOf_core db, login_core hkept, identityOf, identityOf,
      hkept.externalIdentities]
  simp only [Function.comp_apply, DirectoryTerms.join, DirectoryJoin.core, hobservation, hidentity,
    login_core hkept, hkept.providers, hkept.localCredentials]

/-- Whether an observation is shown is the same at both times. -/
theorem profileStatus_steady (hsteady : db.Steady maxAge departments now t)
    (hpast : ∀ o ∈ db.profileObservations, o.observedAt ≤ now)
    (hj : j ∈ ({ terms with now := now } : DirectoryTerms).joined db)
    (hage : terms.profiles = true → maxAge = some terms.maxAge) :
    ({ terms with now := now } : DirectoryTerms).profileStatus db j =
      ({ terms with now := t } : DirectoryTerms).profileStatus db j := by
  cases hprofiles : terms.profiles with
  | false => simp only [DirectoryTerms.profileStatus, if_true]
  | true =>
    obtain ⟨a, m, -, -, rfl⟩ := mem_directoryJoined.mp hj
    cases ho : terms.observation db a.principal with
    | none =>
      have hnone : (DirectoryTerms.join { terms with now := now } db a m).o = none := ho
      simp only [DirectoryTerms.profileStatus, hnone, Option.isNone_none, if_true]
    | some o =>
      have hsome : (DirectoryTerms.join { terms with now := now } db a m).o = some o := ho
      have hstored : o ∈ db.profileObservations := by
        obtain ⟨source, -, hfound⟩ := Option.bind_eq_some_iff.mp ho
        exact Table.mem_of_find? hfound
      have hseen := hpast o hstored
      have hlater := hsteady.le
      have hover := ends_steady hstored (hage hprofiles) hsteady
      simp only [DirectoryTerms.profileStatus, DirectoryTerms.ends, hsome, Option.map_some,
        Truth.compare, Truth.holds_some, decide_eq_decide.mpr hover,
        decide_eq_false (not_lt.mpr hseen), decide_eq_false (not_lt.mpr (hseen.trans hlater))]

/-- What is said of a department is the same at both times. -/
theorem departmentStatus_steady (hsteady : db.Steady maxAge departments now t)
    (hj : j ∈ ({ terms with now := now } : DirectoryTerms).joined db)
    (hsource : terms.departments = true → departments = terms.source) :
    ({ terms with now := now } : DirectoryTerms).departmentStatus j =
      ({ terms with now := t } : DirectoryTerms).departmentStatus j := by
  cases hdepartments : terms.departments with
  | false => simp only [DirectoryTerms.departmentStatus, true_or, if_true]
  | true =>
    cases hfacts : j.ds.bind SessionRow.authFacts with
    | none => simp only [DirectoryTerms.departmentStatus, hfacts]
    | some facts =>
      cases hsnapshot : facts.departmentSnapshot with
      | unavailable reason => simp only [DirectoryTerms.departmentStatus, hfacts, hsnapshot]
      | available snapshotId observedAt expiresAt snapshot =>
        obtain ⟨s, hs, hstored⟩ := Option.bind_eq_some_iff.mp hfacts
        obtain ⟨a, m, -, -, rfl⟩ := mem_directoryJoined.mp hj
        have hlatest : latestSourced db terms.source a.principal = some s := by
          have hlogin : DirectoryTerms.login { terms with now := now } db a.principal = some s := hs
          rw [DirectoryTerms.login, if_pos hdepartments] at hlogin
          exact hlogin
        have hmem := (List.mem_filter.mp (List.argmin_mem hlatest))
        -- A source that nothing is asked of has no login.
        obtain ⟨source, hsome⟩ : ∃ source, terms.source = some source := by
          obtain ⟨r, -, hr⟩ := List.mem_flatMap.mp hmem.1
          obtain ⟨e, he, -⟩ := List.mem_map.mp hr
          exact ⟨_, (of_decide_eq_true (List.mem_filter.mp he).2).2.symm⟩
        have hlisted : facts.departmentSnapshot ∈ latestDepartments db (some source) := by
          rw [← hsome]
          refine List.mem_filterMap.mpr ⟨a.principal, List.mem_dedup.mpr ?_, ?_⟩
          · exact List.mem_map.mpr ⟨s, hmem.1, of_decide_eq_true hmem.2⟩
          · rw [hlatest, Option.bind_some, hstored, Option.map_some]
        have hboundary := hsteady.departments source ((hsource hdepartments).trans hsome) _ hlisted
        rw [hsnapshot] at hboundary
        have hobserved := lt_iff_of_steady hsteady.le (hboundary observedAt List.mem_cons_self)
        have hexpires := le_iff_of_steady hsteady.le
          (hboundary expiresAt (List.mem_cons_of_mem _ List.mem_cons_self))
        simp only [DirectoryTerms.departmentStatus, hfacts, hsnapshot, hobserved, hexpires]

/-- The rows of the directory are the same, where the window is for the columns that are asked. -/
theorem directory_steady (hkept : db.Kept now db') (hsteady : db.Steady maxAge departments now t)
    (hpast : ∀ o ∈ db.profileObservations, o.observedAt ≤ now)
    (hage : terms.profiles = true → maxAge = some terms.maxAge)
    (hsource : terms.departments = true → departments = terms.source) :
    ({ terms with now := now } : DirectoryTerms).relation db uuids =
      ({ terms with now := t } : DirectoryTerms).relation db' uuids := by
  have hrows : ∀ (terms : DirectoryTerms) (d : Db), terms.relation d uuids =
      ((terms.joined d).map DirectoryJoin.core).map (terms.row d uuids) := by
    intro terms d
    rw [List.map_map]
    exact List.map_congr_left fun j _ => row_core.symm
  have hrow : ∀ j, ({ terms with now := t } : DirectoryTerms).row db' uuids j =
      ({ terms with now := t } : DirectoryTerms).row db uuids j := by
    intro j
    have hlinked : PersonnelTerms.linked db' j.toPersonnelJoin =
        PersonnelTerms.linked db j.toPersonnelJoin := by
      simp only [PersonnelTerms.linked, hkept.externalIdentities]
    simp only [DirectoryTerms.row, DirectoryTerms.shown, DirectoryTerms.profileStatus,
      PersonnelTerms.asObserved, hlinked]
  rw [hrows _ db', directoryJoined_core hkept, List.map_map, List.map_congr_left fun j _ => by
    rw [Function.comp_apply, hrow, row_core]]
  refine List.map_congr_left fun j hj => ?_
  have hprofile := profileStatus_steady hsteady hpast hj hage
  have hdepartment := departmentStatus_steady hsteady hj hsource
  simp only [DirectoryTerms.row, DirectoryTerms.shown, DirectoryTerms.departmentSnapshot, hprofile,
    hdepartment]

end Core

end Steady

section Reads

variable {env : Env} {w w' : Tenant}

/-- No observation is of a time that has not come. -/
theorem observed_of_run {s₀ s : System env} {trace : List (Event (System env) (Label env))}
    (hstart : s₀.Provisioned) (hrun : Run (Step env) s₀ trace s) :
    ∀ o ∈ s.world.state.profileObservations, o.observedAt ≤ seconds s.world.clock := by
  refine invariant_of_run
    (fun w => ∀ o ∈ w.state.profileObservations, o.observedAt ≤ seconds w.clock) hstart hrun ?_ ?_ ?_
  · intro w hw o ho
    rw [hw] at ho
    exact absurd ho Table.not_mem_empty
  · intro w w' hinv hstate hadvances o ho
    rw [hstate] at ho
    exact (hinv o ho).trans (seconds_mono hadvances.clock)
  · intro start w a db _ hinv heffect o ho
    by_cases ha : a = .profiles
    · subst ha
      cases heffect with
      | observationInserted hfresh ht =>
        rcases (Table.mem_insert ht).mp ho with rfl | hold
        · exact hfresh.accepted.observed
        · exact hinv o hold
      | observationsUpdated ht =>
        obtain ⟨old, hold, rfl | hreplaces⟩ := ht.exists_before ho
        · exact hinv o hold
        · exact hreplaces.fresh.accepted.observed
    · rw [heffect.profileObservations_eq ha] at ho
      exact hinv o ho

/-- A sample leaves the state as it is, and tells its revision, a time that has come, and how long
what is read is good for. -/
theorem run_readWindowOf {maxAge : Option ℤ} {departments : Option ProfileSource} {expires : ℤ}
    {actorUntil : Option ℤ} {window : PersonnelWindow}
    (h : (readWindowOf maxAge departments expires actorUntil).run w = .ok (window, w')) :
    w'.state = w.state ∧ w'.clock = w.tick.tick.clock ∧
      window.generation = w.state.revision ∧ window.now = seconds w'.clock ∧
      window.validUntil = relationsUntil w.state maxAge departments window.now actorUntil := by
  simp only [readWindowOf, Tx.run_bind, Tx.run_clockTimestamp, Tx.run_query, Tx.run_pure] at h
  obtain ⟨_, _, ⟨rfl, rfl⟩, _, _, ⟨rfl, rfl⟩, _, _, ⟨rfl, rfl⟩, rfl, rfl⟩ := h
  exact ⟨rfl, rfl, rfl, rfl, rfl⟩

end Reads

/-- What a read is good for, until another time and in another state: the relations that its window
is for are the same. -/
structure SameRelations (maxAge : Option ℤ) (departments : Option ProfileSource) (now t : ℤ)
    (db db' : Db) : Prop where
  /-- The sessions that are in force, to any deployment. -/
  references : ∀ terms : ReferenceTerms, ({ terms with now := now } : ReferenceTerms).relation db =
    ({ terms with now := t } : ReferenceTerms).relation db'
  /-- Where the window is for observations, what a host is shown of the accounts. -/
  personnel : ∀ terms : PersonnelTerms, maxAge = some terms.maxAge →
    ({ terms with now := now } : PersonnelTerms).relation db =
      ({ terms with now := t } : PersonnelTerms).relation db'
  /-- The rows of the account directory, with the columns that the window is for. -/
  directory : ∀ (terms : DirectoryTerms) (uuids : UuidFormat),
    (terms.profiles = true → maxAge = some terms.maxAge) →
    (terms.departments = true → departments = terms.source) →
    ({ terms with now := now } : DirectoryTerms).relation db uuids =
      ({ terms with now := t } : DirectoryTerms).relation db' uuids

/-- Validity windows are sound: in every run after a read of a state that was reached, while the
generation is the one that was read and until the time that was told, every relation the window was
opened for is what it was. -/
theorem windows_sound {env : Env} {s₀ s s' : System env} {w : Tenant} {maxAge : Option ℤ}
    {departments : Option ProfileSource} {expires t : ℤ} {actorUntil : Option ℤ}
    {window : PersonnelWindow} {trace₀ trace : List (Event (System env) (Label env))}
    (hstart : s₀.Provisioned) (hreached : Run (Step env) s₀ trace₀ s)
    (hread : (readWindowOf maxAge departments expires actorUntil).run s.world = .ok (window, w))
    (hrun : Run (Step env) ⟨w, s.held⟩ trace s')
    (hgeneration : s'.world.state.revision = window.generation)
    (hfrom : window.now ≤ t) (huntil : t < window.validUntil) :
    SameRelations maxAge departments window.now t s.world.state s'.world.state := by
  obtain ⟨hstate, hclock, hrevision, hnow, hvalid⟩ := run_readWindowOf hread
  have hkept : s.world.state.Kept window.now s'.world.state := by
    have hkept := kept_of_run hrun (by rw [hgeneration, hrevision, hstate])
    rw [hstate, ← hnow] at hkept
    exact hkept
  rw [hvalid] at huntil
  have hsteady := steady_of_window huntil hfrom
  have hpast : ∀ o ∈ s.world.state.profileObservations, o.observedAt ≤ window.now := by
    intro o ho
    have hadvances : s.world.clock ≤ w.clock :=
      (Tx.advances _ _ _ _ hread).clock
    exact (observed_of_run hstart hreached o ho).trans (hnow ▸ seconds_mono hadvances)
  exact ⟨references_steady hkept hsteady, fun terms hage => personnel_steady hkept hsteady terms hage,
    fun terms uuids hage hsource => directory_steady hkept hsteady hpast hage hsource⟩

/-- Ada has signed in and her tenant is read, with profiles and departments: half a minute later every
relation is what it was. -/
theorem ada_window_sound : ∃ (s s' : System .transparent) (window : PersonnelWindow),
    s.world.state.sessions.rows.length = 1 ∧ s.world.clock + 30000000 < s'.world.clock ∧
      SameRelations (some 60) (some .identityLocal) window.now (window.now + 30) s.world.state
        s'.world.state := by
  obtain ⟨trace₀, held, hreached⟩ := signedIn_reachable
  let opened := (readWindowOf (some 60) (some .identityLocal) 500000000 none).run signedInWorld
  have hok : (match opened with
    | .ok (window, w) => decide (w.state.revision = window.generation ∧
        window.now + 30 < window.validUntil ∧ signedInWorld.clock ≤ w.clock)
    | .error _ => false) = true := by decide +kernel
  cases hread : opened with
  | error => simp [hread] at hok
  | ok read =>
    obtain ⟨window, w⟩ := read
    simp only [hread, decide_eq_true_eq] at hok
    obtain ⟨hgeneration, huntil, hclock⟩ := hok
    let later : Tenant := { w with clock := w.clock + 30000001 }
    have hadvances : w.Advances later := ⟨by simp [later], le_rfl⟩
    have hrun : Run (Step .transparent) ⟨w, held⟩ [⟨_, .elapse, _⟩] ⟨later, held⟩ :=
      Run.start.step (.elapse rfl hadvances)
    have hsession : signedInWorld.state.sessions.rows.length = 1 := by decide +kernel
    refine ⟨⟨signedInWorld, held⟩, ⟨later, held⟩, window, hsession, ?_, ?_⟩
    · show signedInWorld.clock + 30000000 < w.clock + 30000001
      omega
    · exact windows_sound ⟨rfl, rfl⟩ hreached hread hrun hgeneration (by omega) huntil

end IdentityAuthority
