import IdentityAuthority.Operations.AccountRows
import IdentityAuthority.Safety.Windows

/-!
# One status of an observation

Whether an observation may be shown is decided three times: by a read of the latest profile, by the
account directory and by the relation of a host. The read goes from check to check, the relations are
cases over columns that may be missing, and in every state reached they come to the same status.
-/

namespace IdentityAuthority

open Relational Transition

section Status

variable {db : Db} {row : ProfileObservationRow}

/-- The source of an observation is as it was observed. -/
def Db.stillObserves (db : Db) (row : ProfileObservationRow) : Bool :=
  match row.source with
  | .identityLocal => true
  | .idp id => (db.providers.find? id).any fun p =>
    p.enabled && decide (some p.configVersion = row.configVersion) &&
      decide (some p.revocationEpoch = row.sourceEpoch) &&
      db.externalIdentities.any fun e => decide (e.principal = row.principal ∧ e.provider = id)

/-- The provider of an observation, if it has one, is there. -/
def Db.knowsSource (db : Db) (row : ProfileObservationRow) : Prop :=
  ∀ id, row.source = .idp id → ∃ p, db.providers.find? id = some p

/-- The status of an observation, or of none, at a time. -/
def Db.observedStatus (db : Db) (maxAge now : ℤ) : Option ProfileObservationRow → ProfileStatus
  | none => .missing
  | some row =>
    if db.stillObserves row = false then .unavailable
    else if min row.expiresAt (row.observedAt + maxAge) ≤ now then .expired
    else .available

variable {j : PersonnelJoin}

/-- What the columns of a local observation say of its source. -/
theorem local_columns (hsource : row.source = .identityLocal) (ho : j.o = some row) :
    PersonnelTerms.isLocal j = some true ∧ db.stillObserves row = true := by
  simp [PersonnelTerms.isLocal, ho, hsource, Db.stillObserves]

/-- What the columns of an upstream observation say of its source: nothing is missing where the
provider is there. -/
theorem upstream_asObserved {id : ProviderId} (hchecked : row.Checked) (hsource : row.source = .idp id)
    (ho : j.o = some row) (hp : j.p = row.provider.bind db.providers.find?) :
    PersonnelTerms.isLocal j = some false ∧
      (PersonnelTerms.asObserved db j).holds = db.stillObserves row ∧
      ((∃ p, db.providers.find? id = some p) →
        PersonnelTerms.asObserved db j = some (db.stillObserves row)) := by
  have hcolumns := hchecked.source
  simp only [ProfileObservationRow.SourceColumns, hsource] at hcolumns
  obtain ⟨hprovider, ⟨version, hversion, -⟩, ⟨epoch, hepoch, -⟩, -⟩ := hcolumns
  rw [hprovider, Option.bind_some] at hp
  rw [Option.mem_def] at hversion hepoch
  have hlinked : PersonnelTerms.linked db j =
      db.externalIdentities.any fun e => decide (e.principal = row.principal ∧ e.provider = id) := by
    simp only [PersonnelTerms.linked, ho, hprovider, Option.any_some, Option.some.injEq]
  have hlocal : PersonnelTerms.isLocal j = some false := by
    simp [PersonnelTerms.isLocal, ho, hsource]
  cases hfound : db.providers.find? id with
  | none =>
    refine ⟨hlocal, ?_, ?_⟩
    · simp only [PersonnelTerms.asObserved, hp, hfound, Option.map_none, Db.stillObserves, hsource,
        Option.any_none, Truth.holds_and, Truth.holds_none, Bool.false_and]
    · rintro ⟨p, hsome⟩
      cases hsome
  | some p =>
    have hall : PersonnelTerms.asObserved db j = some (db.stillObserves row) := by
      simp only [PersonnelTerms.asObserved, hp, hfound, ho, Option.map_some, Option.bind_some, hversion,
        hepoch, Truth.compare, hlinked, Db.stillObserves, hsource, Option.any_some, Option.some.injEq]
      generalize (db.externalIdentities.any fun e =>
        decide (e.principal = row.principal ∧ e.provider = id)) = known
      cases p.enabled <;> cases decide (p.configVersion = version) <;>
        cases decide (p.revocationEpoch = epoch) <;> cases known <;> rfl
    exact ⟨hlocal, by rw [hall, Truth.holds_some], fun _ => hall⟩

/-- The directory refuses an observation whose source is not as it was observed. -/
theorem directory_refuses (hchecked : row.Checked) (ho : j.o = some row)
    (hp : j.p = row.provider.bind db.providers.find?) :
    ((PersonnelTerms.isLocal j).not.and (PersonnelTerms.asObserved db j).known.not).holds =
      !db.stillObserves row := by
  cases hsource : row.source with
  | identityLocal =>
    obtain ⟨hlocal, hstill⟩ := @local_columns db _ _ hsource ho
    rw [hlocal, hstill, Truth.holds_and]
    rfl
  | idp id =>
    obtain ⟨hlocal, hholds, -⟩ := upstream_asObserved hchecked hsource ho hp
    rw [hlocal, Truth.holds_and, Truth.holds_not_known, hholds]
    rfl

/-- So does the relation of a host, where the provider is there, and it admits any other one. -/
theorem personnel_refuses (hchecked : row.Checked) (ho : j.o = some row)
    (hp : j.p = row.provider.bind db.providers.find?) (hknown : db.knowsSource row) :
    ((PersonnelTerms.isLocal j).not.and (PersonnelTerms.asObserved db j).not).holds =
      !db.stillObserves row ∧
    ((PersonnelTerms.isLocal j).or (PersonnelTerms.asObserved db j)).holds = db.stillObserves row := by
  cases hsource : row.source with
  | identityLocal =>
    obtain ⟨hlocal, hstill⟩ := @local_columns db _ _ hsource ho
    rw [hlocal, hstill, Truth.holds_and, Truth.holds_or]
    exact ⟨rfl, rfl⟩
  | idp id =>
    obtain ⟨hlocal, -, hall⟩ := upstream_asObserved hchecked hsource ho hp
    rw [hlocal, hall (hknown id hsource), Truth.holds_and, Truth.holds_or]
    exact ⟨rfl, rfl⟩

/-- The status in the directory is the one of the observation. -/
theorem directory_status {terms : DirectoryTerms} {j : DirectoryJoin} (hj : j ∈ terms.joined db)
    (hprofiles : terms.profiles = true) (hactive : PersonnelTerms.active j.toPersonnelJoin = true)
    (hpast : ∀ row ∈ db.profileObservations, row.observedAt ≤ terms.now) :
    terms.profileStatus db j = db.observedStatus terms.maxAge terms.now j.o := by
  obtain ⟨a, m, -, -, rfl⟩ := mem_directoryJoined.mp hj
  have hstored : ∀ row, (terms.join db a m).o = some row → row ∈ db.profileObservations := by
    intro row ho
    obtain ⟨source, -, hfound⟩ := Option.bind_eq_some_iff.mp ho
    exact Table.mem_of_find? hfound
  generalize hj' : terms.join db a m = j at hactive hstored ⊢
  have hp : j.p = (j.o.bind ProfileObservationRow.provider).bind db.providers.find? := by
    rw [← hj']
    rfl
  unfold DirectoryTerms.profileStatus
  cases ho : j.o with
  | none => simp [hprofiles, hactive, Db.observedStatus]
  | some row =>
    rw [ho, Option.bind_some] at hp
    have hmem := hstored row ho
    have hrefuses := directory_refuses (j := j.toPersonnelJoin) (Table.check_of_mem hmem) ho hp
    have hnotFuture : ¬ terms.now < row.observedAt := not_lt.mpr (hpast row hmem)
    simp only [hprofiles, hactive, hrefuses, DirectoryTerms.ends, ho, Option.map_some, Truth.compare,
      Truth.holds_some, Option.isNone_some, Bool.not_eq_true', Db.observedStatus, decide_eq_true_eq,
      hnotFuture, if_false, Bool.true_eq_false, Bool.false_eq_true]

/-- So is the status in the relation of a host, and where it is available the attributes are shown
that there are. -/
theorem personnel_status {terms : PersonnelTerms} (hj : j ∈ terms.joined db) (ho : j.o = some row)
    (hactive : PersonnelTerms.active j = true) (hknown : db.knowsSource row) :
    terms.status db j = db.observedStatus terms.maxAge terms.now j.o ∧
      ∀ pick, terms.shown db pick j =
        if terms.status db j = .available then (pick row.value).value else none := by
  obtain ⟨hp, hobserved⟩ := mem_joined hj
  obtain ⟨hmem, -, hcovers⟩ := hobserved row ho
  rw [ho, Option.bind_some] at hp
  obtain ⟨hrefuses, hadmits⟩ := personnel_refuses (Table.check_of_mem hmem) ho hp hknown
  have hstatus : terms.status db j = db.observedStatus terms.maxAge terms.now j.o := by
    simp only [PersonnelTerms.status, hactive, hcovers, PersonnelTerms.ends, ho, Option.map_some,
      Truth.compare, Truth.holds_some, Truth.holds_or, hrefuses, Option.isNone_some, Db.observedStatus,
      decide_eq_true_eq, Bool.false_eq_true, if_false]
    simp [Truth.not, Truth.holds]
  refine ⟨hstatus, fun pick => ?_⟩
  rw [hstatus]
  simp only [PersonnelTerms.shown, hactive, hcovers, PersonnelTerms.ends, ho, Option.map_some,
    Truth.compare, Truth.holds_some, Truth.holds_and, hadmits, Db.observedStatus, Option.bind_some]
  cases db.stillObserves row with
  | false => simp
  | true =>
    by_cases hover : min row.expiresAt (row.observedAt + terms.maxAge) ≤ terms.now
    · simp [hover, not_lt.mpr hover]
    · cases hvalue : (pick row.value).value <;> simp [hover, not_le.mp hover]

end Status

section Read

variable {env : Env} {w w' : Tenant} {view : ProfileView} {target : AccountKey} {source : ProfileSource}
  {row : ProfileObservationRow} {absolute : ℤ}

/-- The status that a reader is told: an observation is over with the session of the reader too. -/
def ProfileStatus.until (status : ProfileStatus) (absolute t : ℤ) : ProfileStatus :=
  if status = .available ∧ absolute ≤ t then .expired else status

theorem until_eq_missing {status : ProfileStatus} {t : ℤ} :
    status.until absolute t = .missing ↔ status = .missing := by
  unfold ProfileStatus.until
  split
  · simp [*]
  · rfl

/-- Only where nothing was observed the status says so. -/
theorem observedStatus_eq_missing {db : Db} {maxAge t : ℤ} {stored : Option ProfileObservationRow} :
    db.observedStatus maxAge t stored = .missing ↔ stored = none := by
  cases stored with
  | none => simp [Db.observedStatus]
  | some row =>
    simp only [Db.observedStatus, reduceCtorEq, iff_false]
    split
    · exact ProfileStatus.noConfusion
    · split <;> exact ProfileStatus.noConfusion

/-- A read that goes on knows the provider, and finds out whether the source is as it was observed. -/
theorem run_sourceCurrent_eq {current : Bool} (hprincipal : row.principal = target)
    (h : (sourceCurrent env target row row.source).run w = .ok (current, w')) :
    current = w.state.stillObserves row ∧ w.state.knowsSource row := by
  unfold Db.stillObserves Db.knowsSource
  cases hsource : row.source with
  | identityLocal =>
    rw [hsource] at h
    obtain ⟨rfl, -⟩ := Tx.run_pure.mp h
    exact ⟨rfl, fun id hid => by cases hid⟩
  | idp id =>
    simp only [hsource, sourceCurrent, Tx.run_bind, Tx.run_exists, Tx.run_pure] at h
    obtain ⟨found, _, hprovider, linked, _, ⟨hlinked, rfl⟩, hcurrent, -⟩ := h
    obtain ⟨rfl, -, hfound⟩ := run_provider hprovider
    refine ⟨?_, fun other hother => ?_⟩
    · simp only [hfound, Option.any_some, hprincipal, ProviderView.row]
      rw [hcurrent, hlinked, Tables.externalIdentities_get, Bool.decide_and, ← Bool.and_assoc]
      ac_rfl
    · rw [ProfileSource.idp.injEq] at hother
      exact ⟨found.row, hother ▸ hfound⟩

/-- No observation that may be stored is so late that its age would overflow. -/
theorem deadline_eq {limits : ProfileLimits} {t : ℤ} (hchecked : row.Checked)
    (hpast : row.observedAt ≤ seconds t) (ht : isI64 t = true) :
    row.deadline absolute limits = min (min row.expiresAt (row.observedAt + limits.maxAge)) absolute := by
  have hage := of_decide_eq_true limits.maxAge_valid
  have hpos := hchecked.observedAt_pos
  have hfits := of_decide_eq_true ht
  have hsum : saturatingAdd row.observedAt limits.maxAge = row.observedAt + limits.maxAge := by
    unfold saturatingAdd
    unfold seconds at hpast
    unfold i64Max i64Min at *
    omega
  rw [ProfileObservationRow.deadline, hsum]
  omega

/-- A latest read tells the status of the observation, until the session of the reader is over, and
shows the value of one that is available. -/
theorem run_readLatest (h : (readObservation env ⟨target, source, none⟩ absolute true).run w =
      .ok (view, w'))
    (hpast : ∀ row ∈ w.state.profileObservations, row.observedAt ≤ seconds w'.clock)
    (hclock : isI64 w'.clock = true) :
    view.status = (w.state.observedStatus env.profileLimits.maxAge (seconds w'.clock)
        (w.state.profileObservations.find? (target, source))).until absolute (seconds w'.clock) ∧
      ∀ row, w.state.profileObservations.find? (target, source) = some row →
        w.state.knowsSource row ∧
        (w.state.observedStatus env.profileLimits.maxAge (seconds w'.clock) (some row) = .available →
          view.profile = some (row.value.applyLimits env.profileLimits)) := by
  simp only [readObservation, Tx.run_bind, Tx.run_find, Tables.profileObservations_get] at h
  obtain ⟨stored, _, ⟨hstored, rfl⟩, h⟩ := h
  rw [← hstored]
  cases stored with
  | none =>
    obtain ⟨rfl, rfl⟩ := Tx.run_pure.mp h
    exact ⟨rfl, fun row hrow => by cases hrow⟩
  | some row =>
    have hmem := Table.mem_of_find? hstored.symm
    obtain ⟨hprincipal, hsource⟩ := Prod.mk.inj (Table.key_of_find? hstored.symm)
    obtain rfl : row.source = source := hsource
    rcases Tx.run_ite.mp h with ⟨⟨id, hid, -⟩, -⟩ | ⟨-, h⟩
    · cases hid
    obtain ⟨current, w₁, hcurrent, hrest⟩ := Tx.run_bind.mp h
    obtain rfl := run_sourceCurrent hcurrent
    obtain ⟨hstill, hknown⟩ := run_sourceCurrent_eq hprincipal hcurrent
    suffices hread : view.status = (w₁.state.observedStatus env.profileLimits.maxAge
        (seconds w'.clock) (some row)).until absolute (seconds w'.clock) ∧
        (w₁.state.observedStatus env.profileLimits.maxAge (seconds w'.clock) (some row) = .available →
          view.profile = some (row.value.applyLimits env.profileLimits)) by
      refine ⟨hread.1, fun found hfound => ?_⟩
      cases hfound
      exact ⟨hknown, hread.2⟩
    simp only [Db.observedStatus, ← hstill]
    rcases Tx.run_ite.mp hrest with ⟨htrue, hshow⟩ | ⟨hfalse, hbare⟩
    · simp only [showObservation, Tx.run_bind, run_now, Tx.run_require, Tx.run_pure] at hshow
      obtain ⟨instant, _, ⟨rfl, rfl⟩, -, _, ⟨-, rfl⟩, rfl, rfl⟩ := hshow
      rw [deadline_eq (Table.check_of_mem hmem) (hpast row hmem) hclock]
      simp only [htrue, Bool.true_or, if_true, Bool.true_eq_false, if_false, implies_true, and_true]
      unfold ProfileStatus.until
      split <;> split <;> split <;> simp_all <;> omega
    · obtain ⟨rfl, rfl⟩ := Tx.run_pure.mp hbare
      simp [hfalse, ProfileStatus.until, ProfileView.bare]

end Read

section Main

variable {env : Env} {actor : AuthenticatedSession} {target : AccountKey} {source : ProfileSource}
  {view : ProfileView} {w w' : Tenant} {s₀ s : System env} {trace : List (Event (System env) (Label env))}

/-- An attribute that the limits of a deployment leave as it is. -/
def LeftByLimits (limits : ProfileLimits) (pick : Profile → Attribute String) : Prop :=
  ∀ profile : Profile, pick (profile.applyLimits limits) = pick profile

/-- A read of the latest profile agrees with both relations at a time, in which the session of the
reader lasts until another one. -/
structure StatusAgreement (limits : ProfileLimits) (db : Db) (target : AccountKey)
    (source : ProfileSource) (absolute t : ℤ) (view : ProfileView) : Prop where
  /-- The directory has a row of the account. -/
  listed : ∀ terms : DirectoryTerms, ∃ j ∈ terms.joined db, j.a.principal = target
  /-- It has the status of the read, and shows what the read shows where that is available. -/
  directory : ∀ (terms : DirectoryTerms), terms.source = some source → terms.profiles = true →
    terms.maxAge = limits.maxAge → terms.now = t → ∀ j ∈ terms.joined db, j.a.principal = target →
    view.status = (terms.profileStatus db j).until absolute t ∧
    ∀ pick, LeftByLimits limits pick → terms.shown db pick j =
      if terms.profileStatus db j = .available then view.profile.bind fun p => (pick p).value else none
  /-- The relation of a host has a row of the account at the source, unless the read found none. -/
  joined : ∀ terms : PersonnelTerms, terms.covers target = true →
    ((∃ j ∈ terms.joined db, j.a.principal = target ∧ j.o.map ProfileObservationRow.source =
      some source) ↔ view.status ≠ .missing)
  /-- It has the status of the read, and shows what the read shows where that is available. -/
  personnel : ∀ terms : PersonnelTerms, terms.maxAge = limits.maxAge → terms.now = t →
    ∀ j ∈ terms.joined db, j.a.principal = target → j.o.map ProfileObservationRow.source = some source →
    view.status = (terms.status db j).until absolute t ∧
    ∀ pick, LeftByLimits limits pick → terms.shown db pick j =
      if terms.status db j = .available then view.profile.bind fun p => (pick p).value else none

/-- The columns of texts are left by the limits. -/
theorem leftByLimits (limits : ProfileLimits) : LeftByLimits limits Profile.displayName ∧
    LeftByLimits limits Profile.username ∧ LeftByLimits limits Profile.email := by
  have hleft : ∀ profile : Profile, profile.applyLimits limits = profile ∨
      profile.applyLimits limits = { profile with extensions := .invalid } := by
    intro profile
    unfold Profile.applyLimits
    split
    · split
      · exact .inl rfl
      · exact .inr rfl
    · exact .inl rfl
  refine ⟨fun profile => ?_, fun profile => ?_, fun profile => ?_⟩ <;>
    rcases hleft profile with heq | heq <;> rw [heq]

/-- An account is listed once in the directory, with the observation of the source. -/
theorem directory_target {db : Db} {state : AccountState} (hholds : db.Holds state)
    (terms : DirectoryTerms) :
    ∃ j ∈ terms.joined db, j.a.principal = state.key ∧
      (∀ j' ∈ terms.joined db, j'.a.principal = state.key → j' = j) ∧
      PersonnelTerms.active j.toPersonnelJoin = state.active ∧
      j.o = terms.observation db state.key := by
  have hmem : terms.join db ⟨state.key, state.enabled, state.epoch⟩
      ⟨state.key, state.memberActive, state.membershipEpoch⟩ ∈ terms.joined db :=
    mem_directoryJoined.mpr ⟨_, _, hholds.account, hholds.membership, rfl⟩
  refine ⟨_, hmem, rfl, fun j' hj' hkey => ?_, rfl, rfl⟩
  obtain ⟨a, m, ha, hm, rfl⟩ := mem_directoryJoined.mp hj'
  have hkey : a.principal = state.key := hkey
  rw [hkey] at ha hm
  rw [hholds.account, Option.some.injEq] at ha
  rw [hholds.membership, Option.some.injEq] at hm
  rw [ha, hm]

/-- The relation of a host has a row of a covered account for each of its observations. -/
theorem personnel_target {db : Db} {state : AccountState} (hholds : db.Holds state)
    {terms : PersonnelTerms} (hcovers : terms.covers state.key = true) :
    (∃ j ∈ terms.joined db, j.a.principal = state.key ∧
      j.o.map ProfileObservationRow.source = some source) ↔
      ∃ row, db.profileObservations.find? (state.key, source) = some row := by
  constructor
  · rintro ⟨j, hj, hkey, hsource⟩
    obtain ⟨row, ho, hrow⟩ := Option.map_eq_some_iff.mp hsource
    obtain ⟨hmem, hprincipal, -⟩ := (mem_joined hj).2 row ho
    exact ⟨row, Table.find?_eq_some.mpr ⟨hmem, Prod.ext (hprincipal.trans hkey) hrow⟩⟩
  · rintro ⟨row, hfound⟩
    obtain ⟨hmem, hkey⟩ := Table.find?_eq_some.mp hfound
    obtain ⟨hprincipal, hsource⟩ := Prod.mk.inj hkey
    refine ⟨⟨⟨state.key, state.enabled, state.epoch⟩,
      ⟨state.key, state.memberActive, state.membershipEpoch⟩, db.localCredentials.find? state.key,
      some row, row.provider.bind db.providers.find?⟩, ?_, rfl, congrArg some hsource⟩
    rw [joined_eq]
    refine List.mem_flatMap.mpr ⟨_, Table.mem_of_find? hholds.account, ?_⟩
    refine List.mem_flatMap.mpr ⟨_, List.mem_filter.mpr
      ⟨Table.mem_of_find? hholds.membership, decide_eq_true rfl⟩, ?_⟩
    refine List.mem_map.mpr ⟨some row, some_mem_leftJoin.mpr ⟨hmem, ?_⟩, rfl⟩
    rw [PersonnelTerms.observes, hcovers, Bool.and_true]
    exact decide_eq_true hprincipal

/-- The row of a covered account at a source holds its observation there. -/
theorem personnel_observation {db : Db} {state : AccountState} (hholds : db.Holds state)
    {terms : PersonnelTerms} {j : PersonnelJoin} (hj : j ∈ terms.joined db)
    (hkey : j.a.principal = state.key)
    (hsource : j.o.map ProfileObservationRow.source = some source) :
    PersonnelTerms.active j = state.active ∧ ∃ row, j.o = some row ∧
      db.profileObservations.find? (state.key, source) = some row := by
  obtain ⟨row, ho, hrow⟩ := Option.map_eq_some_iff.mp hsource
  obtain ⟨hmem, hprincipal, -⟩ := (mem_joined hj).2 row ho
  refine ⟨?_, row, ho, Table.find?_eq_some.mpr ⟨hmem, Prod.ext (hprincipal.trans hkey) hrow⟩⟩
  rw [joined_eq] at hj
  obtain ⟨a, ha, hj⟩ := List.mem_flatMap.mp hj
  obtain ⟨m, hm, hj⟩ := List.mem_flatMap.mp hj
  obtain ⟨o, -, rfl⟩ := List.mem_map.mp hj
  obtain ⟨hmember, hsame⟩ := List.mem_filter.mp hm
  have hmembership := Table.find?_eq_some.mpr ⟨hmember, (of_decide_eq_true hsame).trans hkey⟩
  have haccount := Table.find?_eq_some.mpr ⟨ha, hkey⟩
  rw [hholds.account, Option.some.injEq] at haccount
  rw [hholds.membership, Option.some.injEq] at hmembership
  rw [PersonnelTerms.active, ← haccount, ← hmembership]
  rfl

/-- A latest read runs in the state it found, of an account that is active, and within the session of
its reader. -/
theorem run_latestProfile (h : (latestProfile env actor target source).run w = .ok (view, w')) :
    ∃ (session : SessionRow) (state : AccountState) (w₁ : Tenant),
      w.state.sessions.find? actor.view.id = some session ∧ state.key = target ∧
      w.state.Holds state ∧ state.active = true ∧ w₁.state = w.state ∧
      (readObservation env ⟨target, source, none⟩ session.absoluteExpiresAt true).run w₁ =
        .ok (view, w') := by
  simp only [latestProfile, readProfile, locateObservation, Tx.run_bind, Tx.run_pure, Tx.run_require]
    at h
  obtain ⟨loaded, _, hrecheck, locator, _, ⟨_, _, hauthorize, rfl, rfl⟩, stored, _, hload, _, _,
    ⟨hactive, rfl⟩, h⟩ := h
  obtain ⟨rfl, -, hid, session, hof, -, -⟩ := run_recheck hrecheck
  obtain ⟨hstate, -⟩ := run_authorize hauthorize
  obtain ⟨rfl, hkey, hholds⟩ := run_load hload
  rw [World.tick_state] at hstate
  rw [hstate] at hholds
  rcases Tx.run_ite.mp h with ⟨hbound, -⟩ | ⟨-, h⟩
  · cases hbound
  refine ⟨session, stored.state, _, hid ▸ hof.found, hkey, hholds, hactive, hstate, ?_⟩
  have habsolute : loaded.view.absoluteExpiresAt = session.absoluteExpiresAt := by
    rw [hof.view]
    exact (SessionRow.lifetime_eq_some hof.lifetime).2.2
  rw [← habsolute]
  exact h

/-- In every state reached, a read of the latest profile and the two relations agree on the status
of an account's observation at a source, and on what is shown of it. -/
theorem profiles_agree (hstart : s₀.Provisioned) (hrun : Run (Step env) s₀ trace s)
    (hread : (latestProfile env actor target source).run s.world = .ok (view, w))
    (hclock : isI64 w.clock = true) :
    ∃ session, s.world.state.sessions.find? actor.view.id = some session ∧
      StatusAgreement env.profileLimits s.world.state target source session.absoluteExpiresAt
        (seconds w.clock) view := by
  obtain ⟨session, state, w₁, hsession, rfl, hholds, hactive, hstate, hobserved⟩ :=
    run_latestProfile hread
  have hpast : ∀ row ∈ s.world.state.profileObservations, row.observedAt ≤ seconds w.clock := by
    intro row hrow
    exact (observed_of_run hstart hrun row hrow).trans (seconds_mono (Tx.advances _ _ _ _ hread).clock)
  obtain ⟨hstatus, hvalue⟩ := run_readLatest hobserved (hstate ▸ hpast) hclock
  rw [hstate] at hstatus hvalue
  refine ⟨session, hsession, ?_, ?_, ?_, ?_⟩
  · intro terms
    obtain ⟨j, hj, hkey, -⟩ := directory_target hholds terms
    exact ⟨j, hj, hkey⟩
  · rintro terms hsource hprofiles hage hnow j hj hkey
    obtain ⟨j', -, -, hunique, hactive', ho⟩ := directory_target hholds terms
    obtain rfl := hunique j hj hkey
    have hterms := directory_status hj hprofiles (hactive'.trans hactive) (hnow ▸ hpast)
    rw [ho, DirectoryTerms.observation, hsource, Option.bind_some, hage, hnow] at hterms
    refine ⟨by rw [hterms, hstatus], fun pick hpick => ?_⟩
    unfold DirectoryTerms.shown
    split
    · rename_i havailable
      rw [hterms] at havailable
      rw [ho, DirectoryTerms.observation, hsource, Option.bind_some]
      cases hrow : s.world.state.profileObservations.find? (state.key, source) with
      | none =>
        rw [hrow] at havailable
        cases havailable
      | some row =>
        rw [hrow] at havailable
        rw [(hvalue row hrow).2 havailable, Option.bind_some, Option.bind_some, hpick]
    · rfl
  · intro terms hcovers
    rw [personnel_target hholds hcovers, hstatus, ne_eq, until_eq_missing, observedStatus_eq_missing,
      ← ne_eq, Option.ne_none_iff_exists']
  · intro terms hage hnow j hj hkey hsource
    obtain ⟨hactive', row, ho, hrow⟩ := personnel_observation hholds hj hkey hsource
    obtain ⟨hknown, hshown⟩ := hvalue row hrow
    obtain ⟨hterms, hpicks⟩ := personnel_status hj ho (hactive'.trans hactive) hknown
    rw [ho, hage, hnow, ← hrow] at hterms
    refine ⟨by rw [hterms, hstatus], fun pick hpick => ?_⟩
    rw [hpicks]
    split
    · rename_i havailable
      rw [hterms, hrow] at havailable
      rw [hshown havailable, Option.bind_some, hpick]
    · rfl

/-- Ada, signed in, reads the latest observation of her own profile. -/
def ownLatestProfile (env : Env) (key : AccountKey) (login hash : String) : Action ProfileView := do
  let issued ← firstLogin env key login hash
  let actor ← authenticateSession env (env.sha256.secret issued.secret) .cookie false
  latestProfile env actor key .identityLocal

theorem run_ownLatestProfile {key : AccountKey} {login hash : String}
    (h : (ownLatestProfile env key login hash).run w = .ok (view, w')) :
    ∃ (actor : AuthenticatedSession) (trace : List (Event (System env) (Label env)))
      (reached : System env), Run (Step env) ⟨w, []⟩ trace reached ∧
      (latestProfile env actor key .identityLocal).run reached.world = .ok (view, w') := by
  simp only [ownLatestProfile, Tx.run_bind] at h
  obtain ⟨issued, _, hlogin, actor, _, hactor, hread⟩ := h
  obtain ⟨trace, held, hrun⟩ := run_firstLogin hlogin
  have hrun := commit_step (.authenticate _ .cookie false actor) hrun trivial hactor
  exact ⟨actor, _, _, hrun, hread⟩

/-- Her profile is available, to her as in both relations. -/
theorem adasProfile_agrees : ∃ (db : Db) (absolute t : ℤ) (view : ProfileView),
    view.status = .available ∧ StatusAgreement (Env.profileLimits .transparent) db ⟨Uuid.newV4 0⟩
      .identityLocal absolute t view := by
  have hok : (((ownLatestProfile .transparent ⟨Uuid.newV4 0⟩ "ada" "hash").run newTenant).toOption.map
      fun read => (read.1.status, isI64 read.2.clock)) = some (.available, true) := by decide +kernel
  obtain ⟨⟨view, w⟩, hsome, hview⟩ := Option.map_eq_some_iff.mp hok
  obtain ⟨hstatus, hclock⟩ := Prod.mk.inj hview
  obtain ⟨actor, trace, reached, hrun, hread⟩ := run_ownLatestProfile (eq_ok_of_toOption hsome)
  obtain ⟨session, -, hagree⟩ := profiles_agree ⟨rfl, rfl⟩ hrun hread hclock
  exact ⟨_, _, _, view, hstatus, hagree⟩

end Main

end IdentityAuthority
