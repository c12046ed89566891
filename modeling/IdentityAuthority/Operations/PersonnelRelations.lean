import IdentityAuthority.Operations.ProfileReads
import IdentityAuthority.Relational.Join
import IdentityAuthority.Relational.Truth

/-!
# What a host may join

Two relations stand before a statement of the host. One has a row for each account and observation
source, and shows of it what the host policy granted; the other has a row for each current session.
Columns of an outer join may be missing, so the conditions are over truth values.
-/

namespace IdentityAuthority

open Relational

/-- `PersonnelProfileScope`. -/
inductive PersonnelProfileScope
  | none
  | selfOnly
  | all
deriving DecidableEq

/-- A row of `identity_personnel`. -/
structure PersonnelRow where
  principal : PrincipalId
  active : Bool
  login : Option String
  source : Option ProfileSource
  status : ProfileStatus
  displayName : Option String
  username : Option String
  expiresAt : Option ℤ
deriving DecidableEq

/-- What the text of the relation is completed with: `{logins}`, `{profiles}` with the principal of
the reader, `{max_age}` and `{now}`. -/
structure PersonnelTerms where
  logins : Bool
  profiles : PersonnelProfileScope
  reader : PrincipalId
  maxAge : ℤ
  now : ℤ

/-- A row of the joined tables. -/
structure PersonnelJoin where
  a : AccountRow
  m : MembershipRow
  l : Option LocalCredentialRow
  o : Option ProfileObservationRow
  p : Option ProviderRow

namespace PersonnelTerms

variable (terms : PersonnelTerms) (db : Db)

/-- `{profiles}`, asked of an account. -/
def covers (principal : PrincipalId) : Bool :=
  match terms.profiles with
  | .all => true
  | .selfOnly => decide (principal = terms.reader)
  | .none => false

/-- The `ON` of the observations. -/
def observes (principal : PrincipalId) (o : ProfileObservationRow) : Bool :=
  decide (o.principal = principal) && terms.covers principal

/-- The `FROM` of the relation. -/
def joined : List PersonnelJoin :=
  db.accounts.rows.flatMap fun a =>
    (db.memberships.rows.filter fun m => decide (m.principal = a.principal)).flatMap fun m =>
      (leftJoin db.localCredentials.rows fun l => decide (l.principal = a.principal)).flatMap fun l =>
        (leftJoin db.profileObservations.rows (terms.observes a.principal)).flatMap fun o =>
          (leftJoin db.providers.rows fun p => decide (some p.provider = o.bind
            ProfileObservationRow.provider)).map fun p => ⟨a, m, l, o, p⟩

/-- `a.enabled AND m.active`. -/
def active (j : PersonnelJoin) : Bool := j.a.enabled && j.m.active

/-- `o.source = 'local'`. -/
def isLocal (j : PersonnelJoin) : Truth := j.o.map fun o => decide (o.source = .identityLocal)

/-- The `EXISTS` over the external identities of the observed account at the observed provider. -/
def linked (j : PersonnelJoin) : Bool :=
  db.externalIdentities.any fun e =>
    j.o.any fun o => decide (e.principal = o.principal ∧ some e.provider = o.provider)

/-- The provider is enabled, and as it was observed, and still linked. -/
def asObserved (j : PersonnelJoin) : Truth :=
  let enabled : Truth := j.p.map ProviderRow.enabled
  let version := Truth.compare (fun m n => decide (m = n)) (j.p.map ProviderRow.configVersion)
    (j.o.bind ProfileObservationRow.configVersion)
  let epoch := Truth.compare (fun m n => decide (m = n)) (j.p.map ProviderRow.revocationEpoch)
    (j.o.bind ProfileObservationRow.sourceEpoch)
  ((enabled.and version).and epoch).and (some (linked db j))

/-- `LEAST(o.expires_at,o.observed_at+{max_age})`. -/
def ends (j : PersonnelJoin) : Option ℤ :=
  j.o.map fun o => min o.expiresAt (o.observedAt + terms.maxAge)

/-- `status`. -/
def status (j : PersonnelJoin) : ProfileStatus :=
  let active : Truth := some (active j)
  let covers : Truth := some (terms.covers j.a.principal)
  if ((active.not.or covers.not).or ((isLocal j).not.and (asObserved db j).not)).holds then
    .unavailable
  else if j.o.isNone then .missing
  else if (Truth.compare (fun e n => decide (e ≤ n)) (terms.ends j) (some terms.now)).holds then
    .expired
  else .available

/-- `display_name` and `username`: the value of one attribute, under the same condition. -/
def shown (pick : Profile → Attribute String) (j : PersonnelJoin) : Option String :=
  let active : Truth := some (active j)
  let covers : Truth := some (terms.covers j.a.principal)
  let live := Truth.compare (fun e n => decide (n < e)) (terms.ends j) (some terms.now)
  let available : Truth := j.o.map fun o => (pick o.value).value.isSome
  if ((((active.and covers).and live).and ((isLocal j).or (asObserved db j))).and available).holds then
    j.o.bind fun o => (pick o.value).value
  else none

/-- The columns of a joined row. -/
def row (j : PersonnelJoin) : PersonnelRow where
  principal := j.a.principal
  active := active j
  login := if terms.logins && j.a.enabled && j.m.active then j.l.map LocalCredentialRow.loginKey
    else none
  source := j.o.map ProfileObservationRow.source
  status := terms.status db j
  displayName := terms.shown db Profile.displayName j
  username := terms.shown db Profile.username j
  expiresAt := if terms.covers j.a.principal then terms.ends j else none

/-- `identity_personnel`. -/
def relation : List PersonnelRow := (terms.joined db).map (terms.row db)

end PersonnelTerms

section Personnel

variable {terms : PersonnelTerms} {db db' : Db} {j : PersonnelJoin} {o : ProfileObservationRow}

/-- A provider is joined by its key, where an observation names it. -/
theorem leftJoin_providers (db : Db) (o : Option ProfileObservationRow) :
    (leftJoin db.providers.rows fun p =>
      decide (some p.provider = o.bind ProfileObservationRow.provider)) =
      [(o.bind ProfileObservationRow.provider).bind db.providers.find?] := by
  cases hprovider : o.bind ProfileObservationRow.provider with
  | none => exact leftJoin_none fun p _ => by simp
  | some id =>
    rw [Option.bind_some, ← leftJoin_key]
    exact leftJoin_congr fun p _ => decide_eq_decide.mpr Option.some_inj

/-- The joined rows of a membership: one for each observation that is joined. -/
def PersonnelTerms.observed (terms : PersonnelTerms) (db : Db) (a : AccountRow)
    (m : MembershipRow) : List PersonnelJoin :=
  (leftJoin db.profileObservations.rows (terms.observes a.principal)).map fun o =>
    ⟨a, m, db.localCredentials.find? a.principal, o,
      (o.bind ProfileObservationRow.provider).bind db.providers.find?⟩

theorem joined_eq (terms : PersonnelTerms) (db : Db) :
    terms.joined db = db.accounts.rows.flatMap fun a =>
      (db.memberships.rows.filter fun m => decide (m.principal = a.principal)).flatMap
        (terms.observed db a) := by
  have hcredential : ∀ a : AccountRow,
      (leftJoin db.localCredentials.rows fun l => decide (l.principal = a.principal)) =
        [db.localCredentials.find? a.principal] := fun a => leftJoin_key _ a.principal
  refine List.flatMap_congr fun a _ => List.flatMap_congr fun m _ => ?_
  rw [hcredential, List.flatMap_singleton, PersonnelTerms.observed, List.map_eq_flatMap]
  refine List.flatMap_congr fun o _ => ?_
  rw [leftJoin_providers, List.map_singleton]

/-- What a joined row is made of. -/
theorem mem_joined (h : j ∈ terms.joined db) :
    j.p = (j.o.bind ProfileObservationRow.provider).bind db.providers.find? ∧
      ∀ o ∈ j.o, o ∈ db.profileObservations ∧ o.principal = j.a.principal ∧
        terms.covers j.a.principal = true := by
  rw [joined_eq] at h
  obtain ⟨a, -, h⟩ := List.mem_flatMap.mp h
  obtain ⟨m, -, h⟩ := List.mem_flatMap.mp h
  obtain ⟨o, ho, rfl⟩ := List.mem_map.mp h
  refine ⟨rfl, fun observed hobserved => ?_⟩
  obtain ⟨hmem, hon⟩ := mem_leftJoin ho observed hobserved
  simp only [PersonnelTerms.observes, Bool.and_eq_true, decide_eq_true_eq] at hon
  exact ⟨hmem, hon⟩

/-- What the terms let a reader see is the same in two databases. -/
structure PersonnelTerms.Agree (terms : PersonnelTerms) (db db' : Db) : Prop where
  accounts : db.accounts = db'.accounts
  memberships : db.memberships = db'.memberships
  providers : db.providers = db'.providers
  externalIdentities : db.externalIdentities = db'.externalIdentities
  localCredentials : terms.logins = true → db.localCredentials = db'.localCredentials
  profileObservations : ∀ principal, terms.covers principal = true →
    (db.profileObservations.rows.filter fun o => decide (o.principal = principal)) =
      db'.profileObservations.rows.filter fun o => decide (o.principal = principal)

/-- Observations are joined where the terms cover their account, and only there. -/
theorem filter_observes (h : terms.Agree db db') (principal : PrincipalId) :
    db.profileObservations.rows.filter (terms.observes principal) =
      db'.profileObservations.rows.filter (terms.observes principal) := by
  cases hcovers : terms.covers principal with
  | true =>
    have hobserves : terms.observes principal = fun o => decide (o.principal = principal) := by
      funext o
      rw [PersonnelTerms.observes, hcovers, Bool.and_true]
    rw [hobserves]
    exact h.profileObservations principal hcovers
  | false =>
    have hobserves : terms.observes principal = fun _ => false := by
      funext o
      rw [PersonnelTerms.observes, hcovers, Bool.and_false]
    rw [hobserves, List.filter_false, List.filter_false]

/-- The columns depend on the credential for the login only, and on that only where logins are
granted. -/
theorem row_congr {a : AccountRow} {m : MembershipRow} {l l' : Option LocalCredentialRow}
    {o : Option ProfileObservationRow} {p : Option ProviderRow}
    (hidentities : db.externalIdentities = db'.externalIdentities)
    (hlogin : terms.logins = true → l = l') :
    terms.row db ⟨a, m, l, o, p⟩ = terms.row db' ⟨a, m, l', o, p⟩ := by
  have hlinked : PersonnelTerms.linked db ⟨a, m, l, o, p⟩ =
      PersonnelTerms.linked db' ⟨a, m, l', o, p⟩ := by
    simp only [PersonnelTerms.linked, hidentities]
  have hobserved : PersonnelTerms.asObserved db ⟨a, m, l, o, p⟩ =
      PersonnelTerms.asObserved db' ⟨a, m, l', o, p⟩ := by
    simp only [PersonnelTerms.asObserved, hlinked]
  have hloginKey : (if terms.logins && a.enabled && m.active then l.map LocalCredentialRow.loginKey
      else none) = if terms.logins && a.enabled && m.active then
        l'.map LocalCredentialRow.loginKey else none := by
    cases hlogins : terms.logins with
    | true => rw [hlogin hlogins]
    | false => rfl
  simp only [PersonnelTerms.row, PersonnelTerms.status, PersonnelTerms.shown, hobserved, hloginKey]
  rfl

/-- The relation is a matter of what its terms let a reader see. -/
theorem relation_congr (h : terms.Agree db db') : terms.relation db = terms.relation db' := by
  unfold PersonnelTerms.relation
  rw [joined_eq, joined_eq, List.map_flatMap, List.map_flatMap, h.accounts]
  refine List.flatMap_congr fun a _ => ?_
  rw [List.map_flatMap, List.map_flatMap, h.memberships]
  refine List.flatMap_congr fun m _ => ?_
  unfold PersonnelTerms.observed
  rw [leftJoin_of_filter (filter_observes h a.principal), List.map_map, List.map_map]
  refine List.map_congr_left fun o _ => ?_
  rw [Function.comp_apply, Function.comp_apply, h.providers]
  refine row_congr h.externalIdentities fun hlogins => ?_
  rw [h.localCredentials hlogins]

/-- Of an account that is not active, nothing is shown. -/
theorem inactive_row (terms : PersonnelTerms) (db : Db) (h : PersonnelTerms.active j = false) :
    (terms.row db j).login = none ∧ (∀ pick, terms.shown db pick j = none) ∧
      terms.status db j = .unavailable := by
  refine ⟨?_, fun pick => ?_, ?_⟩
  · have hactive : (j.a.enabled && j.m.active) = false := h
    simp only [PersonnelTerms.row, Bool.and_assoc, hactive, Bool.and_false, Bool.false_eq_true,
      if_false]
  · simp [PersonnelTerms.shown, h]
  · simp [PersonnelTerms.status, h]

/-- An observation that is over, or whose provider is not as it was observed or not linked. -/
inductive ProfileObservationRow.Stale (o : ProfileObservationRow) (db : Db) (maxAge now : ℤ) : Prop
  | expired : o.expiresAt ≤ now → Stale o db maxAge now
  | aged : o.observedAt + maxAge ≤ now → Stale o db maxAge now
  | disabled {id : ProviderId} {p : ProviderRow} : o.provider = some id →
      db.providers.find? id = some p → p.enabled = false → Stale o db maxAge now
  | reconfigured {id : ProviderId} {p : ProviderRow} : o.provider = some id →
      db.providers.find? id = some p → o.configVersion ≠ some p.configVersion →
      Stale o db maxAge now
  | revoked {id : ProviderId} {p : ProviderRow} : o.provider = some id →
      db.providers.find? id = some p → o.sourceEpoch ≠ some p.revocationEpoch →
      Stale o db maxAge now
  | unlinked {id : ProviderId} : o.provider = some id →
      (∀ e ∈ db.externalIdentities, e.principal = o.principal → e.provider ≠ id) →
      Stale o db maxAge now

/-- An observation that names a provider is not a local one, and says at which version and epoch of
the provider it was made. -/
theorem upstream_columns {id : ProviderId} (ho : o ∈ db.profileObservations)
    (hprovider : o.provider = some id) :
    o.source ≠ .identityLocal ∧ ∃ version epoch, o.configVersion = some version ∧
      o.sourceEpoch = some epoch := by
  have hchecked : o.Checked := Table.check_of_mem ho
  have hcolumns := hchecked.source
  unfold ProfileObservationRow.SourceColumns at hcolumns
  split at hcolumns
  · rw [hcolumns.1] at hprovider
    cases hprovider
  · rename_i hsource
    obtain ⟨-, ⟨version, hversion, -⟩, ⟨epoch, hepoch, -⟩, -⟩ := hcolumns
    refine ⟨?_, version, epoch, hversion, hepoch⟩
    rw [hsource]
    exact ProfileSource.noConfusion

/-- A stale observation is over, or is known not to be from a source as it was observed. -/
theorem stale_cases (hj : j ∈ terms.joined db) (ho : j.o = some o)
    (h : o.Stale db terms.maxAge terms.now) :
    min o.expiresAt (o.observedAt + terms.maxAge) ≤ terms.now ∨
      PersonnelTerms.isLocal j = some false ∧ PersonnelTerms.asObserved db j = some false := by
  obtain ⟨hp, hmem⟩ := mem_joined hj
  obtain ⟨hstored, -⟩ := hmem o ho
  have hlocal : ∀ id, o.provider = some id → PersonnelTerms.isLocal j = some false := by
    intro id hprovider
    obtain ⟨hsource, -⟩ := upstream_columns hstored hprovider
    simp [PersonnelTerms.isLocal, ho, hsource]
  have hjoined : ∀ {id p}, o.provider = some id → db.providers.find? id = some p → j.p = some p := by
    intro id p hprovider hfound
    rw [hp, ho, Option.bind_some, hprovider, Option.bind_some, hfound]
  -- One part of the conjunction is known to be false, whatever is known of the others.
  cases h with
  | expired hover => exact .inl (min_le_iff.mpr (.inl hover))
  | aged hover => exact .inl (min_le_iff.mpr (.inr hover))
  | disabled hprovider hfound hdisabled =>
    refine .inr ⟨hlocal _ hprovider, ?_⟩
    simp only [PersonnelTerms.asObserved, hjoined hprovider hfound, Option.map_some, hdisabled]
    rfl
  | @reconfigured id p hprovider hfound hchanged =>
    refine .inr ⟨hlocal _ hprovider, ?_⟩
    obtain ⟨-, version, epoch, hversion, hepoch⟩ := upstream_columns hstored hprovider
    rw [hversion, ne_eq, Option.some.injEq] at hchanged
    simp only [PersonnelTerms.asObserved, hjoined hprovider hfound, ho, Option.map_some,
      Option.bind_some, hversion, hepoch, Truth.compare, decide_eq_false (Ne.symm hchanged)]
    cases p.enabled <;> rfl
  | @revoked id p hprovider hfound hchanged =>
    refine .inr ⟨hlocal _ hprovider, ?_⟩
    obtain ⟨-, version, epoch, hversion, hepoch⟩ := upstream_columns hstored hprovider
    rw [hepoch, ne_eq, Option.some.injEq] at hchanged
    simp only [PersonnelTerms.asObserved, hjoined hprovider hfound, ho, Option.map_some,
      Option.bind_some, hversion, hepoch, Truth.compare, decide_eq_false (Ne.symm hchanged)]
    cases p.enabled <;> cases decide (p.configVersion = version) <;> rfl
  | @unlinked id hprovider hnone =>
    refine .inr ⟨hlocal _ hprovider, ?_⟩
    have hlinked : PersonnelTerms.linked db j = false := by
      refine Bool.eq_false_of_not_eq_true fun hlinked => ?_
      obtain ⟨e, he, hmatch⟩ := Table.any_eq_true.mp hlinked
      rw [ho, Option.any_some, decide_eq_true_eq, hprovider, Option.some.injEq] at hmatch
      exact hnone e he hmatch.1 hmatch.2
    unfold PersonnelTerms.asObserved
    rw [hlinked]
    exact Truth.and_false _

/-- Of a stale observation nothing is shown, and it is not said to be available. -/
theorem stale_row (hj : j ∈ terms.joined db) (ho : j.o = some o)
    (h : o.Stale db terms.maxAge terms.now) :
    (∀ pick, terms.shown db pick j = none) ∧ terms.status db j ≠ .available := by
  rcases stale_cases hj ho h with hover | ⟨hlocal, hobserved⟩
  · have hends : terms.ends j = some (min o.expiresAt (o.observedAt + terms.maxAge)) := by
      rw [PersonnelTerms.ends, ho, Option.map_some]
    have hnot : ¬ terms.now < min o.expiresAt (o.observedAt + terms.maxAge) := not_lt.mpr hover
    refine ⟨fun pick => ?_, ?_⟩
    · simp [PersonnelTerms.shown, hends, Truth.compare, hnot]
    · simp only [PersonnelTerms.status, hends, Truth.compare, Truth.holds_some, decide_eq_true hover,
        if_true]
      split
      · exact ProfileStatus.noConfusion
      · split <;> exact ProfileStatus.noConfusion
  · refine ⟨fun pick => ?_, ?_⟩
    · simp [PersonnelTerms.shown, hlocal, hobserved]
    · simp [PersonnelTerms.status, hlocal, hobserved]

end Personnel

/-- A row of `identity_session_references`. -/
structure SessionReferenceRow where
  instanceId : Uuid
  principal : PrincipalId
  session : SessionId
  credentialKind : CredentialKind
  authenticationSource : AuthenticationSource
  requiresPlatformCheck : Bool
  platformBindingId : Option Uuid
  platformBindingEpoch : Option ℤ
  platformSourceId : Option Uuid
  platformSourceVersion : Option ℤ
deriving DecidableEq

/-- What the text of the relation is completed with: `{instance}`, `{now}`, and the audience of the
platform where there is one. -/
structure ReferenceTerms where
  instanceId : Uuid
  now : ℤ
  platform : Option String

namespace ReferenceTerms

variable (terms : ReferenceTerms) (db : Db)

/-- The session of a federated login is at a current provider and a bound identity. -/
def oidcCurrent (s : SessionRow) : Bool :=
  db.externalIdentities.any fun e => db.providers.any fun p =>
    decide (p.provider = e.provider ∧ e.principal = s.principal ∧
      some e.identity = s.externalIdentity ∧ p.enabled = true ∧
      some p.revocationEpoch = s.providerEpoch ∧
      some p.configVersion = s.authFacts.map AuthenticationFacts.providerConfigVersion)

/-- The upstream identity that a platform binding names is bound, at a current provider. -/
def bindingCurrent (principal : PrincipalId) (named : ExternalBinding) : Bool :=
  db.externalIdentities.any fun e => db.providers.any fun p =>
    decide (p.provider = e.provider ∧ e.principal = principal ∧ e.identity = named.identity ∧
      p.provider = named.provider ∧ p.enabled = true ∧
      p.revocationEpoch = named.revocationEpoch ∧ p.configVersion = named.configVersion)

/-- The session of a platform login is for this deployment and this account. -/
def platformCurrent (s : SessionRow) : Bool :=
  terms.platform.isSome && s.platformAuthentication.any fun stored =>
    decide (stored.audience = terms.platform.getD "" ∧
      stored.binding.instanceId = terms.instanceId ∧ stored.binding.account = s.principal) &&
      (stored.binding.externalIdentity.all fun named => bindingCurrent db s.principal named)

/-- The `WHERE` of the relation. No part of it is negated, so what is unknown is as good as false. -/
def current (s : SessionRow) (a : AccountRow) (m : MembershipRow) : Bool :=
  decide (a.enabled = true ∧ m.active = true ∧ s.authEpoch = a.authEpoch ∧
    s.membershipEpoch = m.epoch ∧ s.revokedAt = none ∧ terms.now < s.idleExpiresAt ∧
    terms.now < s.absoluteExpiresAt) &&
  match s.authenticationSource with
  | .localPassword => true
  | .oidc => oidcCurrent db s
  | .platform => terms.platformCurrent db s

/-- The columns of a session. -/
def row (s : SessionRow) : SessionReferenceRow :=
  let binding := if s.authenticationSource = .platform then
    s.platformAuthentication.map PlatformAuthentication.binding else none
  { instanceId := terms.instanceId
    principal := s.principal
    session := s.session
    credentialKind := s.credentialKind
    authenticationSource := s.authenticationSource
    requiresPlatformCheck := decide (s.authenticationSource = .platform)
    platformBindingId := binding.map PlatformBinding.bindingId
    platformBindingEpoch := binding.map PlatformBinding.bindingEpoch
    platformSourceId := binding.map PlatformBinding.sourceId
    platformSourceVersion := binding.map PlatformBinding.sourceVersion }

/-- The rows that a session has in the relation. -/
def rows (s : SessionRow) : List SessionReferenceRow :=
  (db.accounts.rows.filter fun a => decide (a.principal = s.principal)).flatMap fun a =>
    ((db.memberships.rows.filter fun m => decide (m.principal = s.principal)).filter fun m =>
      terms.current db s a m).map fun _ => terms.row s

/-- `identity_session_references`. -/
def relation : List SessionReferenceRow := db.sessions.rows.flatMap (terms.rows db)

end ReferenceTerms

/-- A session without the facts of its login, but for the version of the provider they are from. -/
def SessionRow.withoutFacts (s : SessionRow) : SessionRow × Option ℤ :=
  ({ s with authFacts := none }, s.authFacts.map AuthenticationFacts.providerConfigVersion)

/-- Two databases have the same sessions, but for the facts of their logins, and the same of what
decides whether a session is current. -/
structure Db.SameSessions (db db' : Db) : Prop where
  accounts : db.accounts = db'.accounts
  memberships : db.memberships = db'.memberships
  providers : db.providers = db'.providers
  externalIdentities : db.externalIdentities = db'.externalIdentities
  sessions : db.sessions.rows.map SessionRow.withoutFacts =
    db'.sessions.rows.map SessionRow.withoutFacts

section References

variable {terms : ReferenceTerms} {db db' : Db} {s s' : SessionRow}

/-- A session without its facts determines it up to them. -/
theorem eq_of_withoutFacts (h : s.withoutFacts = s'.withoutFacts) :
    s' = { s with authFacts := s'.authFacts } ∧
      s.authFacts.map AuthenticationFacts.providerConfigVersion =
        s'.authFacts.map AuthenticationFacts.providerConfigVersion := by
  obtain ⟨hrow, hversion⟩ := Prod.mk.inj h
  refine ⟨?_, hversion⟩
  cases s
  cases s'
  simp only [SessionRow.mk.injEq, and_true] at hrow ⊢
  tauto

/-- The rows of a session are the same where it is the same but for its facts. -/
theorem references_congr (h : db.SameSessions db') (hs : s.withoutFacts = s'.withoutFacts) :
    terms.rows db s = terms.rows db' s' := by
  obtain ⟨hrow, hversion⟩ := eq_of_withoutFacts hs
  have hoidc : ReferenceTerms.oidcCurrent db s = ReferenceTerms.oidcCurrent db' s' := by
    simp only [ReferenceTerms.oidcCurrent, h.externalIdentities, h.providers, hversion]
    rw [hrow]
  have hplatform : terms.platformCurrent db s = terms.platformCurrent db' s' := by
    have hbinding : ReferenceTerms.bindingCurrent db = ReferenceTerms.bindingCurrent db' := by
      funext principal named
      simp only [ReferenceTerms.bindingCurrent, h.externalIdentities, h.providers]
    simp only [ReferenceTerms.platformCurrent, hbinding]
    rw [hrow]
  have hcurrent : terms.current db s = terms.current db' s' := by
    funext a m
    simp only [ReferenceTerms.current, hoidc, hplatform]
    rw [hrow]
  simp only [ReferenceTerms.rows, hcurrent, h.accounts, h.memberships]
  rw [hrow]
  rfl

/-- The relation shows nothing of the facts of a login. -/
theorem referenceRelation_congr (h : db.SameSessions db') :
    terms.relation db = terms.relation db' :=
  flatMap_of_map (fun _ _ hs => references_congr h hs) h.sessions

end References

end IdentityAuthority
