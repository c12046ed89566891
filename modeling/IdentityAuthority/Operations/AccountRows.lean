import IdentityAuthority.Operations.PersonnelRelations
import IdentityAuthority.Operations.SessionListing
import IdentityAuthority.Storage.DirectoryFilter
import IdentityAuthority.Storage.FactsCodec
import Mathlib.Data.List.MinMax
import Mathlib.Data.Prod.Lex

/-!
# The rows of the account directory

One row for each account: its own columns, what the latest observation at a source shows, and what the
latest login at the source said of the department. Both judgements are written as cases over columns
that an outer join may leave missing.
-/

namespace IdentityAuthority

open Relational Json

/-- What the relation is asked with: the source, the time, which of the protected columns, and the
age at which an observation is over. -/
structure DirectoryTerms where
  source : Option ProfileSource
  now : ℤ
  profiles : Bool
  departments : Bool
  maxAge : ℤ

/-- A row of the joined tables. -/
structure DirectoryJoin extends PersonnelJoin where
  ds : Option SessionRow
  de : Option ExternalIdentityRow
  dp : Option ProviderRow

/-- `profile_status` as a text. -/
def ProfileStatus.wire : ProfileStatus → String
  | available => "available"
  | missing => "missing"
  | expired => "expired"
  | unavailable => "unavailable"

/-- What sessions are looked for by: their facts, their epochs and themselves. -/
def Recency : Type := (WithTop ℤ)ᵒᵈ ×ₗ ℤᵒᵈ ×ₗ ℤᵒᵈ ×ₗ SessionId

/-- The latest facts come first, then the latest epochs. In a descending order missing values are
the first ones. -/
instance : LinearOrder Recency :=
  letI : LinearOrder ℤ := Int.instLinearOrder
  inferInstanceAs (LinearOrder ((WithTop ℤ)ᵒᵈ ×ₗ ℤᵒᵈ ×ₗ ℤᵒᵈ ×ₗ SessionId))

/-- The place of a session in that order. -/
def SessionRow.recency (s : SessionRow) : Recency :=
  toLex (OrderDual.toDual (s.factsSequence.elim ⊤ WithTop.some),
    toLex (OrderDual.toDual s.authEpoch, toLex (OrderDual.toDual s.membershipEpoch, s.session)))

/-- The sessions of logins at a source: `JOIN` with the external identities of its provider. -/
def sourced (db : Db) (source : Option ProfileSource) : List SessionRow :=
  db.sessions.rows.flatMap fun s =>
    (db.externalIdentities.rows.filter fun e => decide (some e.identity = s.externalIdentity ∧
      some (.idp e.provider) = source)).map fun _ => s

/-- The session of an account's latest login at a source. -/
def latestSourced (db : Db) (source : Option ProfileSource) (principal : PrincipalId) :
    Option SessionRow :=
  ((sourced db source).filter fun s => decide (s.principal = principal)).argmin SessionRow.recency

namespace DirectoryTerms

variable (terms : DirectoryTerms) (db : Db)

/-- The `ON` of the observations. -/
def observes (principal : PrincipalId) (o : ProfileObservationRow) : Bool :=
  decide (o.principal = principal ∧ some o.source = terms.source)

/-- The `ON` of the identity that the latest login was with. -/
def identifies (principal : PrincipalId) (ds : Option SessionRow) (e : ExternalIdentityRow) : Bool :=
  decide (e.principal = principal ∧ some e.identity = ds.bind SessionRow.externalIdentity)

/-- The `FROM` of the relation. -/
def joined : List DirectoryJoin :=
  db.accounts.rows.flatMap fun a =>
    (db.memberships.rows.filter fun m => decide (m.principal = a.principal)).flatMap fun m =>
      (leftJoin db.localCredentials.rows fun l => decide (l.principal = a.principal)).flatMap fun l =>
        (leftJoin db.profileObservations.rows (terms.observes a.principal)).flatMap fun o =>
          (leftJoin db.providers.rows fun p => decide (some p.provider = o.bind
            ProfileObservationRow.provider)).flatMap fun p =>
            (leftJoin (latestSourced db terms.source a.principal).toList fun _ =>
              terms.departments).flatMap fun ds =>
              (leftJoin db.externalIdentities.rows (identifies a.principal ds)).flatMap fun de =>
                (leftJoin db.providers.rows fun p => decide (some p.provider = de.map
                  ExternalIdentityRow.provider)).map fun dp => ⟨⟨a, m, l, o, p⟩, ds, de, dp⟩

/-- `LEAST(o.expires_at,o.observed_at+$6)`. -/
def ends (j : DirectoryJoin) : Option ℤ :=
  j.o.map fun o => min o.expiresAt (o.observedAt + terms.maxAge)

/-- `profileStatus`. -/
def profileStatus (j : DirectoryJoin) : ProfileStatus :=
  let j' := j.toPersonnelJoin
  let current := (PersonnelTerms.asObserved db j').known
  if terms.profiles = false then .unavailable
  else if PersonnelTerms.active j' = false then .unavailable
  else if j.o.isNone then .missing
  else if ((PersonnelTerms.isLocal j').not.and current.not).holds then .unavailable
  else if (Truth.compare (fun t n => decide (n < t)) (j.o.map ProfileObservationRow.observedAt)
    (some terms.now)).holds then .unavailable
  else if (Truth.compare (fun e n => decide (e ≤ n)) (terms.ends j) (some terms.now)).holds then
    .expired
  else .available

/-- `displayName` and `email`: the value of one attribute of an available observation. -/
def shown (pick : Profile → Attribute String) (j : DirectoryJoin) : Option String :=
  if terms.profileStatus db j = .available then j.o.bind fun o => (pick o.value).value else none

/-- The provider of the latest login is enabled and as it was then, and so is the account. -/
def departmentCurrent (j : DirectoryJoin) : Truth :=
  let enabled : Truth := j.dp.map ProviderRow.enabled
  let version := Truth.compare (fun m n => decide (m = n)) (j.dp.map ProviderRow.configVersion)
    ((j.ds.bind SessionRow.authFacts).map AuthenticationFacts.providerConfigVersion)
  let revocation := Truth.compare (fun m n => decide (m = n)) (j.dp.map ProviderRow.revocationEpoch)
    (j.ds.bind SessionRow.providerEpoch)
  let auth := Truth.compare (fun m n => decide (m = n)) (j.ds.map SessionRow.authEpoch)
    (some j.a.authEpoch)
  let membership := Truth.compare (fun m n => decide (m = n)) (j.ds.map SessionRow.membershipEpoch)
    (some j.m.epoch)
  (((enabled.and version).and revocation).and auth).and membership

/-- `departmentStatus`. -/
def departmentStatus (j : DirectoryJoin) : String :=
  if terms.departments = false ∨ PersonnelTerms.active j.toPersonnelJoin = false then "unavailable"
  else
    match j.ds.bind SessionRow.authFacts with
    | none => "missing"
    | some facts =>
      if (departmentCurrent j).known.not.holds then "unavailable"
      else
        match facts.departmentSnapshot with
        | .unavailable reason => reason.wire
        | .available _ observedAt expiresAt _ =>
          if terms.now < observedAt then "not_yet_valid"
          else if expiresAt ≤ terms.now then "expired"
          else "available"

/-- `departmentSnapshot`: the tree of an available department. -/
def departmentSnapshot (j : DirectoryJoin) : Option Value :=
  if terms.departmentStatus j = "available" then
    match (j.ds.bind SessionRow.authFacts).map AuthenticationFacts.departmentSnapshot with
    | some (.available _ _ _ snapshot) => some snapshot.json
    | _ => none
  else none

/-- The columns of a joined row. -/
def row (uuids : UuidFormat) (j : DirectoryJoin) : DirectoryRow where
  principalId := uuids.text j.a.principal.uuid
  login := j.l.map LocalCredentialRow.loginKey
  enabled := j.a.enabled
  memberActive := j.m.active
  hasLocalPassword := j.l.isSome
  displayName := terms.shown db Profile.displayName j
  email := terms.shown db Profile.email j
  profileStatus := (terms.profileStatus db j).wire
  departmentStatus := terms.departmentStatus j
  departmentSnapshot := terms.departmentSnapshot j

/-- `account_rows`. -/
def relation (uuids : UuidFormat) : List DirectoryRow := (terms.joined db).map (terms.row db uuids)

end DirectoryTerms

section Directory

variable {terms : DirectoryTerms} {db : Db} {j : DirectoryJoin}

/-- The row under a key, if it meets a condition, joins by that condition. -/
theorem leftJoin_keyed {α κ : Type} [Keyed α κ] (t : Table α) {on : α → Bool} {k : κ} {p : α → Bool}
    (hon : ∀ r, on r = (p r && decide (key r = k))) :
    leftJoin t.rows on = [(t.find? k).filter p] := by
  have hrow := leftJoin_key t k
  cases hfound : t.find? k with
  | none =>
    refine leftJoin_none fun r hr => ?_
    rw [hon, decide_eq_false (Table.find?_eq_none.mp hfound r hr), Bool.and_false]
  | some r =>
    obtain ⟨hr, hkey⟩ := Table.find?_eq_some.mp hfound
    cases hp : p r with
    | true =>
      have hsame : ∀ s ∈ t.rows, on s = decide (key s = k) := by
        intro s hs
        rw [hon]
        by_cases hsk : key s = k
        · rw [Table.eq_of_key hs hr (hsk.trans hkey.symm), hp, Bool.true_and]
        · rw [decide_eq_false hsk, Bool.and_false]
      rw [leftJoin_congr hsame, hrow, hfound, Option.filter_some, hp, if_pos rfl]
    | false =>
      have hnone : ∀ s ∈ t.rows, on s = false := by
        intro s hs
        rw [hon]
        by_cases hsk : key s = k
        · rw [Table.eq_of_key hs hr (hsk.trans hkey.symm), hp, Bool.false_and]
        · rw [decide_eq_false hsk, Bool.and_false]
      rw [leftJoin_none hnone, Option.filter_some, hp]
      rfl

/-- The observation of an account at the source. -/
def DirectoryTerms.observation (terms : DirectoryTerms) (db : Db) (principal : PrincipalId) :
    Option ProfileObservationRow :=
  terms.source.bind fun source => db.profileObservations.find? (principal, source)

theorem leftJoin_observes (principal : PrincipalId) :
    leftJoin db.profileObservations.rows (terms.observes principal) =
      [terms.observation db principal] := by
  unfold DirectoryTerms.observation
  cases hsource : terms.source with
  | none =>
    refine leftJoin_none fun o _ => ?_
    simp [DirectoryTerms.observes, hsource]
  | some source =>
    have hkey : ∀ o ∈ db.profileObservations.rows, terms.observes principal o =
        decide (key o = (principal, source)) := by
      intro o _
      simp only [DirectoryTerms.observes, hsource, Option.some.injEq]
      exact decide_eq_decide.mpr Prod.mk_inj.symm
    rw [leftJoin_congr hkey, leftJoin_key, Option.bind_some]

/-- A provider is joined by its key, where there is something to join it by. -/
theorem leftJoin_provider (db : Db) (id : Option ProviderId) :
    (leftJoin db.providers.rows fun p => decide (some p.provider = id)) =
      [id.bind db.providers.find?] := by
  cases id with
  | none => exact leftJoin_none fun p _ => by simp
  | some id =>
    rw [Option.bind_some, ← leftJoin_key]
    exact leftJoin_congr fun p _ => decide_eq_decide.mpr Option.some_inj

/-- The identity that a login was with, if it is one of the account. -/
def identityOf (db : Db) (principal : PrincipalId) (ds : Option SessionRow) :
    Option ExternalIdentityRow :=
  ((ds.bind SessionRow.externalIdentity).bind db.externalIdentities.find?).filter fun e =>
    decide (e.principal = principal)

theorem leftJoin_identifies (principal : PrincipalId) (ds : Option SessionRow) :
    leftJoin db.externalIdentities.rows (DirectoryTerms.identifies principal ds) =
      [identityOf db principal ds] := by
  unfold identityOf
  cases hid : ds.bind SessionRow.externalIdentity with
  | none =>
    refine leftJoin_none fun e _ => ?_
    simp [DirectoryTerms.identifies, hid]
  | some id =>
    refine leftJoin_keyed _ fun e => ?_
    simp only [DirectoryTerms.identifies, hid, Option.some.injEq, Bool.decide_and]
    rfl

/-- The session that is joined for the department. -/
def DirectoryTerms.login (terms : DirectoryTerms) (db : Db) (principal : PrincipalId) :
    Option SessionRow :=
  if terms.departments then latestSourced db terms.source principal else none

theorem leftJoin_login (principal : PrincipalId) :
    (leftJoin (latestSourced db terms.source principal).toList fun _ => terms.departments) =
      [terms.login db principal] := by
  unfold DirectoryTerms.login
  cases latestSourced db terms.source principal <;> cases terms.departments <;> rfl

/-- The joined row of an account and its membership. -/
def DirectoryTerms.join (terms : DirectoryTerms) (db : Db) (a : AccountRow) (m : MembershipRow) :
    DirectoryJoin :=
  let o := terms.observation db a.principal
  let ds := terms.login db a.principal
  let de := identityOf db a.principal ds
  { a
    m
    l := db.localCredentials.find? a.principal
    o
    p := (o.bind ProfileObservationRow.provider).bind db.providers.find?
    ds
    de
    dp := (de.map ExternalIdentityRow.provider).bind db.providers.find? }

/-- Every membership of an account is joined to one row of everything else. -/
theorem directoryJoined_eq (terms : DirectoryTerms) (db : Db) :
    terms.joined db = db.accounts.rows.flatMap fun a =>
      (db.memberships.rows.filter fun m => decide (m.principal = a.principal)).map
        (terms.join db a) := by
  unfold DirectoryTerms.joined
  refine List.flatMap_congr fun a _ => ?_
  rw [List.map_eq_flatMap]
  refine List.flatMap_congr fun m _ => ?_
  have hcredential := leftJoin_key db.localCredentials a.principal
  rw [show (leftJoin db.localCredentials.rows fun l => decide (l.principal = a.principal)) =
    [db.localCredentials.find? a.principal] from hcredential]
  simp only [leftJoin_observes, leftJoin_provider, leftJoin_login, leftJoin_identifies,
    List.flatMap_singleton, List.map_singleton, DirectoryTerms.join]

/-- A row of the directory is of an account and its membership. -/
theorem mem_directoryJoined : j ∈ terms.joined db ↔
    ∃ a m, db.accounts.find? a.principal = some a ∧ db.memberships.find? a.principal = some m ∧
      j = terms.join db a m := by
  rw [directoryJoined_eq, List.mem_flatMap]
  constructor
  · rintro ⟨a, ha, hj⟩
    obtain ⟨m, hm, rfl⟩ := List.mem_map.mp hj
    obtain ⟨hmem, hprincipal⟩ := List.mem_filter.mp hm
    rw [decide_eq_true_eq] at hprincipal
    exact ⟨a, m, Table.find?_of_mem ha, Table.find?_eq_some.mpr ⟨hmem, hprincipal⟩, rfl⟩
  · rintro ⟨a, m, ha, hm, rfl⟩
    obtain ⟨hmem, hprincipal⟩ := Table.find?_eq_some.mp hm
    refine ⟨a, Table.mem_of_find? ha, List.mem_map_of_mem (List.mem_filter.mpr ⟨hmem, ?_⟩)⟩
    exact decide_eq_true hprincipal

/-- No account has two rows. -/
theorem directoryJoined_distinct (terms : DirectoryTerms) (db : Db) :
    (terms.joined db).Pairwise fun j k => j.a.principal ≠ k.a.principal := by
  rw [directoryJoined_eq, List.pairwise_flatMap]
  constructor
  · intro a _
    rw [List.pairwise_map]
    -- All memberships that are left are of this account, so there is one at most.
    refine List.Pairwise.imp_of_mem ?_ (db.memberships.compatible.filter _)
    intro m n hm hn hne
    have hm' := of_decide_eq_true (List.mem_filter.mp hm).2
    have hn' := of_decide_eq_true (List.mem_filter.mp hn).2
    exact absurd (hm'.trans hn'.symm) hne.1
  · refine db.accounts.compatible.imp fun hne j hj k hk => ?_
    obtain ⟨m, -, rfl⟩ := List.mem_map.mp hj
    obtain ⟨n, -, rfl⟩ := List.mem_map.mp hk
    exact hne.1

end Directory

end IdentityAuthority
