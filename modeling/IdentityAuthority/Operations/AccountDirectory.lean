import IdentityAuthority.Core.FilterRules
import IdentityAuthority.Core.StateToken
import IdentityAuthority.Operations.AccountRows
import IdentityAuthority.Operations.Personnel
import IdentityAuthority.Relational.Seek
import IdentityAuthority.Storage.Credentials
import IdentityAuthority.Storage.Expiry
import Mathlib.Data.List.Lex

/-!
# Listing accounts

A query is answered page by page. The cursor that leads from one page to the next is signed, is bound
to the session, the generation of the tables and the query, and ends with the validity window of the
page it came from.
-/

namespace IdentityAuthority

open Relational Json Encoding

section Order

theorem toList_loop (bs : ByteArray) (i : ℕ) (r : List UInt8) :
    ByteArray.toList.loop bs i r = r.reverse ++ bs.data.toList.drop i := by
  induction h : bs.size - i generalizing i r with
  | zero =>
    rw [ByteArray.toList.loop, if_neg (by omega), List.drop_eq_nil_of_le, List.append_nil]
    rw [Array.length_toList]
    exact Nat.le_of_sub_eq_zero h
  | succ n ih =>
    have hlt : i < bs.data.toList.length := by
      rw [Array.length_toList]
      exact Nat.lt_of_sub_eq_succ h
    have hget : bs.get! i = bs.data.toList[i] := by
      rw [Array.length_toList] at hlt
      simp only [ByteArray.get!, Array.getElem_toList]
      exact getElem!_pos bs.data i hlt
    rw [ByteArray.toList.loop, if_pos (Nat.lt_of_sub_eq_succ h), ih _ _ (by omega),
      List.drop_eq_getElem_cons hlt, hget]
    simp

/-- The bytes of a text as numbers. -/
theorem bytes_eq (s : String) : bytes s = (textBytes s).map UInt8.toNat := by
  rw [bytes, textBytes, ByteArray.toList, toList_loop]
  rfl

theorem bytes_injective : Function.Injective bytes := by
  intro s t h
  rw [bytes_eq, bytes_eq] at h
  exact textBytes_injective (List.map_injective_iff.mpr (fun _ _ => UInt8.toNat.inj) h)

/-- The place of a value: texts by their bytes, truth values by themselves. -/
def Scalar.place : Scalar → ℕ ×ₗ List ℕ
  | text value => toLex (0, bytes value)
  | truth value => toLex (1, [value.toNat])

theorem Scalar.place_injective : Function.Injective Scalar.place := by
  rintro (s | b) (t | c) h
  · have hbytes := (Prod.mk.inj (toLex_inj.mp h)).2
    rw [bytes_injective hbytes]
  · exact absurd (Prod.mk.inj (toLex_inj.mp h)).1 (by decide)
  · exact absurd (Prod.mk.inj (toLex_inj.mp h)).1 (by decide)
  · cases b <;> cases c <;> first | rfl | exact absurd h (by decide)

/-- The order of values in a column; no column has values of both kinds. -/
instance : LinearOrder Scalar :=
  letI : LinearOrder ℕ := Nat.instLinearOrder
  LinearOrder.lift' Scalar.place Scalar.place_injective

/-- Texts are ordered as the filters compare them. -/
theorem Scalar.text_lt {s t : String} :
    Scalar.text s < .text t ↔ (Scalar.text s).before (.text t) = true := by
  change toLex (0, bytes s) < toLex (0, bytes t) ↔ _
  simp [Prod.Lex.toLex_lt_toLex, before]

/-- Truth values are ordered as the filters compare them. -/
theorem Scalar.truth_lt {b c : Bool} :
    Scalar.truth b < .truth c ↔ (Scalar.truth b).before (.truth c) = true := by
  change toLex (1, [b.toNat]) < toLex (1, [c.toNat]) ↔ _
  cases b <;> cases c <;> decide

end Order

section Conditions

variable (value : RowTest → Truth)

/-- The truth value of the comparisons with each operand, joined; there is none without operands. -/
def comparisonValue (field : Field) (op : Operator) : List String → Option Truth
  | [] => none
  | [operand'] => do
    let found ← column field
    let relation ← comparator op
    pure (value (.compare found relation (operand field operand')))
  | operand' :: next :: operands => do
    let found ← column field
    let relation ← comparator op
    let rest ← comparisonValue field op (next :: operands)
    pure ((if op = .notAmong then Connective.and else .or).apply
      (value (.compare found relation (operand field operand'))) rest)

/-- The truth value of one comparison of a filter. -/
def testValue (field : Field) (op : Operator) (values : List String) : Option Truth :=
  if field = .department ∨ field = .departmentSubtree then do
    let id ← values.head?
    pure ((value .departmentAvailable).and
      (value (.ancestor (decide (field = .departmentSubtree)) id)))
  else if op.nullTest then do
    let found ← column field
    pure (value (if op = .isNull then .isNull found else .isNotNull found))
  else if op = .contains then do
    let found ← column field
    let part ← values.head?
    pure (value (.contains found part))
  else comparisonValue value field op values

mutual

/-- The truth value of the condition that a filter becomes. -/
def conditionValue : Expression → Option Truth
  | .and items => conditionsValue .and items
  | .or items => conditionsValue .or items
  | .compare field op values => testValue value field op values

/-- The truth value of the conditions of a list, joined. -/
def conditionsValue (connective : Connective) : List Expression → Option Truth
  | [] => none
  | [item] => conditionValue item
  | item :: next :: items => do
    let first ← conditionValue item
    let rest ← conditionsValue connective (next :: items)
    pure (connective.apply first rest)

end

end Conditions

section Written

variable {value : RowTest → Truth} {format : UuidFormat}

/-- The comparisons have the truth value that they are written for. -/
theorem comparisonValue_written {field : Field} {op : Operator} {values : List String}
    {pieces : List (Piece RowTest)} (h : comparePieces field op values = some pieces)
    (hne : values ≠ []) : ∃ t, comparisonValue value field op values = some t ∧
      Written value (some (if op = .notAmong then .and else .or)) pieces t := by
  induction values generalizing pieces with
  | nil => exact absurd rfl hne
  | cons operand' values ih =>
    cases values with
    | nil =>
      simp only [comparePieces, Option.bind_eq_bind, Option.bind_eq_some_iff, Option.pure_def,
        Option.some.injEq] at h
      obtain ⟨found, hfound, relation, hrelation, rfl⟩ := h
      refine ⟨value (.compare found relation (operand field operand')), ?_, .last (.test _)⟩
      simp only [comparisonValue, hfound, hrelation, Option.bind_eq_bind, Option.bind_some,
        Option.pure_def]
    | cons next values =>
      simp only [comparePieces, Option.bind_eq_bind, Option.bind_eq_some_iff, Option.pure_def,
        Option.some.injEq] at h
      obtain ⟨found, hfound, relation, hrelation, rest, hrest, rfl⟩ := h
      obtain ⟨t, ht, hwritten⟩ := ih hrest (by simp)
      let test := RowTest.compare found relation (operand field operand')
      refine ⟨(if op = .notAmong then Connective.and else .or).apply (value test) t, ?_,
        .more (.test test) hwritten⟩
      simp only [comparisonValue, hfound, hrelation, ht, Option.bind_eq_bind, Option.bind_some,
        Option.pure_def, test]

theorem testValue_written {field : Field} {op : Operator} {values : List String}
    {pieces : List (Piece RowTest)} (h : testPieces field op values = some pieces)
    (hne : values ≠ []) : ∃ t connective, testValue value field op values = some t ∧
      Written value (some connective) pieces t := by
  unfold testPieces at h
  unfold testValue
  split at h
  · rename_i hdepartment
    simp only [Option.bind_eq_bind, Option.bind_eq_some_iff, Option.pure_def, Option.some.injEq] at h
    obtain ⟨id, hid, rfl⟩ := h
    let test := RowTest.ancestor (decide (field = .departmentSubtree)) id
    refine ⟨(value .departmentAvailable).and (value test), .and, ?_,
      .more (.test RowTest.departmentAvailable) (.last (.test test))⟩
    rw [if_pos hdepartment, hid]
    rfl
  · rename_i hdepartment
    rw [if_neg hdepartment]
    split at h
    · rename_i hnull
      simp only [Option.bind_eq_bind, Option.bind_eq_some_iff, Option.pure_def, Option.some.injEq] at h
      obtain ⟨found, hfound, rfl⟩ := h
      let test := if op = .isNull then RowTest.isNull found else .isNotNull found
      refine ⟨value test, .or, ?_, .last (.test test)⟩
      rw [if_pos hnull, hfound]
      rfl
    · rename_i hnull
      rw [if_neg hnull]
      split at h
      · rename_i hcontains
        simp only [Option.bind_eq_bind, Option.bind_eq_some_iff, Option.pure_def,
          Option.some.injEq] at h
        obtain ⟨found, hfound, part, hpart, rfl⟩ := h
        refine ⟨value (.contains found part), .or, ?_, .last (.test (RowTest.contains found part))⟩
        rw [if_pos hcontains, hfound, hpart]
        rfl
      · rename_i hcontains
        rw [if_neg hcontains]
        obtain ⟨t, ht, hwritten⟩ := comparisonValue_written h hne
        exact ⟨t, _, ht, hwritten⟩

mutual

/-- The truth value of a filter is the one that its pieces have, however they are read. -/
theorem conditionValue_written (e : Expression) (hwell : e.WellFormed format)
    {pieces : List (Piece RowTest)} (h : filterPieces e = some pieces) :
    ∃ t, conditionValue value e = some t ∧ Written value none pieces t := by
  match e with
  | .compare field op values =>
    obtain ⟨inner, hinner, rfl⟩ := Option.map_eq_some_iff.mp h
    have hne : values ≠ [] := by
      rintro rfl
      have hcount := ComparisonRules.count hwell
      split at hcount <;> simp at hcount
    obtain ⟨t, c, ht, hwritten⟩ := testValue_written hinner hne
    exact ⟨t, ht, .group hwritten⟩
  | .and items =>
    obtain ⟨inner, hinner, rfl⟩ := Option.map_eq_some_iff.mp h
    obtain ⟨t, ht, hwritten⟩ := conditionsValue_written .and items hwell.2
      (by rintro rfl; exact absurd hwell.1 (by decide)) hinner
    exact ⟨t, ht, .group hwritten⟩
  | .or items =>
    obtain ⟨inner, hinner, rfl⟩ := Option.map_eq_some_iff.mp h
    obtain ⟨t, ht, hwritten⟩ := conditionsValue_written .or items hwell.2
      (by rintro rfl; exact absurd hwell.1 (by decide)) hinner
    exact ⟨t, ht, .group hwritten⟩

theorem conditionsValue_written (connective : Connective) (items : List Expression)
    (hwell : WellFormedItems format items) (hne : items ≠ []) {pieces : List (Piece RowTest)}
    (h : itemPieces connective items = some pieces) :
    ∃ t, conditionsValue value connective items = some t ∧
      Written value (some connective) pieces t := by
  match items with
  | [] => exact absurd rfl hne
  | [item] =>
    obtain ⟨t, ht, hwritten⟩ := conditionValue_written item hwell.1 h
    exact ⟨t, ht, .last hwritten⟩
  | item :: next :: items =>
    obtain ⟨first, hfirst, hitems⟩ := Option.bind_eq_some_iff.mp h
    obtain ⟨rest, hrest, rfl⟩ := Option.map_eq_some_iff.mp hitems
    obtain ⟨s, hs, hwritten⟩ := conditionValue_written item hwell.1 hfirst
    obtain ⟨t, ht, hwrittenRest⟩ :=
      conditionsValue_written connective (next :: items) hwell.2 (by simp) hrest
    refine ⟨connective.apply s t, ?_, .more hwritten hwrittenRest⟩
    rw [conditionsValue, hs, ht]
    rfl

end

end Written

/-- An account as a listing shows it (`AccountDirectoryRow`). -/
structure AccountDirectoryRow where
  principalId : String
  login : Option String
  enabled : Bool
  memberActive : Bool
  hasLocalPassword : Bool
  displayName : Option String
  email : Option String
  profileStatus : String
  departmentStatus : String
  departmentSnapshot : Option DepartmentSnapshot

/-- Reads a row that the database gave as a document. -/
def DirectoryRow.read (row : DirectoryRow) : Option AccountDirectoryRow := do
  let snapshot ← match row.departmentSnapshot with
    | none => some none
    | some document => (DepartmentSnapshot.ofJson document).map some
  pure
    { principalId := row.principalId
      login := row.login
      enabled := row.enabled
      memberActive := row.memberActive
      hasLocalPassword := row.hasLocalPassword
      displayName := row.displayName
      email := row.email
      profileStatus := row.profileStatus
      departmentStatus := row.departmentStatus
      departmentSnapshot := snapshot }

/-- A page of a listing (`AccountPage`). -/
structure AccountPage where
  accounts : List AccountDirectoryRow
  fields : List Field
  nextCursor : Option String

/-- Where a listing goes on (`Cursor`). -/
structure Cursor where
  binding : List UInt8
  expires : ℤ
  position : List Value

/-- The document of a cursor. -/
def Cursor.json (cursor : Cursor) : Value :=
  .object
    [("binding", .array (cursor.binding.map byteJson)), ("expires", integerJson cursor.expires),
      ("position", .array cursor.position)]

/-- A value that a column has in a document. -/
def scalarJson : Option Scalar → Value
  | none => .null
  | some (.text s) => .string s
  | some (.truth b) => .bool b

/-- The value that a position binds for a column; other values are refused before. -/
def boundScalar (field : Field) : Value → Option (Option Scalar)
  | .null => some none
  | .bool b => if field.boolean then some (some (.truth b)) else none
  | .string s => if field.boolean then none else some (some (.text s))
  | _ => none

/-- `serde_json::from_slice` of a cursor: what was written of one with values of columns is read. -/
structure CursorReader where
  read : List UInt8 → Option Cursor
  read_cursor : ∀ cursor : Cursor, isI64 cursor.expires = true →
    (∀ value ∈ cursor.position, ∃ v, value = scalarJson v) → read (jsonBytes cursor.json) = some cursor

/-- What the directory of one tenant is composed with. -/
structure AccountDirectory where
  tenant : String
  uuids : UuidFormat
  collation : DefaultCollation
  hmac : HmacSha256
  sha256 : List UInt8 → List UInt8
  reader : CursorReader
  cursorKey : List UInt8
  length_sha256 : ∀ message, (sha256 message).length = 32
  text_ne_local : ∀ id, uuids.text id ≠ "local"

/-- What the signature of a cursor is taken over. -/
def signedCursor (plain : List UInt8) : List UInt8 :=
  textBytes "identity.accounts.cursor.v1\x00" ++ plain

namespace AccountQuery

/-- The source of a query as a text. -/
def sourceText (uuids : UuidFormat) : ProfileSource → String
  | .identityLocal => "local"
  | .idp provider => uuids.text provider.uuid

mutual

/-- The document of a filter. -/
def filterJson : Expression → Value
  | .compare field op values =>
    .object [("Compare", .object
      [("field", .string field.name), ("operator", .string op.text),
        ("values", .array (values.map .string))])]
  | .and items => .object [("And", .array (filtersJson items))]
  | .or items => .object [("Or", .array (filtersJson items))]

/-- The documents of filters. -/
def filtersJson : List Expression → List Value
  | [] => []
  | item :: items => filterJson item :: filtersJson items

end

/-- The document of a query. -/
def json (uuids : UuidFormat) (query : AccountQuery) : Value :=
  .object
    [("filter", query.filter.elim .null filterJson),
      ("sort", .array (query.sort.map fun s =>
        .object [("field", .string s.field.name), ("descending", .bool s.descending)])),
      ("fields", .array (query.fields.map fun field => .string field.name)),
      ("source", (query.source.map (sourceText uuids)).elim .null .string),
      ("limit", integerJson query.limit)]

/-- The direction of each column to order by. -/
def directions (query : AccountQuery) : List Bool := query.sort.map SortKey.descending

/-- The columns of a row to order by. -/
def columns (query : AccountQuery) (row : DirectoryRow) : List (Option Scalar) :=
  query.sort.map fun s => row.scalar s.field

/-- The filter of a query selects a row. -/
def selects (query : AccountQuery) (collation : DefaultCollation) (row : DirectoryRow) : Bool :=
  match query.filter with
  | none => true
  | some e => ((conditionValue (RowTest.value collation row) e).getD none).holds

/-- What the policy is asked before a query is answered. -/
def operations (query : AccountQuery) : List ManagementOperation :=
  .listAccounts :: ((if query.needsProfiles then [.readLatestProfile] else []) ++
    if query.needsDepartments then [.readLatestDepartments] else [])

/-- What the relation is asked with for a query. -/
def terms (query : AccountQuery) (limits : ProfileLimits) (now : ℤ) : DirectoryTerms where
  source := query.source
  now
  profiles := query.needsProfiles
  departments := query.needsDepartments
  maxAge := limits.maxAge

/-- The position that a cursor names, if it has a value of its kind for each column. -/
def seekPosition (query : AccountQuery) (values : List Value) : Option (List (Option Scalar)) :=
  if values.length = query.sort.length then
    (query.sort.zip values).mapM fun found => boundScalar found.1.field found.2
  else none

end AccountQuery

/-- A query selects the rows that its written condition is true of, however the pieces are read. -/
theorem AccountQuery.selects_eq {format : UuidFormat} (hformat : format.Standard)
    {query : AccountQuery} (haccepted : query.Accepted format) {e : Expression}
    (he : query.filter = some e) {collation : DefaultCollation} {row : DirectoryRow}
    {pieces : List (Piece RowTest)} (hpieces : filterPieces e = some pieces) {t : Truth}
    (hread : Reading (RowTest.value collation row) pieces t) :
    query.selects collation row = t.holds := by
  obtain ⟨raw, hparse⟩ := haccepted.filter e he
  obtain ⟨t', ht', hwritten⟩ :=
    conditionValue_written e (parseFilter_wellFormed hformat hparse) hpieces
  rw [hread.value_eq hwritten, selects, he]
  simp only [ht', Option.getD_some]

namespace AccountDirectory

variable (directory : AccountDirectory)

/-- Signs a cursor (`encode`). -/
def encode (cursor : Cursor) : String :=
  let plain := jsonBytes cursor.json
  Base64Url.text (directory.hmac.tag directory.cursorKey (signedCursor plain) ++ plain)

/-- Reads a signed cursor (`decode`). -/
def decode (raw : String) : Except Failure Cursor := do
  let bytes ← (Base64Url.decode raw.toList).elim (.error .invalidInput) .ok
  if bytes.length ≤ 32 ∨ 4096 < bytes.length then .error .invalidInput
  else if directory.hmac.tag directory.cursorKey (signedCursor (bytes.drop 32)) ≠ bytes.take 32 then
    .error .cursorInvalidated
  else (directory.reader.read (bytes.drop 32)).elim (.error .invalidInput) .ok

/-- What a cursor is bound to. -/
def boundTo (instanceId : Uuid) (key : AccountKey) (session : SessionId) (generation : ℤ)
    (query : AccountQuery) : Value :=
  .array
    [.string (directory.uuids.text instanceId), .string directory.tenant,
      .string (directory.uuids.text key.uuid), .string (directory.uuids.text session.uuid),
      integerJson generation, query.json directory.uuids]

/-- The position after which a page starts, if the cursor is one for this query and these tables. -/
def seek (query : AccountQuery) (binding : List UInt8) (now : ℤ) :
    Option String → Except Failure (Option (List (Option Scalar)))
  | none => .ok none
  | some raw => do
    let cursor ← directory.decode raw
    if cursor.binding ≠ binding ∨ cursor.expires ≤ now then .error .cursorInvalidated
    else (query.seekPosition cursor.position).elim (.error .invalidInput) fun p => .ok (some p)

/-- The rows that a query is about. -/
def rows (env : Env) (query : AccountQuery) (now : ℤ) (db : Db) : List DirectoryRow :=
  ((query.terms env.profileLimits now).relation db directory.uuids).filter
    (query.selects directory.collation)

/-- A page of the rows, after a position. -/
def page (env : Env) (query : AccountQuery) (now : ℤ) (position : Option (List (Option Scalar)))
    (db : Db) : Page Scalar DirectoryRow :=
  Relational.page query.directions query.columns query.limit position (directory.rows env query now db)

end AccountDirectory

/-- The ends of a fact that is available: before the first it is not yet valid. -/
def DepartmentObservation.boundaries : DepartmentObservation → List ℤ
  | unavailable _ => []
  | available _ observedAt expiresAt _ => [observedAt, expiresAt]

/-- `DISTINCT ON (s.principal_id)`: the department of each account's latest login at a source. -/
def latestDepartments (db : Db) (source : Option ProfileSource) : List DepartmentObservation :=
  ((sourced db source).map SessionRow.principal).dedup.filterMap fun principal =>
    ((latestSourced db source principal).bind SessionRow.authFacts).map
      AuthenticationFacts.departmentSnapshot

/-- The next boundary of a department (`department-expiry.sql`). -/
def departmentUntil (db : Db) (source : ProfileSource) (now : ℤ) : Option ℤ :=
  (((latestDepartments db (some source)).flatMap DepartmentObservation.boundaries).filter fun t =>
    decide (now < t)).min?

/-- How long what is read at a time is good for, with the departments of a source. -/
def relationsUntil (db : Db) (maxAge : Option ℤ) (departments : Option ProfileSource) (now : ℤ)
    (actorUntil : Option ℤ) : ℤ :=
  let next := least (sessionEnds db now ++ maxAge.elim [] fun age => observationEnds db age now)
  let next := least [next, departments.bind fun source => departmentUntil db source now]
  min (min (next.getD i64Max) (actorUntil.getD i64Max)) (saturatingAdd now 60)

/-- Samples the time of a read, and how long it is good for (`read_window`). -/
def readWindowOf (maxAge : Option ℤ) (departments : Option ProfileSource) (expires : ℤ)
    (actorUntil : Option ℤ) : Action PersonnelWindow := do
  let sampled ← Tx.clockTimestamp
  let micros ← Tx.clockTimestamp
  let db ← Tx.query id
  let now := seconds micros
  let validUntil := relationsUntil db maxAge departments now actorUntil
  pure
    { generation := db.tenantGuard.personnelRevision
      validUntil
      now
      expires := min expires (sampled + remainingMicros validUntil micros) }

/-- Asks the policy about one operation after the other. -/
def authorizeEach (env : Env) (loaded : Loaded) : List ManagementOperation → Action Unit
  | [] => pure ()
  | operation :: rest => do
    authorize env loaded operation none
    authorizeEach env loaded rest

/-- Answers one page of a query (`list_accounts`). The deadline is the earlier of those of the call
and of the actor's proof. -/
def listAccounts (env : Env) (directory : AccountDirectory) (actor : AuthenticatedSession)
    (query : AccountQuery) (cursor : Option String) (deadline : ℤ) : Action AccountPage := do
  Tx.require (∀ raw ∈ cursor, raw ≠ "" ∧ raw.utf8ByteSize ≤ 4096) .invalidInput
  let loaded ← recheck env actor
  authorizeEach env loaded query.operations
  let window ← readWindowOf (if query.needsProfiles then some env.profileLimits.maxAge else none)
    (if query.needsDepartments then query.source else none) deadline
    (some (min loaded.view.idleExpiresAt loaded.view.absoluteExpiresAt))
  let binding := directory.sha256 (jsonBytes (directory.boundTo env.instanceId actor.key
    loaded.view.id window.generation query))
  let position ← Tx.ofExcept (directory.seek query binding window.now cursor)
  let db ← Tx.query id
  let found := directory.page env query window.now position db
  let accounts ← Tx.demand (found.rows.mapM DirectoryRow.read) .corrupt
  let instant ← Tx.clockTimestamp
  Tx.require (instant < window.expires) .rejected
  pure
    { accounts
      fields := query.fields
      nextCursor := found.next.map fun next =>
        directory.encode ⟨binding, window.validUntil, next.map scalarJson⟩ }

end IdentityAuthority
