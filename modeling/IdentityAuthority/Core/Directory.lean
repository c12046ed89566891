import IdentityAuthority.Core.FilterAcceptance
import IdentityAuthority.Core.Profile

/-!
# Account queries

What a client may ask of the account directory, read from bounded texts. A filter is a tree of
comparisons; the order ends with the unique principal; fields of profiles and departments need the
source they are read at.
-/

namespace IdentityAuthority

/-- A column to order by. -/
structure SortKey where
  field : Field
  descending : Bool
deriving DecidableEq

/-- A query of the account directory. -/
structure AccountQuery where
  filter : Option Expression
  sort : List SortKey
  fields : List Field
  source : Option ProfileSource
  limit : ℕ

namespace AccountQuery

/-- All columns a query uses. -/
def usedFields (query : AccountQuery) : List Field :=
  query.fields ++ query.sort.map SortKey.field ++ query.filter.elim [] Expression.fields

/-- `needs_profiles`. -/
def needsProfiles (query : AccountQuery) : Bool := query.usedFields.any Field.profile

/-- `needs_departments`. -/
def needsDepartments (query : AccountQuery) : Bool := query.usedFields.any Field.ofDepartment

end AccountQuery

/-- A list of names: few, short, and none twice. -/
def names (raw : String) : Except QueryStop (List String) :=
  if 4096 < raw.utf8ByteSize then .error .invalidQuery
  else
    let names := (raw.toList.splitOn ',').map String.ofList
    if 16 < names.length ∨ (names.any fun s => decide (s = "" ∨ 128 < s.utf8ByteSize)) = true ∨
        ¬ names.Nodup then .error .invalidQuery
    else .ok names

/-- Reads the columns to order by, none of them twice. -/
def parseSort (ordering : List SortKey) : List String → Except QueryStop (List SortKey)
  | [] => .ok ordering
  | name :: rest => do
    let descending := decide (name.toList.head? = some '-')
    let field ← Field.parse (if descending then String.ofList name.toList.tail else name)
    if field.sortable = false ∨ (ordering.any fun s => decide (s.field = field)) = true then
      .error .invalidQuery
    else parseSort (ordering ++ [⟨field, descending⟩]) rest

/-- Reads the source of profiles or departments. -/
def parseSource (format : UuidFormat) (raw : String) : Except QueryStop ProfileSource :=
  if raw = "local" then .ok .identityLocal
  else
    match format.parse raw with
    | some id => .ok (.idp ⟨id⟩)
    | none => .error .invalidQuery

/-- An optional text, read if it is there. -/
def parseOptional {α : Type} (read : String → Except QueryStop α) :
    Option String → Except QueryStop (Option α)
  | none => .ok none
  | some raw => do
    let value ← read raw
    .ok (some value)

/-- The columns that are shown unless others are asked for. -/
def defaultFields : List Field := [.principalId, .login, .enabled, .memberActive, .hasLocalPassword]

/-- The order of a query, ended by the principal. -/
def ordering (sort : List SortKey) : List SortKey :=
  if sort.any fun s => decide (s.field = .principalId) then sort
  else sort ++ [⟨.principalId, false⟩]

/-- Refuses a query that has a fault. -/
def refuse (fault : Prop) [Decidable fault] : Except QueryStop Unit :=
  if fault then .error .invalidQuery else .ok ()

/-- Reads a query (`AccountQuery::parse`). -/
def AccountQuery.parse (format : UuidFormat) (filter sort fields source : Option String)
    (limit : ℕ) : Except QueryStop AccountQuery := do
  refuse (limit < 1 ∨ 100 < limit)
  let source ← parseOptional (parseSource format) source
  let fields ← parseOptional (fun raw => do
    let names ← names raw
    names.mapM Field.parse) fields
  let fields := fields.getD defaultFields
  refuse ((fields.any fun field => !field.output) = true)
  let sort ← parseOptional (fun raw => do
    let names ← names raw
    parseSort [] names) sort
  let filter ← parseOptional (parseFilter format) filter
  let result : AccountQuery := { filter, sort := ordering (sort.getD []), fields, source, limit }
  refuse ((result.needsProfiles || result.needsDepartments) = true ∧ result.source = none)
  refuse (result.needsDepartments = true ∧ result.source = some .identityLocal)
  .ok result

/-- What a query is that the directory accepts. -/
structure AccountQuery.Accepted (format : UuidFormat) (query : AccountQuery) : Prop where
  limit : 1 ≤ query.limit ∧ query.limit ≤ 100
  output : ∀ field ∈ query.fields, field.output = true
  sortable : ∀ s ∈ query.sort, s.field.sortable = true
  distinct : (query.sort.map SortKey.field).Nodup
  principal : Field.principalId ∈ query.sort.map SortKey.field
  filter : ∀ expression ∈ query.filter, ∃ raw, parseFilter format raw = .ok expression
  profiles : query.needsProfiles = true → query.source.isSome = true
  departments : query.needsDepartments = true → ∃ provider, query.source = some (.idp provider)

section Accepted

variable {format : UuidFormat}

/-- A step that succeeded had a first step that did. -/
theorem except_bind_eq_ok {ε α β : Type} {x : Except ε α} {f : α → Except ε β} {b : β} :
    (x >>= f) = .ok b ↔ ∃ a, x = .ok a ∧ f a = .ok b := by
  cases x with
  | error e => simp [bind, Except.bind]
  | ok a => simp [bind, Except.bind]

theorem parseOptional_eq_ok {α : Type} {read : String → Except QueryStop α} {raw : Option String}
    {value : Option α} (h : parseOptional read raw = .ok value) :
    ∀ a ∈ value, ∃ s ∈ raw, read s = .ok a := by
  cases raw with
  | none =>
    cases h
    simp
  | some s =>
    obtain ⟨a, ha, h⟩ := except_bind_eq_ok.mp h
    cases h
    rintro _ ⟨⟩
    exact ⟨s, rfl, ha⟩

/-- The columns to order by are ordered ones, each once. -/
theorem parseSort_eq_ok {names : List String} {sort result : List SortKey}
    (h : parseSort sort names = .ok result) (hsortable : ∀ s ∈ sort, s.field.sortable = true)
    (hdistinct : (sort.map SortKey.field).Nodup) :
    (∀ s ∈ result, s.field.sortable = true) ∧ (result.map SortKey.field).Nodup := by
  induction names generalizing sort with
  | nil =>
    cases h
    exact ⟨hsortable, hdistinct⟩
  | cons name names ih =>
    obtain ⟨field, -, h⟩ := except_bind_eq_ok.mp h
    split at h
    · cases h
    · rename_i hnew
      simp only [not_or, Bool.not_eq_false, Bool.not_eq_true, List.any_eq_false,
        decide_eq_true_eq] at hnew
      refine ih h ?_ ?_
      · intro s hs
        rcases List.mem_append.mp hs with hs | hs
        · exact hsortable s hs
        · rw [List.mem_singleton.mp hs]
          exact hnew.1
      · rw [List.map_append, List.nodup_append]
        refine ⟨hdistinct, by simp, ?_⟩
        intro f hf g hg
        simp only [List.map_cons, List.map_nil, List.mem_singleton] at hg
        obtain ⟨s, hs, rfl⟩ := List.mem_map.mp hf
        rw [hg]
        exact hnew.2 s hs

/-- The principal ends an order that does not have it, and nothing else changes. -/
theorem ordering_spec {sort : List SortKey} (hsortable : ∀ s ∈ sort, s.field.sortable = true)
    (hdistinct : (sort.map SortKey.field).Nodup) :
    (∀ s ∈ ordering sort, s.field.sortable = true) ∧ ((ordering sort).map SortKey.field).Nodup ∧
      Field.principalId ∈ (ordering sort).map SortKey.field := by
  unfold ordering
  split
  · rename_i hany
    obtain ⟨s, hs, hfield⟩ := List.any_eq_true.mp hany
    refine ⟨hsortable, hdistinct, List.mem_map.mpr ⟨s, hs, by simpa using hfield⟩⟩
  · rename_i hnone
    simp only [Bool.not_eq_true, List.any_eq_false, decide_eq_true_eq] at hnone
    refine ⟨?_, ?_, by simp⟩
    · intro s hs
      rcases List.mem_append.mp hs with hs | hs
      · exact hsortable s hs
      · rw [List.mem_singleton.mp hs]
        rfl
    · rw [List.map_append, List.nodup_append]
      refine ⟨hdistinct, by simp, ?_⟩
      intro f hf g hg
      simp only [List.map_cons, List.map_nil, List.mem_singleton] at hg
      obtain ⟨s, hs, rfl⟩ := List.mem_map.mp hf
      rw [hg]
      exact hnone s hs

theorem refuse_eq_ok {fault : Prop} [Decidable fault] {u : Unit} :
    refuse fault = .ok u ↔ ¬ fault := by
  unfold refuse
  split <;> simp [*]

/-- A query that was read is one the directory accepts. -/
theorem AccountQuery.parse_accepted {filter sort fields source : Option String} {limit : ℕ}
    {query : AccountQuery} (h : parse format filter sort fields source limit = .ok query) :
    query.Accepted format := by
  simp only [parse, except_bind_eq_ok, refuse_eq_ok] at h
  obtain ⟨_, hlimit, source', -, fields', hfields, _, houtput, sort', hsort, filter', hfilter, _,
    hsource, _, hdepartments, h⟩ := h
  simp only [Except.ok.injEq] at h
  have hsorted : (∀ s ∈ sort'.getD [], s.field.sortable = true) ∧
      ((sort'.getD []).map SortKey.field).Nodup := by
    cases sort' with
    | none => simp
    | some keys =>
      obtain ⟨raw, -, hread⟩ := parseOptional_eq_ok hsort keys rfl
      obtain ⟨names, -, hkeys⟩ := except_bind_eq_ok.mp hread
      exact parseSort_eq_ok hkeys (by simp) (by simp)
  obtain ⟨hsortable, hdistinct, hprincipal⟩ := ordering_spec hsorted.1 hsorted.2
  rw [h] at hsource hdepartments
  subst h
  refine ⟨?_, ?_, hsortable, hdistinct, hprincipal, ?_, ?_, ?_⟩
  · simp only
    omega
  · intro field hfield
    by_contra hno
    exact houtput (List.any_eq_true.mpr ⟨field, hfield, by simpa using hno⟩)
  · intro expression hexpression
    obtain ⟨raw, -, hread⟩ := parseOptional_eq_ok hfilter expression hexpression
    exact ⟨raw, hread⟩
  · intro hprofiles
    rw [hprofiles] at hsource
    rw [← Option.ne_none_iff_isSome]
    exact fun hnone => hsource ⟨rfl, hnone⟩
  · intro hneeds
    rw [hneeds] at hsource hdepartments
    cases hvalue : source' with
    | none => exact absurd hvalue fun hnone => hsource ⟨Bool.or_true _, hnone⟩
    | some found =>
      cases found with
      | identityLocal => exact absurd ⟨rfl, hvalue⟩ hdepartments
      | idp provider => exact ⟨provider, rfl⟩

end Accepted

end IdentityAuthority
