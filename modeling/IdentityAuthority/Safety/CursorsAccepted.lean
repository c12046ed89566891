import IdentityAuthority.Safety.AccountPages

/-!
# Cursors that are given out

The server refuses a cursor that is too long, of another shape or signed by someone else. The columns
that queries order by are bounded, so a cursor of a page is none of these: it is accepted for as long as
what it is bound to is the same and the window of its page is open.
-/

namespace IdentityAuthority

open Relational Transition Json Encoding

section Sizes

/-- The bytes that a value of a column takes in a cursor at most. -/
def Field.room : Field → ℕ
  | principalId => 218
  | login => 770
  | enabled | memberActive | hasLocalPassword => 5
  | displayName => 1026
  | email => 642
  | profileStatus => 13
  | departmentStatus => 40
  | departmentSnapshot | department | departmentSubtree => 4

/-- The values of a row take no more than there is room for. -/
def DirectoryRow.Fits (row : DirectoryRow) : Prop :=
  ∀ field : Field, compactSize (scalarJson (row.scalar field)) ≤ field.room

/-- A text that may be missing takes four bytes then. -/
theorem compactSize_optional {text : Option String} {k : ℕ} (hk : 4 ≤ k)
    (h : ∀ s ∈ text, utf8Size (quote s) ≤ k) : compactSize (scalarJson (text.map .text)) ≤ k := by
  cases text with
  | none => exact hk
  | some s => exact h s rfl

theorem compactSize_truth (b : Bool) : compactSize (scalarJson (some (.truth b))) ≤ 5 := by
  cases b <;> decide

/-- An attribute that is valid takes at most twice its bound. -/
theorem quote_textValid {a : Attribute String} {max : ℕ} (h : Profile.textValid a max = true) :
    ∀ s ∈ a.value, utf8Size (quote s) ≤ 2 + 2 * max := by
  intro s hs
  have hvalid : (decide (s.utf8ByteSize ≤ max) && printable s) = true := by
    rw [Profile.textValid, Option.mem_def.mp hs, Option.all_some] at h
    exact h
  rw [Bool.and_eq_true, decide_eq_true_eq] at hvalid
  have hquote : utf8Size (quote s) ≤ 2 + 2 * s.utf8ByteSize := by
    refine utf8Size_quote_le fun c hc => ?_
    have hc := List.all_eq_true.mp hvalid.2 c hc
    simp only [isControl, Bool.not_eq_true', Bool.or_eq_false_iff, decide_eq_false_iff_not] at hc
    omega
  omega

end Sizes

section Rows

variable {terms : DirectoryTerms} {db : Db} {uuids : UuidFormat} {j : DirectoryJoin}

/-- What is said of a department is short. -/
theorem quote_departmentStatus : utf8Size (quote (terms.departmentStatus j)) ≤ 40 := by
  unfold DirectoryTerms.departmentStatus
  split
  · decide
  · split
    · decide
    · split
      · decide
      · split
        · rename_i reason _
          cases reason <;> decide
        · split
          · decide
          · split <;> decide

/-- The rows of the directory fit, if the observations are valid. -/
theorem row_fits (hj : j ∈ terms.joined db)
    (hprincipal : (uuids.text j.a.principal.uuid).utf8ByteSize ≤ 36)
    (hvalid : ∀ o ∈ db.profileObservations, o.value.valid = true) :
    (terms.row db uuids j).Fits := by
  have hshown : ∀ (pick : Profile → Attribute String) (max : ℕ),
      (∀ o ∈ db.profileObservations, Profile.textValid (pick o.value) max = true) →
      ∀ s ∈ terms.shown db pick j, utf8Size (quote s) ≤ 2 + 2 * max := by
    intro pick max hmax s hs
    obtain ⟨a, m, -, -, rfl⟩ := mem_directoryJoined.mp hj
    simp only [DirectoryTerms.shown, Option.mem_def, Option.ite_none_right_eq_some,
      Option.bind_eq_some_iff] at hs
    obtain ⟨-, o, ho, hs⟩ := hs
    obtain ⟨source, -, hfound⟩ := Option.bind_eq_some_iff.mp ho
    exact quote_textValid (hmax o (Table.mem_of_find? hfound)) s hs
  have hparts : ∀ o ∈ db.profileObservations, Profile.textValid o.value.displayName 512 = true ∧
      Profile.textValid o.value.email 320 = true := by
    intro o ho
    have h := hvalid o ho
    simp only [Profile.valid, Bool.and_eq_true] at h
    exact ⟨h.1.1, h.2⟩
  intro field
  cases field with
  | principalId =>
    have h := utf8Size_quote_le_six (uuids.text j.a.principal.uuid)
    show utf8Size (quote (uuids.text j.a.principal.uuid)) ≤ 218
    omega
  | login =>
    refine compactSize_optional (by decide) fun s hs => ?_
    obtain ⟨l, hl, rfl⟩ := Option.map_eq_some_iff.mp hs
    obtain ⟨a, m, -, -, rfl⟩ := mem_directoryJoined.mp hj
    have hcheck := Table.check_of_mem (Table.mem_of_find? hl)
    have hlogin : l.loginKey.utf8ByteSize ≤ 128 := hcheck.2.1
    have h := utf8Size_quote_le_six l.loginKey
    show _ ≤ 770
    omega
  | enabled | memberActive | hasLocalPassword => exact compactSize_truth _
  | displayName =>
    exact compactSize_optional (by decide) (hshown _ 512 fun o ho => (hparts o ho).1)
  | email => exact compactSize_optional (by decide) (hshown _ 320 fun o ho => (hparts o ho).2)
  | profileStatus =>
    show utf8Size (quote (terms.profileStatus db j).wire) ≤ 13
    cases terms.profileStatus db j <;> decide
  | departmentStatus => exact quote_departmentStatus
  | departmentSnapshot | department | departmentSubtree => exact le_rfl

end Rows

section Cursors

variable {format : UuidFormat} {query : AccountQuery} {row : DirectoryRow}

/-- Columns that are all different take no more than all of them. -/
theorem sum_room_le (h : query.Accepted format) :
    (query.sort.map fun s => s.field.room + 1).sum ≤ 2800 := by
  have hsub : (query.sort.map SortKey.field) ⊆ Field.all := by
    intro field _
    cases field <;> decide
  have hall : query.sort.map SortKey.field ⊆ Field.all.filter Field.sortable := by
    intro field hfield
    obtain ⟨s, hs, rfl⟩ := List.mem_map.mp hfield
    exact List.mem_filter.mpr ⟨hsub hfield, h.sortable s hs⟩
  obtain ⟨fields, hperm, hsublist⟩ := List.Nodup.subperm h.distinct hall
  have hle := (hsublist.map fun field => field.room + 1).sum_le_sum (by simp)
  have hsum := (hperm.map fun field : Field => field.room + 1).sum_eq
  rw [List.map_map] at hsum
  have hroom : ((Field.all.filter Field.sortable).map fun field => field.room + 1).sum ≤ 2800 := by
    decide
  exact hsum ▸ hle.trans hroom

/-- The position of a row that fits is short. -/
theorem compactSize_position (h : query.Accepted format) (hfits : row.Fits) :
    compactSize (.array ((query.columns row).map scalarJson)) ≤ 2802 := by
  have hsum : ∀ sort : List SortKey,
      ((sort.map fun s => row.scalar s.field).map scalarJson |>.map compactSize).sum + sort.length ≤
        (sort.map fun s => s.field.room + 1).sum := by
    intro sort
    induction sort with
    | nil => exact le_rfl
    | cons s sort ih =>
      have hs := hfits s.field
      simp only [List.map_cons, List.sum_cons, List.length_cons] at ih ⊢
      omega
  have hroom := sum_room_le h
  have hsort := hsum query.sort
  rw [compactSize_array]
  simp only [AccountQuery.columns, List.length_map] at hsort ⊢
  omega

/-- A cursor of a position is short enough to be read again. -/
theorem length_cursor {cursor : Cursor} (hquery : query.Accepted format) (hfits : row.Fits)
    (hbinding : cursor.binding.length = 32) (hexpires : isI64 cursor.expires = true)
    (hposition : cursor.position = (query.columns row).map scalarJson) :
    (jsonBytes cursor.json).length ≤ 2986 := by
  have hcolumns := compactSize_position hquery hfits
  rw [← hposition] at hcolumns
  have hle := length_cursor_le hbinding hexpires
  omega

end Cursors

/-- A cursor of a page is accepted: it is within the limits of a request, and names the last row of the
page just as long as what it is bound to is the same and the window of the page is open. -/
structure CursorAccepted {env : Env} (directory : AccountDirectory) (visit : PageVisit env)
    (raw : String) : Prop where
  sent : raw ≠ "" ∧ raw.utf8ByteSize ≤ 4096
  sought : ∃ window position, visit.Reads directory window position ∧
    ∃ r ∈ (directory.page env visit.query window.now position visit.start.world.state).rows.getLast?,
      ∀ binding now, directory.seek visit.query binding now (some raw) =
        if binding = directory.sha256 (visit.bound directory) ∧ now < window.validUntil then
          .ok (some (visit.query.columns r))
        else .error .cursorInvalidated

section Main

variable {env : Env} {directory : AccountDirectory} {visit : PageVisit env} {format : UuidFormat}
  {s₀ s : System env} {trace : List (Event (System env) (Label env))} {raw : String}

/-- The texts of stored observations are valid. -/
theorem observationsValid_of_run (hstart : s₀.Provisioned) (hrun : Run (Step env) s₀ trace s) :
    ∀ o ∈ s.world.state.profileObservations, o.value.valid = true := by
  refine invariant_of_run (fun w => ∀ o ∈ w.state.profileObservations, o.value.valid = true) hstart hrun
    ?_ ?_ ?_
  · intro w hw o ho
    rw [hw] at ho
    exact absurd ho Table.not_mem_empty
  · intro w w' hinv hstate _ o ho
    rw [hstate] at ho
    exact hinv o ho
  · intro start w a db _ hinv heffect o ho
    by_cases ha : a = .profiles
    · subst ha
      cases heffect with
      | observationInserted hfresh ht =>
        rcases (Table.mem_insert ht).mp ho with rfl | hold
        · exact hfresh.accepted.valid
        · exact hinv o hold
      | observationsUpdated ht =>
        obtain ⟨old, hold, rfl | hreplaces⟩ := ht.exists_before ho
        · exact hinv o hold
        · exact hreplaces.fresh.accepted.valid
    · rw [heffect.profileObservations_eq ha] at ho
      exact hinv o ho

/-- Every cursor that is given out is accepted by the length, shape and signature checks, until its
page's window ends, for the session, generation and query of its page, and for nothing else. -/
theorem cursors_accepted (hstart : s₀.Provisioned) (hreached : Run (Step env) s₀ trace visit.start)
    (haccepted : visit.query.Accepted format)
    (hprincipals : ∀ a ∈ visit.start.world.state.accounts,
      (directory.uuids.text a.principal.uuid).utf8ByteSize ≤ 36)
    (hsucceeds : visit.Succeeds directory) (hnext : visit.page.nextCursor = some raw) :
    CursorAccepted directory visit raw := by
  obtain ⟨window, position, hpage⟩ := run_listAccounts hsucceeds
  have hread : visit.Reads directory window position := hpage
  obtain ⟨hgeneration, -, -⟩ := hread.times
  rw [hread.next] at hnext
  obtain ⟨next, hposition, rfl⟩ := Option.map_eq_some_iff.mp hnext
  obtain ⟨r, hlast, hcolumns⟩ := page_next_eq hposition
  have hr : r ∈ visit.rowsAt directory window.now := page_subset (List.mem_of_getLast? hlast)
  have hfits : r.Fits := by
    obtain ⟨j, hj, rfl⟩ := List.mem_map.mp (List.mem_filter.mp hr).1
    refine row_fits hj ?_ (observationsValid_of_run hstart hreached)
    obtain ⟨a, m, ha, -, rfl⟩ := mem_directoryJoined.mp hj
    exact hprincipals a (Table.mem_of_find? ha)
  let cursor : Cursor := ⟨directory.sha256 (visit.bound directory), window.validUntil,
    (visit.query.columns r).map scalarJson⟩
  have hraw : directory.encode ⟨directory.sha256 (directory.bound env visit.actor visit.query
      window.generation), window.validUntil, next.map scalarJson⟩ = directory.encode cursor := by
    rw [hgeneration, ← hcolumns]
    rfl
  rw [hraw]
  have hlength : (jsonBytes cursor.json).length ≤ 2986 :=
    length_cursor haccepted hfits (directory.length_sha256 _) hread.until_i64 rfl
  have hdecode : directory.decode (directory.encode cursor) = .ok cursor := by
    refine directory.decode_encode_eq hread.until_i64 ?_ (by omega)
    intro value hvalue
    obtain ⟨v, -, rfl⟩ := List.mem_map.mp hvalue
    exact ⟨v, rfl⟩
  refine ⟨directory.encode_sent (by omega), window, position, hread, r, hlast, fun binding now => ?_⟩
  have hseek : directory.seek visit.query binding now (some (directory.encode cursor)) =
      if cursor.binding ≠ binding ∨ cursor.expires ≤ now then .error .cursorInvalidated
      else .ok (some (visit.query.columns r)) := by
    rw [AccountDirectory.seek_of_decode hdecode, AccountQuery.seekCursor, seekPosition_columns,
      Option.elim_some]
  rw [hseek]
  by_cases hgood : binding = directory.sha256 (visit.bound directory) ∧ now < window.validUntil
  · rw [if_pos hgood, if_neg (not_or.mpr ⟨not_not.mpr hgood.1.symm, not_le.mpr hgood.2⟩)]
  · rw [if_neg hgood, if_pos]
    by_contra hno
    obtain ⟨hbinding, hexpires⟩ := not_or.mp hno
    exact hgood ⟨(not_not.mp hbinding).symm, not_le.mp hexpires⟩

end Main

/-- Zoe's cursor, of the first page of Ada's listing, is accepted. -/
theorem zoesCursor_accepted : ∃ (visit : PageVisit .transparent) (raw : String),
    visit.page.accounts.map AccountDirectoryRow.login = [some "zoe"] ∧
      CursorAccepted adasDirectory visit raw := by
  obtain ⟨sheet, sheet', w, hrun, hfirst, -, -⟩ := twoAccountSheets_run
  obtain ⟨visit, later, trace, hreached, hquery, hlisting, -, hprincipals, ⟨raw, hnext⟩, hpage, -⟩ :=
    run_twoAccountSheets hrun
  have haccepted : visit.query.Accepted .hyphenated := hquery ▸ enabledAccounts_accepted
  obtain ⟨-, hsucceeds⟩ := hlisting.head
  have hshown : visit.page.accounts.map AccountDirectoryRow.login = [some "zoe"] := by
    rw [hpage]
    exact hfirst
  exact ⟨visit, raw, hshown,
    cursors_accepted ⟨rfl, rfl⟩ hreached haccepted hprincipals hsucceeds hnext⟩

end IdentityAuthority
