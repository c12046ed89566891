import IdentityAuthority.Json.Records
import IdentityAuthority.Operations.AccountDirectory

/-!
# Cursors of the account directory

A cursor is the signed document of a position. What is written is read back, and the document that it
is bound to tells the session, the generation and the query.
-/

namespace IdentityAuthority

open Relational Json Encoding

section Documents

/-- A text of a name determines it. -/
theorem Field.name_injective : Function.Injective Field.name := by
  intro field field' h
  have hall : ∀ f ∈ Field.all, ∀ g ∈ Field.all, f.name = g.name → f = g := by decide
  have hmem : ∀ f : Field, f ∈ Field.all := by
    intro f
    cases f <;> decide
  exact hall field (hmem field) field' (hmem field') h

/-- Identifiers print differently. -/
theorem UuidFormat.text_inj (uuids : UuidFormat) {id id' : Uuid} (h : uuids.text id = uuids.text id') :
    id = id' := by
  have hparse := uuids.parse_text id
  rw [h, uuids.parse_text] at hparse
  exact (Option.some.inj hparse).symm

theorem Operator.text_injective : Function.Injective Operator.text := by
  intro op op' h
  have hall : ∀ f ∈ Operator.all, ∀ g ∈ Operator.all, f.text = g.text → f = g := by decide
  have hmem : ∀ f : Operator, f ∈ Operator.all := by
    intro f
    cases f <;> decide
  exact hall op (hmem op) op' (hmem op') h

/-- Lists of documents that are the same were written of the same list. -/
theorem map_json_injective {α : Type} {json : α → Value} (h : Function.Injective json) :
    Function.Injective fun l : List α => Value.array (l.map json) :=
  fun _ _ heq => List.map_injective_iff.mpr h (Value.array.inj heq)

theorem Value.string_injective : Function.Injective Value.string := fun _ _ => Value.string.inj

theorem integerJson_injective : Function.Injective integerJson := fun _ _ h =>
  Number.integer.inj (Value.number.inj h)

namespace AccountQuery

mutual

theorem filterJson_inj : ∀ {e e' : Expression}, filterJson e = filterJson e' → e = e'
  | .compare field op values, .compare field' op' values', h => by
    simp only [filterJson, Value.object.injEq, List.cons.injEq, Prod.mk.injEq, Value.string.injEq,
      true_and, and_true] at h
    obtain ⟨hfield, hop, hvalues⟩ := h
    rw [Field.name_injective hfield, Operator.text_injective hop,
      map_json_injective Value.string_injective hvalues]
  | .and items, .and items', h => by
    simp only [filterJson, Value.object.injEq, List.cons.injEq, Prod.mk.injEq, Value.array.injEq,
      true_and, and_true] at h
    rw [filtersJson_inj h]
  | .or items, .or items', h => by
    simp only [filterJson, Value.object.injEq, List.cons.injEq, Prod.mk.injEq, Value.array.injEq,
      true_and, and_true] at h
    rw [filtersJson_inj h]
  | .compare .., .and _, h | .compare .., .or _, h | .and _, .compare .., h | .and _, .or _, h
  | .or _, .compare .., h | .or _, .and _, h => by
    simp [filterJson] at h

theorem filtersJson_inj : ∀ {items items' : List Expression},
    filtersJson items = filtersJson items' → items = items'
  | [], [], _ => rfl
  | [], _ :: _, h | _ :: _, [], h => by simp [filtersJson] at h
  | item :: items, item' :: items', h => by
    simp only [filtersJson, List.cons.injEq] at h
    rw [filterJson_inj h.1, filtersJson_inj h.2]

end

/-- A filter has an object for its document. -/
theorem filterJson_ne_null (e : Expression) : filterJson e ≠ .null := by
  cases e <;> simp [filterJson]

theorem sourceText_injective {uuids : UuidFormat} (hlocal : ∀ id, uuids.text id ≠ "local") :
    Function.Injective (sourceText uuids) := by
  intro source source' h
  cases source with
  | identityLocal =>
    cases source' with
    | identityLocal => rfl
    | idp provider => exact absurd h.symm (hlocal _)
  | idp provider =>
    cases source' with
    | identityLocal => exact absurd h (hlocal _)
    | idp provider' =>
      have huuid : provider.uuid = provider'.uuid := uuids.text_inj h
      cases provider
      cases provider'
      cases huuid
      rfl

/-- The document of a query tells the query. -/
theorem json_injective {uuids : UuidFormat} (hlocal : ∀ id, uuids.text id ≠ "local") :
    Function.Injective (json uuids) := by
  intro query query' h
  obtain ⟨filter, sort, fields, source, limit⟩ := query
  obtain ⟨filter', sort', fields', source', limit'⟩ := query'
  simp only [json, Value.object.injEq, List.cons.injEq, Prod.mk.injEq, true_and, and_true] at h
  obtain ⟨hfilter, hsort, hfields, hsource, hlimit⟩ := h
  have hsortKey : Function.Injective fun s : SortKey =>
      Value.object [("field", .string s.field.name), ("descending", .bool s.descending)] := by
    intro s s' hs
    simp only [Value.object.injEq, List.cons.injEq, Prod.mk.injEq, Value.string.injEq,
      Value.bool.injEq, true_and, and_true] at hs
    cases s
    cases s'
    rw [SortKey.mk.injEq]
    exact ⟨Field.name_injective hs.1, hs.2⟩
  have hname : Function.Injective fun field : Field => Value.string field.name :=
    Value.string_injective.comp Field.name_injective
  rw [map_json_injective hsortKey hsort, map_json_injective hname hfields,
    Int.ofNat_inj.mp (integerJson_injective hlimit)]
  have hfilters : filter = filter' := by
    cases filter with
    | none =>
      cases filter' with
      | none => rfl
      | some e => exact absurd hfilter.symm (filterJson_ne_null e)
    | some e =>
      cases filter' with
      | none => exact absurd hfilter (filterJson_ne_null e)
      | some e' => rw [filterJson_inj hfilter]
  have hsources : source = source' := by
    cases source with
    | none =>
      cases source' with
      | none => rfl
      | some e => cases hsource
    | some e =>
      cases source' with
      | none => cases hsource
      | some e' => rw [sourceText_injective hlocal (Value.string.inj hsource)]
  rw [hfilters, hsources]

end AccountQuery

variable {directory : AccountDirectory}

/-- What a cursor is bound to tells the principal, the session, the generation and the query. -/
theorem AccountDirectory.boundTo_inj {instanceId : Uuid} {key key' : AccountKey}
    {session session' : SessionId} {generation generation' : ℤ} {query query' : AccountQuery}
    (h : directory.boundTo instanceId key session generation query =
      directory.boundTo instanceId key' session' generation' query') :
    key = key' ∧ session = session' ∧ generation = generation' ∧ query = query' := by
  simp only [boundTo, Value.array.injEq, List.cons.injEq, Value.string.injEq, true_and, and_true] at h
  obtain ⟨hkey, hsession, hgeneration, hquery⟩ := h
  cases key
  cases key'
  cases session
  cases session'
  cases directory.uuids.text_inj hkey
  cases directory.uuids.text_inj hsession
  exact ⟨rfl, rfl, integerJson_injective hgeneration,
    AccountQuery.json_injective directory.text_ne_local hquery⟩

theorem byteJson_injective : Function.Injective byteJson := fun _ _ h =>
  UInt8.toNat.inj (Int.ofNat_inj.mp (Number.integer.inj (Value.number.inj h)))

/-- The document of a cursor tells the cursor. -/
theorem Cursor.json_injective : Function.Injective Cursor.json := by
  rintro ⟨binding, expires, position⟩ ⟨binding', expires', position'⟩ h
  simp only [Cursor.json, Value.object.injEq, List.cons.injEq, Prod.mk.injEq, Value.array.injEq,
    true_and, and_true] at h
  obtain ⟨hbinding, hexpires, rfl⟩ := h
  rw [List.map_injective_iff.mpr byteJson_injective hbinding, integerJson_injective hexpires]

end Documents

section Positions

variable {directory : AccountDirectory} {query : AccountQuery} {row : DirectoryRow}

/-- A value of a column is read back from its document. -/
theorem boundScalar_scalarJson (row : DirectoryRow) (field : Field) :
    boundScalar field (scalarJson (row.scalar field)) = some (row.scalar field) := by
  cases field with
  | principalId | enabled | memberActive | hasLocalPassword | profileStatus | departmentStatus => rfl
  | departmentSnapshot | department | departmentSubtree => rfl
  | login => cases h : row.login <;> simp [DirectoryRow.scalar, h, scalarJson, boundScalar, Field.boolean]
  | displayName =>
    cases h : row.displayName <;> simp [DirectoryRow.scalar, h, scalarJson, boundScalar, Field.boolean]
  | email => cases h : row.email <;> simp [DirectoryRow.scalar, h, scalarJson, boundScalar, Field.boolean]

/-- The position of a row is read back. -/
theorem seekPosition_columns (query : AccountQuery) (row : DirectoryRow) :
    query.seekPosition ((query.columns row).map scalarJson) = some (query.columns row) := by
  have hsort : ∀ sort : List SortKey,
      ((sort.zip ((sort.map fun s => row.scalar s.field).map scalarJson)).mapM fun found =>
        boundScalar found.1.field found.2) = some (sort.map fun s => row.scalar s.field) := by
    intro sort
    induction sort with
    | nil => rfl
    | cons s sort ih =>
      rw [List.map_cons, List.map_cons, List.zip_cons_cons, List.mapM_cons, ih]
      simp only [boundScalar_scalarJson]
      rfl
  rw [AccountQuery.seekPosition, AccountQuery.columns, if_pos (by simp)]
  exact hsort query.sort

/-- A signed cursor that is accepted is the one that was signed. -/
theorem AccountDirectory.decode_encode {cursor found : Cursor} (hexpires : isI64 cursor.expires = true)
    (hposition : ∀ value ∈ cursor.position, ∃ v, value = scalarJson v)
    (h : directory.decode (directory.encode cursor) = .ok found) : found = cursor := by
  have hread := directory.reader.read_cursor cursor hexpires hposition
  have htag := directory.hmac.length_tag directory.cursorKey (signedCursor (jsonBytes cursor.json))
  simp only [decode, encode, Base64Url.toList_text, Base64Url.decode_encode, Option.elim_some,
    except_bind_eq_ok, Except.ok.injEq, exists_eq_left'] at h
  rw [List.drop_left' htag, List.take_left' htag] at h
  split at h
  · cases h
  · rw [if_neg (by simp), hread] at h
    exact (Except.ok.inj h).symm

end Positions

section Seeks

variable {directory : AccountDirectory} {query : AccountQuery} {binding : List UInt8} {now : ℤ}
  {raw : String} {cursor : Cursor}

/-- Where a listing goes on after a cursor that was read. -/
def AccountQuery.seekCursor (query : AccountQuery) (binding : List UInt8) (now : ℤ) (cursor : Cursor) :
    Except Failure (Option (List (Option Scalar))) :=
  if cursor.binding ≠ binding ∨ cursor.expires ≤ now then .error .cursorInvalidated
  else (query.seekPosition cursor.position).elim (.error .invalidInput) fun p => .ok (some p)

theorem AccountDirectory.seek_of_decode (h : directory.decode raw = .ok cursor) :
    directory.seek query binding now (some raw) = query.seekCursor binding now cursor := by
  rw [AccountDirectory.seek, h]
  rfl

end Seeks

section Sizes

variable (directory : AccountDirectory)

@[simp] theorem compactSize_string (s : String) : compactSize (.string s) = utf8Size (quote s) := rfl

theorem compactSize_array (values : List Value) :
    compactSize (.array values) = 2 + (values.map compactSize).sum + (values.length - 1) := by
  have hopen : '['.utf8Size = 1 := by decide
  have hclose : ']'.utf8Size = 1 := by decide
  have hcomma : utf8Size Style.compact.comma = 1 := by decide
  simp only [compactSize, render, utf8Size_cons, utf8Size_append, utf8Size_renderValues, hopen, hclose,
    hcomma, utf8Size_nil]
  have hsizes : (values.map fun value => utf8Size (render .compact value)) = values.map compactSize := rfl
  rw [hsizes]
  omega

/-- A byte takes three digits at most. -/
theorem compactSize_byte (b : UInt8) : compactSize (byteJson b) ≤ 3 := by
  have hb := b.toNat_lt
  have htext : compactSize (byteJson b) = (Nat.toDigits 10 b.toNat).length := spacedSize_natural b.toNat
  rw [htext, Nat.length_toDigits_le_iff (by decide) (by decide)]
  omega

/-- A time takes nineteen digits and a sign at most. -/
theorem compactSize_integer {n : ℤ} (h : isI64 n = true) : compactSize (integerJson n) ≤ 20 := by
  have hrange := of_decide_eq_true h
  have hsign : utf8Size (if n < 0 then ['-'] else []) ≤ 1 := by
    split <;> decide
  have hdigits : (Nat.toDigits 10 n.natAbs).length ≤ 19 := by
    rw [Nat.length_toDigits_le_iff (by decide) (by decide)]
    simp only [i64Min, i64Max] at hrange
    omega
  have htext : compactSize (integerJson n) =
      utf8Size (if n < 0 then ['-'] else []) + utf8Size (Nat.toDigits 10 n.natAbs) :=
    utf8Size_append _ _
  rw [htext, utf8Size_toDigits]
  omega

/-- A binding takes three digits and a comma for each of its bytes. -/
theorem compactSize_binding {binding : List UInt8} (h : binding.length = 32) :
    compactSize (.array (binding.map byteJson)) ≤ 129 := by
  have hsum : ∀ bs : List UInt8, ((bs.map byteJson).map compactSize).sum ≤ 3 * bs.length := by
    intro bs
    induction bs with
    | nil => exact le_rfl
    | cons b bs ih =>
      have hb := compactSize_byte b
      simp only [List.map_cons, List.sum_cons, List.length_cons] at ih ⊢
      omega
  have hbytes := hsum binding
  rw [compactSize_array, List.length_map]
  omega

/-- The document of a cursor takes its names and signs, and its values. -/
theorem compactSize_cursor (cursor : Cursor) : compactSize cursor.json =
    35 + compactSize (.array (cursor.binding.map byteJson)) + compactSize (integerJson cursor.expires) +
      compactSize (.array cursor.position) := by
  have hnames : utf8Size (quote "binding") = 9 ∧ utf8Size (quote "expires") = 9 ∧
      utf8Size (quote "position") = 10 := by decide
  have hsigns : '\x7b'.utf8Size = 1 ∧ '\x7d'.utf8Size = 1 ∧ utf8Size Style.compact.comma = 1 ∧
      utf8Size Style.compact.colon = 1 := by decide
  simp only [compactSize, Cursor.json, render, utf8Size_cons, utf8Size_append, utf8Size_nil,
    utf8Size_renderMembers, List.map_cons, List.map_nil, List.sum_cons, List.sum_nil, memberSize,
    List.length_cons, List.length_nil, hnames, hsigns]
  omega

/-- A cursor is not much longer than its position. -/
theorem length_cursor_le {cursor : Cursor} (hbinding : cursor.binding.length = 32)
    (hexpires : isI64 cursor.expires = true) :
    (jsonBytes cursor.json).length ≤ 184 + compactSize (.array cursor.position) := by
  have hbytes := compactSize_binding hbinding
  have htime := compactSize_integer hexpires
  have hlength : (jsonBytes cursor.json).length = compactSize cursor.json :=
    length_textBytes_ofList _
  rw [hlength, compactSize_cursor]
  omega

/-- A cursor of a position is long enough to have been signed. -/
theorem length_cursor_pos (cursor : Cursor) : 0 < (jsonBytes cursor.json).length := by
  have hlength : (jsonBytes cursor.json).length = compactSize cursor.json :=
    length_textBytes_ofList _
  rw [hlength, compactSize_cursor]
  omega

/-- A signed cursor that is short enough is read back. -/
theorem AccountDirectory.decode_encode_eq {cursor : Cursor}
    (hexpires : isI64 cursor.expires = true)
    (hposition : ∀ value ∈ cursor.position, ∃ v, value = scalarJson v)
    (hlength : (jsonBytes cursor.json).length ≤ 4064) :
    directory.decode (directory.encode cursor) = .ok cursor := by
  have hread := directory.reader.read_cursor cursor hexpires hposition
  have htag := directory.hmac.length_tag directory.cursorKey (signedCursor (jsonBytes cursor.json))
  have hpos := length_cursor_pos cursor
  simp only [decode, encode, Base64Url.toList_text, Base64Url.decode_encode, Option.elim_some]
  refine except_bind_eq_ok.mpr ⟨_, rfl, ?_⟩
  rw [List.drop_left' htag, List.take_left' htag, hread, List.length_append, htag,
    if_neg (by omega), if_neg (not_not.mpr rfl)]
  rfl

/-- A signed cursor is a third longer than what is signed. -/
theorem AccountDirectory.utf8ByteSize_encode (cursor : Cursor) :
    (directory.encode cursor).utf8ByteSize = (4 * (32 + (jsonBytes cursor.json).length) + 2) / 3 := by
  have htag := directory.hmac.length_tag directory.cursorKey (signedCursor (jsonBytes cursor.json))
  rw [AccountDirectory.encode, Base64Url.utf8ByteSize_text, List.length_append, htag]

/-- A signed cursor that is short enough may be sent. -/
theorem AccountDirectory.encode_sent {cursor : Cursor}
    (hlength : (jsonBytes cursor.json).length ≤ 3000) :
    directory.encode cursor ≠ "" ∧ (directory.encode cursor).utf8ByteSize ≤ 4096 := by
  have hsize := directory.utf8ByteSize_encode cursor
  refine ⟨fun hempty => ?_, by omega⟩
  have hzero : (directory.encode cursor).utf8ByteSize = 0 := by
    rw [hempty]
    rfl
  omega

end Sizes

end IdentityAuthority
