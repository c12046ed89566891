import IdentityAuthority.Json.Codec
import IdentityAuthority.Parsing.Reading
import Mathlib.Data.List.Sort

/-!
# Records under a naming, and as a database keeps them

A derived reader takes the fields of a record from an object, by name, or from an array, in order.
Renaming the fields of a document along with the names that are read changes nothing, and neither
does the order in which a database keeps the members of an object.
-/

namespace Json

namespace Value

variable {α : Type}

/-- The fields of a record, by name. -/
abbrev Fields : Type := String → Option Value

/-- The fields of a record: of an object that has no other names and none twice, or of an array
that has a value for each of them, in order. -/
def readFields (names : List String) : Value → Option Fields
  | object members =>
    if (members.all fun m => names.contains m.1) ∧ (members.map Prod.fst).Nodup then
      some (member members)
    else none
  | array values =>
    if values.length = names.length then some (member (names.zip values)) else none
  | _ => none

/-- A field that has to be there. -/
def requiredField (fields : Fields) (name : String) (read : Value → Option α) : Option α :=
  (fields name).bind read

/-- A field that may be left out, or be nothing. -/
def optionalField (fields : Fields) (name : String) (read : Value → Option α) : Option (Option α) :=
  ((fields name).getD null).readNullable read

/-- The tag of a variant, from a member that stands once among others, or ahead of an array. -/
def readVariant (tag : String) : Value → Option String
  | object members =>
    match members.filter fun m => m.1 = tag with
    | [m] => m.2.readString
    | _ => none
  | array (value :: _) => value.readString
  | _ => none

/-- Nothing but the tag is there, where order tells; of an object, other members do not matter. -/
def isUnitVariant : Value → Bool
  | array values => decide (values.length = 1)
  | _ => true

/-- A truth value. -/
def readBool : Value → Option Bool
  | bool b => some b
  | _ => none

/-- An object with exactly the expected names has the fields it lists. -/
theorem readFields_object {names : List String} {members : List (String × Value)}
    (hnames : members.map Prod.fst = names) (hnodup : names.Nodup) :
    (object members).readFields names = some (member members) := by
  simp only [readFields]
  rw [if_pos]
  refine ⟨?_, hnames ▸ hnodup⟩
  simp only [List.all_eq_true, List.contains_iff_mem]
  intro m hm
  rw [← hnames]
  exact List.mem_map_of_mem hm

/-- Readers that agree where a document has a value for them agree on what may be nothing. -/
theorem readNullable_congr {read read' : Value → Option α} {f : Value → Value}
    (hnull : f null = null) (hother : ∀ value, f value = null → value = null)
    (h : ∀ value, read (f value) = read' value) (value : Value) :
    (f value).readNullable read = value.readNullable read' := by
  have hvalue := h value
  by_cases hnothing : value = null
  · rw [hnothing, hnull]
    rfl
  · have hwritten : f value ≠ null := fun heq => hnothing (hother value heq)
    have hread : ∀ v : Value, v ≠ null → ∀ r : Value → Option α, v.readNullable r = (r v).map some := by
      intro v hv r
      cases v with
      | null => exact absurd rfl hv
      | _ => rfl
    rw [hread _ hwritten, hread _ hnothing, hvalue]

/-- What becomes of an optional value becomes of the value where it is read. -/
theorem readNullable_bind {β : Type} (read : Value → Option α) (f : α → Option β) (value : Value) :
    (value.readNullable read).bind (fun o => o.elim (some none) fun a => (f a).map some) =
      value.readNullable fun v => (read v).bind f := by
  have h : ∀ o : Option α, (o.map some).bind (fun o => o.elim (some none) fun a => (f a).map some) =
      (o.bind f).map some := by
    intro o
    cases o <;> rfl
  cases value with
  | null => rfl
  | _ => exact h _

end Value

section Renaming

open Value

variable {α : Type}

/-- The document of a record under other names, with each value rewritten by its old name. -/
def renameFields (names : List String) (name : Equiv.Perm String) (value : String → Value → Value) :
    Value → Value
  | .object members => .object (members.map fun m => (name m.1, value m.1 m.2))
  | .array values =>
    .array (values.mapIdx fun i v =>
      match names[i]? with
      | some n => value n v
      | none => v)
  | other => other

@[simp] theorem renameFields_null (names : List String) (name : Equiv.Perm String)
    (value : String → Value → Value) : renameFields names name value .null = .null := rfl

theorem renameFields_eq_null {names : List String} {name : Equiv.Perm String}
    {value : String → Value → Value} (document : Value)
    (h : renameFields names name value document = .null) : document = .null := by
  cases document with
  | null => rfl
  | _ => cases h

/-- The fields of a renamed record are the rewritten fields of the record. -/
theorem member_rename (name : Equiv.Perm String) (value : String → Value → Value)
    (members : List (String × Value)) (n : String) :
    member (members.map fun m => (name m.1, value m.1 m.2)) n =
      (member members (name.symm n)).map (value (name.symm n)) := by
  induction members with
  | nil => rfl
  | cons m members ih =>
    obtain ⟨m, v⟩ := m
    simp only [List.map_cons, member_cons, ih, ← Equiv.symm_apply_eq]
    split
    case isTrue h => simp [h]
    case isFalse h => rfl

/-- The fields of a record under other names, each rewritten by its old name. -/
def renamedFields (name : Equiv.Perm String) (value : String → Value → Value) (fields : Fields) :
    Fields :=
  fun n => (fields (name.symm n)).map (value (name.symm n))

/-- A field of a renamed record is read as the field of the record. -/
theorem requiredField_rename {read read' : Value → Option α} {name : Equiv.Perm String}
    {value : String → Value → Value} (n : String) {n' : String} (hname : name n = n')
    (h : ∀ v, read (value n v) = read' v) (fields : Fields) :
    requiredField (renamedFields name value fields) n' read =
      requiredField fields n read' := by
  subst hname
  simp only [requiredField, renamedFields, Equiv.symm_apply_apply]
  rw [Option.bind_map]
  congr 1
  funext v
  exact h v

/-- A field that may be left out is read as the field of the record. -/
theorem optionalField_rename {read read' : Value → Option α} {name : Equiv.Perm String}
    {value : String → Value → Value} (n : String) {n' : String} (hname : name n = n')
    (hnull : value n .null = .null) (hother : ∀ v, value n v = .null → v = .null)
    (h : ∀ v, read (value n v) = read' v) (fields : Fields) :
    optionalField (renamedFields name value fields) n' read =
      optionalField fields n read' := by
  subst hname
  have hread := readNullable_congr hnull hother h
  simp only [optionalField, renamedFields, Equiv.symm_apply_apply]
  cases fields n with
  | none => rfl
  | some v => exact hread v

theorem readFields_rename {names names' : List String} {name : Equiv.Perm String}
    {value : String → Value → Value} (hnames : names.map name = names') (document : Value) :
    (renameFields names name value document).readFields names' =
      (document.readFields names).map (renamedFields name value) := by
  subst hnames
  cases document with
  | object members =>
    have hnames : ((members.map fun m => (name m.1, value m.1 m.2)).map Prod.fst) =
        (members.map Prod.fst).map name := by
      simp [List.map_map, Function.comp_def]
    have hall : (members.all fun m => (names.map name).contains (name m.1)) =
        members.all fun m => names.contains m.1 := by
      congr 1
      funext m
      simp [List.contains_eq_mem]
    have hnodup := List.nodup_map_iff (l := members.map Prod.fst) name.injective
    simp only [renameFields, readFields, hnames, hnodup, List.all_map, Function.comp_def, hall]
    split
    · simp only [Option.map_some, Option.some.injEq]
      funext n
      exact member_rename name value members n
    · rfl
  | array values =>
    simp only [renameFields, readFields, List.length_mapIdx, List.length_map]
    split
    case isTrue h =>
      have hzip : (names.map name).zip (values.mapIdx fun i v =>
          match names[i]? with
          | some n => value n v
          | none => v) = (names.zip values).map fun m => (name m.1, value m.1 m.2) := by
        apply List.ext_getElem
        · simp [h]
        · intro i hi hi'
          have hn : i < names.length := by simp at hi; omega
          simp [hn]
      simp only [hzip, Option.map_some, Option.some.injEq]
      funext n
      exact member_rename name value _ n
    case isFalse h => rfl
  | _ => rfl

end Renaming

section Stored

open Value

variable {α : Type}

/-- The order of the members of a stored object: by the length of their names, then by the names. -/
def keyOrder (m m' : String × Value) : Prop :=
  m.1.utf8ByteSize < m'.1.utf8ByteSize ∨ m.1.utf8ByteSize = m'.1.utf8ByteSize ∧ m.1 ≤ m'.1

instance : DecidableRel keyOrder := fun m m' => by
  unfold keyOrder
  infer_instance

mutual

/-- A document without repeated names as a database keeps it. -/
def stored : Value → Value
  | .array values => .array (storedValues values)
  | .object members => .object ((storedMembers members).insertionSort keyOrder)
  | value => value

/-- The elements of an array as a database keeps them. -/
def storedValues : List Value → List Value
  | [] => []
  | value :: rest => stored value :: storedValues rest

/-- The members of an object as a database keeps them, before they are ordered. -/
def storedMembers : List (String × Value) → List (String × Value)
  | [] => []
  | (name, value) :: rest => (name, stored value) :: storedMembers rest

end

theorem storedValues_eq (values : List Value) : storedValues values = values.map stored := by
  induction values with
  | nil => rfl
  | cons value rest ih =>
    rw [List.map_cons, ← ih]
    rfl

theorem storedMembers_eq (members : List (String × Value)) :
    storedMembers members = members.map fun m => (m.1, stored m.2) := by
  induction members with
  | nil => rfl
  | cons m rest ih =>
    rw [List.map_cons, ← ih]
    rfl

@[simp] theorem stored_null : stored .null = .null := rfl

@[simp] theorem stored_bool (b : Bool) : stored (.bool b) = .bool b := rfl

@[simp] theorem stored_number (n : Number) : stored (.number n) = .number n := rfl

@[simp] theorem stored_string (s : String) : stored (.string s) = .string s := rfl

@[simp] theorem stored_array (values : List Value) :
    stored (.array values) = .array (values.map stored) := by
  rw [← storedValues_eq]
  rfl

@[simp] theorem stored_object (members : List (String × Value)) :
    stored (.object members) =
      .object ((members.map fun m => (m.1, stored m.2)).insertionSort keyOrder) := by
  rw [← storedMembers_eq]
  rfl

/-- In whatever order an object lists its members, each name has its value. -/
theorem member_perm {members members' : List (String × Value)} (hperm : members.Perm members')
    (hnodup : (members.map Prod.fst).Nodup) (n : String) : member members n = member members' n := by
  induction hperm with
  | nil => rfl
  | cons m _ ih =>
    obtain ⟨name, value⟩ := m
    rw [List.map_cons, List.nodup_cons] at hnodup
    simp only [member_cons, ih hnodup.2]
  | swap m m' rest =>
    obtain ⟨name, value⟩ := m
    obtain ⟨name', value'⟩ := m'
    simp only [List.map_cons, List.nodup_cons, List.mem_cons, not_or] at hnodup
    have hne := hnodup.1.1
    simp only [member_cons]
    by_cases h : n = name'
    · simp [h, hne]
    · simp [h]
  | trans hfirst _ ih ih' =>
    rw [ih hnodup, ih' ((hfirst.map Prod.fst).nodup_iff.mp hnodup)]

@[simp] theorem readString_stored (value : Value) : (stored value).readString = value.readString := by
  cases value <;> simp [readString]

@[simp] theorem readBool_stored (value : Value) : (stored value).readBool = value.readBool := by
  cases value <;> simp [readBool]

@[simp] theorem readInteger_stored (admissible : ℤ → Bool) (value : Value) :
    (stored value).readInteger admissible = value.readInteger admissible := by
  cases value <;> simp [readInteger]

theorem readList_stored {read : Value → Option α} (h : ∀ value, read (stored value) = read value)
    (value : Value) : (stored value).readList read = value.readList read := by
  cases value with
  | array values =>
    simp only [stored_array, readList]
    induction values with
    | nil => rfl
    | cons value rest ih => simp only [List.map_cons, List.mapM_cons, h, ih]
  | _ => rfl

@[simp] theorem readVariant_stored (tag : String) (value : Value) :
    (stored value).readVariant tag = value.readVariant tag := by
  cases value with
  | array values =>
    cases values with
    | nil => rfl
    | cons value rest => simp [readVariant]
  | object members =>
    have hperm := (List.perm_insertionSort keyOrder
      (members.map fun m => (m.1, stored m.2))).filter fun m => decide (m.1 = tag)
    have hfilter : (members.map fun m => (m.1, stored m.2)).filter (fun m => decide (m.1 = tag)) =
        (members.filter fun m => decide (m.1 = tag)).map fun m => (m.1, stored m.2) := by
      rw [List.filter_map]
      rfl
    rw [hfilter] at hperm
    simp only [stored_object, readVariant]
    generalize (List.insertionSort keyOrder (members.map fun m => (m.1, stored m.2))).filter
      (fun m => decide (m.1 = tag)) = ordered at hperm
    generalize members.filter (fun m => decide (m.1 = tag)) = kept at hperm
    cases kept with
    | nil =>
      rw [List.map_nil, List.perm_nil] at hperm
      rw [hperm]
    | cons m rest =>
      cases rest with
      | nil =>
        rw [List.map_cons, List.map_nil, List.perm_singleton] at hperm
        rw [hperm]
        exact readString_stored m.2
      | cons next rest =>
        have hlength := hperm.length_eq
        match ordered, hlength with
        | _ :: _ :: _, _ => rfl
  | _ => rfl

@[simp] theorem isUnitVariant_stored (value : Value) :
    (stored value).isUnitVariant = value.isUnitVariant := by
  cases value <;> simp [isUnitVariant]

theorem stored_eq_null (value : Value) (h : stored value = .null) : value = .null := by
  cases value with
  | null => rfl
  | _ => simp at h

/-- The fields of a stored record are the fields of the record, stored. -/
theorem readFields_stored (names : List String) (document : Value) :
    (stored document).readFields names =
      (document.readFields names).map fun fields n => (fields n).map stored := by
  have hmember := member_rename (Equiv.refl String) fun _ => stored
  cases document with
  | object members =>
    have hperm := List.perm_insertionSort keyOrder (members.map fun m => (m.1, stored m.2))
    have hnames : (members.map fun m => (m.1, stored m.2)).map Prod.fst = members.map Prod.fst := by
      simp [List.map_map, Function.comp_def]
    have hnodup := (hperm.map Prod.fst).nodup_iff
    rw [hnames] at hnodup
    have hall : (((members.map fun m => (m.1, stored m.2)).insertionSort keyOrder).all fun m =>
        names.contains m.1) = members.all fun m => names.contains m.1 := by
      rw [hperm.all_eq, List.all_map]
      rfl
    simp only [stored_object, readFields, hall, hnodup]
    split
    case isTrue h =>
      simp only [Option.map_some, Option.some.injEq]
      funext n
      rw [member_perm hperm (hnodup.mpr h.2)]
      exact hmember members n
    case isFalse h => rfl
  | array values =>
    simp only [stored_array, readFields, List.length_map]
    split
    case isTrue h =>
      simp only [Option.map_some, Option.some.injEq]
      funext n
      rw [List.zip_map_right]
      exact hmember _ n
    case isFalse h => rfl
  | _ => rfl

/-- A field of a stored record is read as the field of the record. -/
theorem requiredField_stored {read : Value → Option α} (h : ∀ value, read (stored value) = read value)
    (fields : Fields) (name : String) :
    requiredField (fun n => (fields n).map stored) name read = requiredField fields name read := by
  unfold requiredField
  rw [Option.bind_map]
  congr 1
  funext value
  exact h value

/-- A field that may be left out is read as the field of the record. -/
theorem optionalField_stored {read : Value → Option α} (h : ∀ value, read (stored value) = read value)
    (fields : Fields) (name : String) :
    optionalField (fun n => (fields n).map stored) name read = optionalField fields name read := by
  have hread := readNullable_congr rfl stored_eq_null h
  simp only [optionalField]
  cases fields name with
  | none => rfl
  | some value => exact hread value

end Stored

section Sizes

variable {style : Style}

/-- The size of a member of an object. -/
def memberSize (style : Style) (m : String × Value) : ℕ :=
  utf8Size (quote m.1) + utf8Size style.colon + utf8Size (render style m.2)

/-- The elements of an array take their own sizes and the commas between them. -/
theorem utf8Size_renderValues (values : List Value) :
    utf8Size (renderValues style values) =
      (values.map fun value => utf8Size (render style value)).sum +
        (values.length - 1) * utf8Size style.comma := by
  induction values with
  | nil => simp [renderValues]
  | cons value rest ih =>
    cases rest with
    | nil => simp [renderValues]
    | cons next rest =>
      simp only [renderValues, utf8Size_append, ih, List.map_cons, List.sum_cons, List.length_cons,
        Nat.add_sub_cancel]
      ring

/-- The members of an object take their own sizes and the commas between them. -/
theorem utf8Size_renderMembers (members : List (String × Value)) :
    utf8Size (renderMembers style members) =
      (members.map (memberSize style)).sum + (members.length - 1) * utf8Size style.comma := by
  induction members with
  | nil => simp [renderMembers]
  | cons m rest ih =>
    obtain ⟨name, value⟩ := m
    cases rest with
    | nil => simp [renderMembers, memberSize, Nat.add_assoc]
    | cons next rest =>
      simp only [renderMembers, utf8Size_append, ih, List.map_cons, List.sum_cons, List.length_cons,
        Nat.add_sub_cancel, memberSize]
      ring

mutual

/-- The order of the members does not change the size of a text. -/
theorem utf8Size_render_stored : ∀ value : Value,
    utf8Size (render style (stored value)) = utf8Size (render style value)
  | .null => rfl
  | .bool _ => rfl
  | .number _ => rfl
  | .string _ => rfl
  | .array values => by
    have h := utf8Size_renderValues_stored values
    simp only [stored_array, render, utf8Size_cons, utf8Size_append, utf8Size_renderValues, h,
      List.length_map]
  | .object members => by
    have hperm := List.perm_insertionSort keyOrder (members.map fun m => (m.1, stored m.2))
    have hsum := (hperm.map (memberSize style)).sum_eq
    have h := utf8Size_renderMembers_stored members
    simp only [stored_object, render, utf8Size_cons, utf8Size_append, utf8Size_renderMembers, hsum,
      h, hperm.length_eq, List.length_map]

/-- The same for the elements of an array. -/
theorem utf8Size_renderValues_stored : ∀ values : List Value,
    ((values.map stored).map fun value => utf8Size (render style value)).sum =
      (values.map fun value => utf8Size (render style value)).sum
  | [] => rfl
  | value :: rest => by
    have h := utf8Size_render_stored value
    have hrest := utf8Size_renderValues_stored rest
    simp only [List.map_cons, List.sum_cons, h, hrest]

/-- The same for the members of an object. -/
theorem utf8Size_renderMembers_stored : ∀ members : List (String × Value),
    ((members.map fun m => (m.1, stored m.2)).map (memberSize style)).sum =
      (members.map (memberSize style)).sum
  | [] => rfl
  | (name, value) :: rest => by
    have h := utf8Size_render_stored value
    have hrest := utf8Size_renderMembers_stored rest
    simp only [List.map_cons, List.sum_cons, memberSize, h, hrest]

end

/-- A document takes as much space as it does before its members are ordered. -/
theorem spacedSize_stored (value : Value) : spacedSize (stored value) = spacedSize value :=
  utf8Size_render_stored value

/-- A stored object takes its brackets, its members and what stands between them. -/
theorem spacedSize_object (members : List (String × Value)) :
    spacedSize (.object members) =
      2 + (members.map fun m => utf8Size (quote m.1) + 2 + spacedSize m.2).sum +
        (members.length - 1) * 2 := by
  have hbrace : '\x7b'.utf8Size = 1 ∧ '\x7d'.utf8Size = 1 := by decide
  have hmember : memberSize .spaced = fun m => utf8Size (quote m.1) + 2 + spacedSize m.2 := by
    funext m
    rw [memberSize, utf8Size_colon.2]
    rfl
  rw [← hmember]
  simp only [spacedSize, render, utf8Size_cons, utf8Size_append, utf8Size_nil,
    utf8Size_renderMembers, utf8Size_comma, hbrace]
  ring

/-- A stored array takes its brackets, its elements and what stands between them. -/
theorem spacedSize_array (values : List Value) :
    spacedSize (.array values) = 2 + (values.map spacedSize).sum + (values.length - 1) * 2 := by
  have hbracket : '['.utf8Size = 1 ∧ ']'.utf8Size = 1 := by decide
  have hsum : (values.map spacedSize).sum =
      (values.map fun value => utf8Size (render .spaced value)).sum := rfl
  simp only [hsum, spacedSize, render, utf8Size_cons, utf8Size_append, utf8Size_nil,
    utf8Size_renderValues, utf8Size_comma, hbracket]
  ring

@[simp] theorem spacedSize_string (s : String) : spacedSize (.string s) = utf8Size (quote s) := rfl

@[simp] theorem spacedSize_null : spacedSize .null = 4 := by decide

/-- A truth value takes at most five characters. -/
theorem spacedSize_bool_le (b : Bool) : spacedSize (.bool b) ≤ 5 := by
  cases b <;> decide

/-- The size of a text is its number of bytes. -/
theorem utf8Size_toList (s : String) : utf8Size s.toList = s.utf8ByteSize :=
  Parsing.byteLength_toList s

/-- A character that is not a control character takes at most twice its size. -/
theorem utf8Size_escape_le {c : Char} (h : 32 ≤ c.toNat) :
    utf8Size (escape c) ≤ 2 * c.utf8Size := by
  have hpos := c.utf8Size_pos
  unfold escape
  split
  · decide
  · decide
  · decide
  · decide
  · decide
  · rw [if_neg (by omega), if_neg (by omega), if_neg (by omega)]
    simp only [utf8Size_cons, utf8Size_nil]
    omega

/-- A text without control characters takes at most twice its size in quotes. -/
theorem utf8Size_quote_le {s : String} (h : ∀ c ∈ s.toList, 32 ≤ c.toNat) :
    utf8Size (quote s) ≤ 2 + 2 * s.utf8ByteSize := by
  have hflat : ∀ l : List Char, (∀ c ∈ l, 32 ≤ c.toNat) →
      utf8Size (l.flatMap escape) ≤ 2 * utf8Size l := by
    intro l hl
    induction l with
    | nil => simp
    | cons c l ih =>
      have hc := utf8Size_escape_le (hl c List.mem_cons_self)
      have htail := ih fun d hd => hl d (List.mem_cons_of_mem c hd)
      rw [List.flatMap_cons, utf8Size_append, utf8Size_cons]
      omega
  have hmark : '"'.utf8Size = 1 := by decide
  have hs := hflat s.toList h
  rw [utf8Size_toList] at hs
  simp only [quote, utf8Size_cons, utf8Size_append, utf8Size_nil, hmark]
  omega

/-- The longest escape takes six bytes. -/
theorem utf8Size_escape_le_six (c : Char) : utf8Size (escape c) ≤ 6 * c.utf8Size := by
  have hpos := c.utf8Size_pos
  by_cases h : 32 ≤ c.toNat
  · exact (utf8Size_escape_le h).trans (by omega)
  · have hcontrol : ∀ n < 32, utf8Size (escape (Char.ofNat n)) ≤ 6 := by decide
    have hc := hcontrol c.toNat (by omega)
    rw [Char.ofNat_toNat] at hc
    omega

/-- A text takes at most six times its size in quotes. -/
theorem utf8Size_quote_le_six (s : String) : utf8Size (quote s) ≤ 2 + 6 * s.utf8ByteSize := by
  have hflat : ∀ l : List Char, utf8Size (l.flatMap escape) ≤ 6 * utf8Size l := by
    intro l
    induction l with
    | nil => simp
    | cons c l ih =>
      have hc := utf8Size_escape_le_six c
      rw [List.flatMap_cons, utf8Size_append, utf8Size_cons]
      omega
  have hmark : '"'.utf8Size = 1 := by decide
  have hs := hflat s.toList
  rw [utf8Size_toList] at hs
  simp only [quote, utf8Size_cons, utf8Size_append, utf8Size_nil, hmark]
  omega

/-- A text that needs no escapes takes its size and the quotes. -/
theorem utf8Size_quote_plain {s : String} (h : ∀ c ∈ s.toList, escape c = [c]) :
    utf8Size (quote s) = 2 + s.utf8ByteSize := by
  have hmark : '"'.utf8Size = 1 := by decide
  have hflat : s.toList.flatMap escape = s.toList := by
    rw [List.flatMap_congr h, List.flatMap_singleton']
  simp only [quote, hflat, utf8Size_cons, utf8Size_append, utf8Size_nil, utf8Size_toList, hmark]
  omega

/-- A character that is written as itself. -/
theorem escape_plain {c : Char} (hcontrol : 32 ≤ c.toNat) (hquote : c ≠ '"') (hslash : c ≠ '\\') :
    escape c = [c] := by
  unfold escape
  split
  · exact absurd rfl hquote
  · exact absurd rfl hslash
  · exact absurd hcontrol (by decide)
  · exact absurd hcontrol (by decide)
  · exact absurd hcontrol (by decide)
  · rw [if_neg (by omega), if_neg (by omega), if_neg (by omega)]

/-- Decimal digits take one byte each. -/
theorem utf8Size_toDigits (n : ℕ) :
    utf8Size (Nat.toDigits 10 n) = (Nat.toDigits 10 n).length := by
  have hall : ∀ l : List Char, (∀ c ∈ l, c.isDigit = true) → utf8Size l = l.length := by
    intro l hl
    induction l with
    | nil => rfl
    | cons c l ih =>
      have htail := ih fun d hd => hl d (List.mem_cons_of_mem c hd)
      have hc : c.utf8Size = 1 := by
        have hdigit := hl c List.mem_cons_self
        simp only [Char.isDigit, Bool.and_eq_true, decide_eq_true_eq] at hdigit
        have hle : c.toNat ≤ 57 := hdigit.2
        have h127 : (127 : UInt32).toNat = 127 := by decide
        refine Char.utf8Size_eq_one_iff.mpr (UInt32.le_iff_toNat_le.mpr ?_)
        rw [h127]
        exact le_trans hle (by decide)
      rw [utf8Size_cons, hc, htail, List.length_cons]
      omega
  exact hall _ fun c hc => Nat.isDigit_of_mem_toDigits (by decide) (by decide) hc

/-- A natural number takes its decimal digits. -/
theorem spacedSize_natural (n : ℕ) :
    spacedSize (.number (.integer n)) = (Nat.toDigits 10 n).length := by
  have hneg : ¬ (n : ℤ) < 0 := by omega
  have htext : render .spaced (.number (.integer n)) = Nat.toDigits 10 n := by
    simp only [render, Style.spaced, Number.plain, integerText, if_neg hneg, Int.natAbs_natCast,
      List.nil_append]
  rw [spacedSize, htext, utf8Size_toDigits]

/-- A natural number below a power of ten takes at most that many digits. -/
theorem spacedSize_integer_le {n : ℤ} {k : ℕ} (hpos : 0 < k) (hn : 0 ≤ n) (hlt : n < 10 ^ k) :
    spacedSize (.number (.integer n)) ≤ k := by
  obtain ⟨m, rfl⟩ := Int.eq_ofNat_of_zero_le hn
  rw [spacedSize_natural, Nat.length_toDigits_le_iff (by decide) hpos]
  exact_mod_cast hlt

end Sizes

end Json
