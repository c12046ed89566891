import IdentityAuthority.Json.Text

/-!
# Reading JSON values

Readers of JSON values, each with the writer it inverts. Records are read by name and admit no
other names; an enumeration is read from its wire texts.
-/

namespace Json

variable {α : Type}

namespace Value

/-- A text. -/
def readString : Value → Option String
  | string s => some s
  | _ => none

/-- A whole number inside a range. -/
def readInteger (admissible : ℤ → Bool) : Value → Option ℤ
  | number (.integer n) => if admissible n then some n else none
  | _ => none

/-- Nothing, or a value. -/
def readNullable (read : Value → Option α) : Value → Option (Option α)
  | null => some none
  | value => (read value).map some

/-- A list of values. -/
def readList (read : Value → Option α) : Value → Option (List α)
  | array values => values.mapM read
  | _ => none

/-- A value of an enumeration, by its wire text. -/
def readEnum (all : List α) (wire : α → String) (value : Value) : Option α :=
  value.readString.bind fun s => all.find? fun a => wire a = s

/-- The members of an object that has no names but these, and none twice. -/
def readRecord (names : List String) : Value → Option (List (String × Value))
  | object members =>
    if (members.all fun m => names.contains m.1) ∧ (members.map Prod.fst).Nodup then some members
    else none
  | _ => none

/-- The member of a name. -/
def member (members : List (String × Value)) (name : String) : Option Value := members.lookup name

/-- The text of a member that tags which record an object is. -/
def readTag (name : String) : Value → Option String
  | object members => (member members name).bind readString
  | _ => none

/-- The document with the value of one member replaced. -/
def setMember (document : Value) (name : String) (value : Value) : Value :=
  match document with
  | object members => object (members.map fun m => if m.1 = name then (name, value) else m)
  | other => other

/-- Nothing, or a value. -/
def writeNullable (write : α → Value) : Option α → Value
  | none => null
  | some a => write a

@[simp] theorem readString_string (s : String) : (string s).readString = some s := rfl

/-- The member of a name is the first one with it. -/
@[simp] theorem member_cons (name name' : String) (value : Value) (rest : List (String × Value)) :
    member ((name, value) :: rest) name' = if name' = name then some value else member rest name' := by
  simp only [member, List.lookup_cons]
  split <;> simp_all

theorem readInteger_number {admissible : ℤ → Bool} {n : ℤ} (h : admissible n = true) :
    (number (.integer n)).readInteger admissible = some n := by
  simp [readInteger, h]

/-- An object with exactly the expected names is a record. -/
theorem readRecord_object {names : List String} {members : List (String × Value)}
    (hnames : members.map Prod.fst = names) (hnodup : names.Nodup) :
    (object members).readRecord names = some members := by
  simp only [readRecord]
  rw [if_pos]
  refine ⟨?_, hnames ▸ hnodup⟩
  simp only [List.all_eq_true, List.contains_iff_mem]
  intro m hm
  rw [← hnames]
  exact List.mem_map_of_mem hm

/-- A list is read back where each of its elements is. -/
theorem readList_map {read : Value → Option α} {write : α → Value} {l : List α}
    (h : ∀ a ∈ l, read (write a) = some a) : (array (l.map write)).readList read = some l := by
  simp only [readList]
  induction l with
  | nil => rfl
  | cons a l ih =>
    have hhead := h a List.mem_cons_self
    have htail := ih fun b hb => h b (List.mem_cons_of_mem a hb)
    simp only [List.map_cons, List.mapM_cons, hhead, htail]
    rfl

/-- An optional value is read back where the value is, and is not written as nothing. -/
theorem readNullable_writeNullable {read : Value → Option α} {write : α → Value} {o : Option α}
    (h : ∀ a ∈ o, read (write a) = some a) (hnull : read null = none) :
    (writeNullable write o).readNullable read = some o := by
  cases o with
  | none => rfl
  | some a =>
    have hread := h a rfl
    cases hwritten : write a with
    | null => simp [hwritten, hnull] at hread
    | bool b => simp [writeNullable, readNullable, hwritten, hwritten ▸ hread]
    | number n => simp [writeNullable, readNullable, hwritten, hwritten ▸ hread]
    | string s => simp [writeNullable, readNullable, hwritten, hwritten ▸ hread]
    | array values => simp [writeNullable, readNullable, hwritten, hwritten ▸ hread]
    | object members => simp [writeNullable, readNullable, hwritten, hwritten ▸ hread]

/-- An enumeration is read back where its wire texts differ. -/
theorem readEnum_string {all : List α} {wire : α → String} {a : α} (hmem : a ∈ all)
    (hinjective : ∀ b ∈ all, wire b = wire a → b = a) :
    (string (wire a)).readEnum all wire = some a := by
  simp only [readEnum, readString_string, Option.bind_some]
  cases hfound : all.find? fun b => decide (wire b = wire a) with
  | none =>
    have hdiffers := List.find?_eq_none.mp hfound a hmem
    simp at hdiffers
  | some b =>
    have hwire := List.find?_some hfound
    simp only [decide_eq_true_eq] at hwire
    rw [hinjective b (List.mem_of_find?_eq_some hfound) hwire]

end Value

end Json
