import IdentityAuthority.Json.Text

/-!
# The shape of a JSON value

The values inside a value, how deep its brackets nest and how many members its objects
have together. A checker that walks over a value with a depth and a running count
decides statements about these.
-/

namespace Json

mutual

/-- A value and all values inside it. -/
def nodes : Value → List Value
  | .array values => .array values :: nodesValues values
  | .object members => .object members :: nodesMembers members
  | value => [value]

/-- The values inside the elements of an array. -/
def nodesValues : List Value → List Value
  | [] => []
  | value :: rest => nodes value ++ nodesValues rest

/-- The values inside the members of an object. -/
def nodesMembers : List (String × Value) → List Value
  | [] => []
  | (_, value) :: rest => nodes value ++ nodesMembers rest

end

mutual

/-- How deep arrays and objects nest. -/
def nesting : Value → ℕ
  | .array values => nestingValues values + 1
  | .object members => nestingMembers members + 1
  | _ => 0

/-- How deep the elements of an array nest. -/
def nestingValues : List Value → ℕ
  | [] => 0
  | value :: rest => max (nesting value) (nestingValues rest)

/-- How deep the members of an object nest. -/
def nestingMembers : List (String × Value) → ℕ
  | [] => 0
  | (_, value) :: rest => max (nesting value) (nestingMembers rest)

end

namespace Value

/-- The names of an object's own members. -/
def names : Value → List String
  | object members => members.map Prod.fst
  | _ => []

/-- The elements of an array. -/
def elements : Value → List Value
  | array values => values
  | _ => []

/-- The value is an object. -/
def IsObject (value : Value) : Prop := ∃ members, value = object members

end Value

/-- The members of all objects among some values. -/
def totalMembers (values : List Value) : ℕ := (values.map fun value => value.names.length).sum

/-- A statement about each value inside a value. -/
def Everywhere (P : Value → Prop) (value : Value) : Prop := ∀ node ∈ nodes value, P node

@[simp] theorem totalMembers_nil : totalMembers [] = 0 := rfl

@[simp] theorem totalMembers_cons (value : Value) (rest : List Value) :
    totalMembers (value :: rest) = value.names.length + totalMembers rest := by
  simp [totalMembers]

@[simp] theorem totalMembers_append (values rest : List Value) :
    totalMembers (values ++ rest) = totalMembers values + totalMembers rest := by
  simp [totalMembers]

/-- What implies a statement at each node implies it everywhere. -/
theorem Everywhere.imp {P Q : Value → Prop} {value : Value} (h : Everywhere P value)
    (himp : ∀ node, P node → Q node) : Everywhere Q value :=
  fun node hnode => himp node (h node hnode)

end Json
