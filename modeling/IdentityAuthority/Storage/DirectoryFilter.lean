import IdentityAuthority.Core.Directory
import IdentityAuthority.Json.Codec
import IdentityAuthority.Relational.Condition
import IdentityAuthority.Relational.Recursion

/-!
# Filters in the database

The condition that a filter becomes in the database, piece by piece, and what its tests say of a row
of the account directory. Columns of texts carry the collation `"C"`; bound operands do not, and fall
under the default collation of the database where they are lowered.
-/

namespace IdentityAuthority

open Relational Json

/-- A row of the account directory (`account_rows`). -/
structure DirectoryRow where
  principalId : String
  login : Option String
  enabled : Bool
  memberActive : Bool
  hasLocalPassword : Bool
  displayName : Option String
  email : Option String
  profileStatus : String
  departmentStatus : String
  departmentSnapshot : Option Value

/-- A value of a column that can be compared. -/
inductive Scalar
  | text (value : String)
  | truth (value : Bool)
deriving DecidableEq

/-- The bytes of a text. -/
def bytes (s : String) : List ℕ := s.toByteArray.toList.map UInt8.toNat

/-- Texts are ordered by their bytes under the collation `"C"`; false comes before true. -/
def Scalar.before : Scalar → Scalar → Bool
  | text a, text b => decide (bytes a < bytes b)
  | truth a, truth b => !a && b
  | _, _ => false

/-- The value of a column in a row. -/
def DirectoryRow.scalar (row : DirectoryRow) : Field → Option Scalar
  | .principalId => some (.text row.principalId)
  | .login => row.login.map .text
  | .enabled => some (.truth row.enabled)
  | .memberActive => some (.truth row.memberActive)
  | .hasLocalPassword => some (.truth row.hasLocalPassword)
  | .displayName => row.displayName.map .text
  | .email => row.email.map .text
  | .profileStatus => some (.text row.profileStatus)
  | .departmentStatus => some (.text row.departmentStatus)
  | .departmentSnapshot | .department | .departmentSubtree => none

/-- How two values are compared. -/
inductive Comparator
  | equal
  | notEqual
  | less
  | lessEqual
  | greater
  | greaterEqual
deriving DecidableEq

/-- Whether two values compare so. -/
def Comparator.compare : Comparator → Scalar → Scalar → Bool
  | equal, a, b => decide (a = b)
  | notEqual, a, b => decide (a ≠ b)
  | less, a, b => a.before b
  | lessEqual, a, b => a.before b || decide (a = b)
  | greater, a, b => b.before a
  | greaterEqual, a, b => b.before a || decide (a = b)

/-- A test of a row. -/
inductive RowTest
  | compare (column : Field) (comparator : Comparator) (operand : Scalar)
  | isNull (column : Field)
  | isNotNull (column : Field)
  | contains (column : Field) (text : String)
  | departmentAvailable
  | ancestor (subtree : Bool) (id : String)

/-- Lowering the ASCII letters, as `lower` does under the collation `"C"`. -/
def asciiLower (text : List Char) : List Char := text.map Char.toLower

/-- `lower` under the default collation of a database. It lowers the ASCII letters, and may lower
others; lowering never makes a text shorter. -/
structure DefaultCollation where
  lower : List Char → List Char
  lower_ascii : ∀ text, (∀ c ∈ text, c.val < 128) → lower text = asciiLower text
  lower_congr : ∀ text text', asciiLower text = asciiLower text' → lower text = lower text'
  length_le : ∀ text, text.length ≤ (lower text).length

/-- `value -> name`. -/
def jsonMember (value : Value) (name : String) : Option Value :=
  match value with
  | .object members => Value.member members name
  | _ => none

/-- A value as a text: `null` is none (`#>> '{}'`). -/
def jsonText : Value → Option String
  | .null => none
  | .string s => some s
  | value => some (String.ofList (render .spaced value))

/-- `value ->> name`. -/
def jsonMemberText (value : Value) (name : String) : Option String :=
  (jsonMember value name).bind jsonText

/-- `jsonb_array_elements(document -> name)`; without a document there are none. -/
def jsonElements (document : Option Value) (name : String) : List Value :=
  match document.bind fun value => jsonMember value name with
  | some (.array values) => values
  | _ => []

/-- The rows that a round of the recursive query derives from a row: the parents of the nodes with
that code. -/
def parentRows (document : Option Value) (subtree : Bool) (id : Option String) :
    List (Option String) :=
  ((jsonElements document "nodes").filter fun n =>
    (((Truth.compare (fun a b => decide (a = b)) (jsonMemberText n "id") id).and
      (some subtree)).and (some (jsonMemberText n "parentId").isSome)).holds).map
    fun n => jsonMemberText n "parentId"

/-- `WITH RECURSIVE ancestors(id)`: the memberships, and for subtrees what follows from them. -/
def ancestors (document : Option Value) (subtree : Bool) : Option (List (Option String)) :=
  let memberships := (jsonElements document "memberships").map jsonText
  Relational.recursive (parentRows document subtree)
    (memberships.length + (jsonElements document "nodes").length + 1) memberships

/-- `strpos(a, b) > 0`. -/
def occurs (text part : List Char) : Bool := decide (part <:+: text)

/-- What a test says of a row. -/
def RowTest.value (collation : DefaultCollation) (row : DirectoryRow) : RowTest → Truth
  | compare column comparator operand =>
    Truth.compare comparator.compare (row.scalar column) (some operand)
  | isNull column => some (row.scalar column).isNone
  | isNotNull column => some (row.scalar column).isSome
  | contains column text =>
    match row.scalar column with
    | some (.text s) => some (occurs (asciiLower s.toList) (collation.lower text.toList))
    | _ => none
  | departmentAvailable => some (decide (row.departmentStatus = "available"))
  | ancestor subtree id =>
    (ancestors row.departmentSnapshot subtree).map fun ids =>
      ids.any fun found => (Truth.compare (fun a b => decide (a = b)) found (some id)).holds

/-- The column of a field. There is none for departments and their snapshots: `unreachable!`. -/
def column : Field → Option Field
  | .departmentSnapshot | .department | .departmentSubtree => none
  | field => some field

/-- What is bound for an operand. -/
def operand (field : Field) (value : String) : Scalar :=
  if field.boolean then .truth (decide (value = "true")) else .text value

/-- The comparator of an operator. There is none for some: `unreachable!`. -/
def comparator : Operator → Option Comparator
  | .equal | .among => some .equal
  | .notEqual | .notAmong => some .notEqual
  | .less => some .less
  | .lessEqual => some .lessEqual
  | .greater => some .greater
  | .greaterEqual => some .greaterEqual
  | .contains | .isNull | .isNotNull => none

/-- The comparisons with each operand, joined. -/
def comparePieces (field : Field) (op : Operator) : List String → Option (List (Piece RowTest))
  | [] => some []
  | [value] => do
    let found ← column field
    let relation ← comparator op
    pure [.test (.compare found relation (operand field value))]
  | value :: next :: values => do
    let found ← column field
    let relation ← comparator op
    let rest ← comparePieces field op (next :: values)
    pure (.test (.compare found relation (operand field value)) ::
      .connective (if op = .notAmong then .and else .or) :: rest)

/-- The pieces of a comparison; there are none where the code would panic. -/
def testPieces (field : Field) (op : Operator) (values : List String) :
    Option (List (Piece RowTest)) :=
  if field = .department ∨ field = .departmentSubtree then do
    let value ← values.head?
    pure [.test .departmentAvailable, .connective .and,
      .test (.ancestor (decide (field = .departmentSubtree)) value)]
  else if op.nullTest then do
    let found ← column field
    pure [.test (if op = .isNull then .isNull found else .isNotNull found)]
  else if op = .contains then do
    let found ← column field
    let value ← values.head?
    pure [.test (.contains found value)]
  else comparePieces field op values

/-- What is pushed within parentheses. -/
def parenthesised (pieces : List (Piece RowTest)) : List (Piece RowTest) :=
  .opening :: pieces ++ [.closing]

mutual

/-- The pieces of a filter (`filter`); there are none where the code would panic. -/
def filterPieces : Expression → Option (List (Piece RowTest))
  | .and items => (itemPieces .and items).map parenthesised
  | .or items => (itemPieces .or items).map parenthesised
  | .compare field op values => (testPieces field op values).map parenthesised

/-- The pieces of the items of a list, joined. -/
def itemPieces (connective : Connective) : List Expression → Option (List (Piece RowTest))
  | [] => some []
  | [item] => filterPieces item
  | item :: next :: items =>
    (filterPieces item).bind fun first =>
      (itemPieces connective (next :: items)).map fun rest =>
        first ++ .connective connective :: rest

end

end IdentityAuthority
