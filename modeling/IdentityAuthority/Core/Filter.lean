import IdentityAuthority.Core.Identifiers
import IdentityAuthority.Parsing.Reading

/-!
# Filters of accounts

A filter is a tree of comparisons, read from a bounded text. `;` joins conditions that must all
hold and binds tighter than `,`, which joins alternatives; parentheses group. The parser stands at a
byte of the text, and counts what it builds.
-/

namespace IdentityAuthority

open Parsing

/-- A column of the account directory. -/
inductive Field
  | principalId
  | login
  | enabled
  | memberActive
  | hasLocalPassword
  | displayName
  | email
  | profileStatus
  | departmentStatus
  | departmentSnapshot
  | department
  | departmentSubtree
deriving DecidableEq

/-- Why reading a query ends without one. The code has one error; a slice that does not start at a
character would panic, and a loop may still be running. -/
inductive QueryStop
  | invalidQuery
  | panicked
  | unfinished
deriving DecidableEq

namespace Field

/-- The name of a column. -/
def name : Field → String
  | principalId => "principalId"
  | login => "login"
  | enabled => "enabled"
  | memberActive => "memberActive"
  | hasLocalPassword => "hasLocalPassword"
  | displayName => "displayName"
  | email => "email"
  | profileStatus => "profileStatus"
  | departmentStatus => "departmentStatus"
  | departmentSnapshot => "departmentSnapshot"
  | department => "department"
  | departmentSubtree => "departmentSubtree"

/-- All columns. -/
def all : List Field :=
  [principalId, login, enabled, memberActive, hasLocalPassword, displayName, email, profileStatus,
    departmentStatus, departmentSnapshot, department, departmentSubtree]

/-- `Field::parse`. -/
def parse (text : String) : Except QueryStop Field :=
  match all.find? fun field => decide (field.name = text) with
  | some field => .ok field
  | none => .error .invalidQuery

/-- The column comes from a profile. -/
def profile : Field → Bool
  | displayName | email | profileStatus => true
  | _ => false

/-- The column comes from a department. -/
def ofDepartment : Field → Bool
  | departmentStatus | departmentSnapshot | department | departmentSubtree => true
  | _ => false

/-- The column is a truth value; any other one is a text. -/
def boolean : Field → Bool
  | enabled | memberActive | hasLocalPassword => true
  | _ => false

/-- The column has an order. -/
def sortable : Field → Bool
  | departmentSnapshot | department | departmentSubtree => false
  | _ => true

/-- The column may be shown. -/
def output : Field → Bool
  | department | departmentSubtree => false
  | _ => true

end Field

/-- How a column is compared. -/
inductive Operator
  | equal
  | notEqual
  | less
  | lessEqual
  | greater
  | greaterEqual
  | contains
  | among
  | notAmong
  | isNull
  | isNotNull
deriving DecidableEq

namespace Operator

/-- The text of an operator. -/
def text : Operator → String
  | equal => "=="
  | notEqual => "!="
  | less => "=lt="
  | lessEqual => "=le="
  | greater => "=gt="
  | greaterEqual => "=ge="
  | contains => "=icontains="
  | among => "=in="
  | notAmong => "=out="
  | isNull => "=isnull="
  | isNotNull => "=isnotnull="

/-- All operators, in the order they are tried. -/
def all : List Operator :=
  [equal, notEqual, less, lessEqual, greater, greaterEqual, contains, among, notAmong, isNull,
    isNotNull]

/-- The operator compares with the members of a set. -/
def set : Operator → Bool
  | among | notAmong => true
  | _ => false

/-- The operator asks whether there is a value. -/
def nullTest : Operator → Bool
  | isNull | isNotNull => true
  | _ => false

end Operator

/-- A condition on an account. -/
inductive Expression
  | compare (field : Field) (operator : Operator) (values : List String)
  | and (items : List Expression)
  | or (items : List Expression)

mutual

/-- The columns a condition reads, at any depth. -/
def Expression.fields : Expression → List Field
  | .compare field _ _ => [field]
  | .and items => expressionFields items
  | .or items => expressionFields items

/-- The columns that conditions read. -/
def expressionFields : List Expression → List Field
  | [] => []
  | item :: items => item.fields ++ expressionFields items

end

/-- Where a parser stands in a text, and what it has counted. The offset counts bytes. -/
structure Parser where
  raw : String
  offset : ℕ
  nodes : ℕ
  setItems : ℕ

/-- A step of a parser. -/
abbrev Parse (α : Type) : Type := StateT Parser (Except QueryStop) α

namespace Parser

/-- Ends the parser. -/
def stop {α : Type} (reason : QueryStop) : Parse α := fun _ => .error reason

/-- Refuses the text. -/
def fail {α : Type} : Parse α := stop .invalidQuery

/-- The text that is still to be read, if the offset is at a character. -/
def rest (parser : Parser) : Option (List Char) := fromByte parser.raw.toList parser.offset

/-- `self.raw[self.offset..]`. -/
def remaining : Parse (List Char) := fun parser =>
  match parser.rest with
  | some text => .ok (text, parser)
  | none => .error .panicked

/-- Moves on by so many bytes. -/
def advance (bytes : ℕ) : Parse Unit := fun parser =>
  .ok ((), { parser with offset := parser.offset + bytes })

/-- More rounds than a loop takes that reads a character in each round. -/
def rounds : Parse ℕ := fun parser => .ok (parser.raw.utf8ByteSize + 1, parser)

/-- Skips a text if it is next (`eat`). -/
def eat (text : String) : Parse Bool := do
  let rest ← remaining
  if text.toList.isPrefixOf rest then do
    advance text.utf8ByteSize
    pure true
  else pure false

/-- Counts a node of the condition (`node`). -/
def node : Parse Unit := fun parser =>
  if 128 < parser.nodes + 1 then .error .invalidQuery
  else .ok ((), { parser with nodes := parser.nodes + 1 })

/-- Counts an item of a set. -/
def setItem : Parse Unit := fun parser =>
  if 256 < parser.setItems + 1 then .error .invalidQuery
  else .ok ((), { parser with setItems := parser.setItems + 1 })

/-- A letter or a digit (`is_ascii_alphanumeric`). -/
def alphanumeric (c : Char) : Bool := c.isAlphanum

/-- The letters and digits that are next, a byte each. -/
def word : Parse String := do
  let rest ← remaining
  let name := rest.takeWhile alphanumeric
  advance name.length
  pure (String.ofList name)

/-- Adds a character to an operand. -/
def push (value : String) (c : Char) : Parse String :=
  if isControl c then fail
  else if 1024 < (value.push c).utf8ByteSize then fail
  else pure (value.push c)

/-- The characters that may be escaped. -/
def escapable : List Char := ['\\', '\'', '"', ',', ';', '(', ')']

/-- The characters that end an operand without quotes. -/
def delimiters : List Char := [',', ';', ')']

/-- The characters that an operand without quotes does not have. -/
def reserved : List Char := ['(', '\'', '"', '=', '!', '<', '>', '*']

/-- What a character of an operand stands for: a backslash for the one that it escapes. -/
def unescape (quote : Option Char) (c : Char) : Parse Char :=
  if c = '\\' then do
    let rest ← remaining
    match rest with
    | next :: _ =>
      if escapable.contains next then do
        advance next.utf8Size
        pure next
      else fail
    | [] => fail
  else if quote.isNone && (isWhitespace c || reserved.contains c) then fail
  else pure c

/-- Reads the characters of an operand, up to the quote that closes it or the delimiter that ends
it, and whether it is closed. -/
def operand (quote : Option Char) (value : String) : ℕ → Parse (String × Bool)
  | 0 => stop .unfinished
  | bound + 1 => do
    let rest ← remaining
    match rest with
    | [] => pure (value, quote.isNone)
    | c :: _ =>
      if quote = some c then do
        advance c.utf8Size
        pure (value, true)
      else if quote.isNone && delimiters.contains c then pure (value, true)
      else do
        advance c.utf8Size
        let c ← unescape quote c
        let value ← push value c
        operand quote value bound

/-- Reads an operand that was opened by a quote, or by none. -/
def operandOf (quote : Option Char) : Parse String := do
  let bound ← rounds
  let result ← operand quote "" bound
  if !result.2 || (quote.isNone && decide (result.1 = "")) then fail else pure result.1

/-- Reads an operand (`value`). -/
def value : Parse String := do
  if ← eat "'" then operandOf (some '\'')
  else if ← eat "\"" then operandOf (some '"')
  else operandOf none

/-- Reads the operands of a set, of which so many may still come. -/
def setValues : ℕ → Parse (List String)
  | 0 => do
    setItem
    fail
  | left + 1 => do
    setItem
    let first ← value
    if ← eat ")" then pure [first]
    else if ← eat "," then do
      let rest ← setValues left
      pure (first :: rest)
    else fail

/-- Skips the first operator that is next. -/
def operator : List Operator → Parse Operator
  | [] => fail
  | op :: ops => do
    if ← eat op.text then pure op else operator ops

/-- Reads the operands of an operator: a set, or one. -/
def operands (op : Operator) : Parse (List String) :=
  if op.set then do
    if ← eat "(" then setValues 64 else fail
  else do
    let value ← value
    pure [value]

/-- A comparison that means something. -/
def admissible (field : Field) (op : Operator) (values : List String) : Bool :=
  (field.sortable || ((field == .department || field == .departmentSubtree) && op == .equal)) &&
    (!field.boolean || ((op == .equal || op == .notEqual) &&
      values.all fun value => value == "true" || value == "false")) &&
    (!op.nullTest || decide (values = ["true"]))

/-- Operands of the principal are read as UUIDs, and written as the directory spells them. -/
def normalized (format : UuidFormat) (field : Field) (values : List String) : Parse (List String) :=
  if field = .principalId then
    match values.mapM format.parse with
    | some ids => pure (ids.map format.text)
    | none => fail
  else pure values

/-- Reads a comparison. -/
def comparison (format : UuidFormat) : Parse Expression := do
  node
  let name ← word
  let field ← liftM (Field.parse name)
  let op ← operator Operator.all
  let values ← operands op
  if admissible field op values then do
    let values ← normalized format field values
    pure (.compare field op values)
  else fail

/-- Reads the further items of a list; all but the last are followed by the separator. -/
def items (separator : String) (item : Parse Expression) : ℕ → Parse (List Expression)
  | 0 => stop .unfinished
  | bound + 1 => do
    let first ← item
    if ← eat separator then do
      let rest ← items separator item bound
      pure (first :: rest)
    else pure [first]

/-- Reads one item, or a list of items, which is a node of its own. -/
def list (separator : String) (combine : List Expression → Expression) (item : Parse Expression) :
    Parse Expression := do
  let first ← item
  if ← eat separator then do
    node
    let bound ← rounds
    let rest ← items separator item bound
    pure (combine (first :: rest))
  else pure first

/-- Reads a condition in parentheses, or a comparison. -/
def primary (format : UuidFormat) (inner : Parse Expression) : Parse Expression := do
  if ← eat "(" then do
    let expression ← inner
    if ← eat ")" then pure expression else fail
  else comparison format

/-- Reads a condition that may be nested so deep; `,` binds weaker than `;` (`expression`). -/
def expression (format : UuidFormat) : ℕ → Parse Expression
  | 0 => fail
  | depth + 1 => list "," .or (list ";" .and (primary format (expression format depth)))

end Parser

/-- Reads a filter to its end (`parse_filter`). -/
def parseFilter (format : UuidFormat) (raw : String) : Except QueryStop Expression :=
  if raw = "" ∨ 8192 < raw.utf8ByteSize then .error .invalidQuery
  else do
    let result ← Parser.expression format 17 ⟨raw, 0, 0, 0⟩
    if result.2.offset = raw.utf8ByteSize then .ok result.1 else .error .invalidQuery

end IdentityAuthority
