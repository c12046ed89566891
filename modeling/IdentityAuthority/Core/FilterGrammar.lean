import IdentityAuthority.Core.Filter

/-!
# The language of filters

What a filter is as a text, apart from any parser: a grammar whose derivations denote conditions, the
rules for comparisons, what a condition costs, and how it is written.
-/

namespace IdentityAuthority

open Parsing

/-- A character that stands for itself in an operand within these quotes, or within none. -/
def plainCharacter (quote : Option Char) (c : Char) : Bool :=
  !isControl c && c != '\\' && decide (quote ≠ some c) &&
    (quote.isSome || !(isWhitespace c || Parser.reserved.contains c || Parser.delimiters.contains c))

/-- How the characters of an operand are spelled: by themselves, or escaped by a backslash. -/
inductive Spelled (quote : Option Char) : List Char → List Char → Prop
  | nil : Spelled quote [] []
  | plain {c : Char} {text value : List Char} :
    plainCharacter quote c = true → Spelled quote text value →
      Spelled quote (c :: text) (c :: value)
  | escaped {c : Char} {text value : List Char} :
    c ∈ Parser.escapable → Spelled quote text value → Spelled quote ('\\' :: c :: text) (c :: value)

/-- The quotes. -/
inductive Quote
  | apostrophe
  | double
deriving DecidableEq

/-- The character of a quote. -/
def Quote.char : Quote → Char
  | apostrophe => '\''
  | double => '"'

/-- An operand is quoted, or it is bare and not empty. -/
inductive Operand : List Char → String → Prop
  | quoted {text : List Char} {value : String} (quote : Quote) :
    Spelled (some quote.char) text value.toList → value.utf8ByteSize ≤ 1024 →
      Operand (quote.char :: text ++ [quote.char]) value
  | bare {text : List Char} {value : String} :
    Spelled none text value.toList → value.utf8ByteSize ≤ 1024 → value ≠ "" → Operand text value

/-- The operands of a set, with the parenthesis that closes it. -/
inductive SetOperands : List Char → List String → Prop
  | last {text : List Char} {value : String} :
    Operand text value → SetOperands (text ++ [')']) [value]
  | more {text rest : List Char} {value : String} {values : List String} :
    Operand text value → SetOperands rest values →
      SetOperands (text ++ ',' :: rest) (value :: values)

/-- The operands of an operator: a set of up to 64, or one. -/
inductive Operands : Operator → List Char → List String → Prop
  | set {op : Operator} {text : List Char} {values : List String} :
    op.set = true → SetOperands text values → values.length ≤ 64 → Operands op ('(' :: text) values
  | one {op : Operator} {text : List Char} {value : String} :
    op.set = false → Operand text value → Operands op text [value]

/-- The values that operands denote: those of the principal are the usual spelling of UUIDs. -/
inductive Denoted (format : UuidFormat) : Field → List String → List String → Prop
  | principal {values : List String} {ids : List Uuid} :
    values.mapM format.parse = some ids → Denoted format .principalId values (ids.map format.text)
  | itself {field : Field} {values : List String} :
    field ≠ .principalId → Denoted format field values values

/-- A comparison. -/
inductive Comparison (format : UuidFormat) : List Char → Expression → Prop
  | mk {field : Field} {op : Operator} {text : List Char} {operands values : List String} :
    Operands op text operands → Parser.admissible field op operands = true →
      Denoted format field operands values →
      Comparison format (field.name.toList ++ op.text.toList ++ text) (.compare field op values)

/-- The ways to join conditions. -/
inductive Junction
  | and
  | or
deriving DecidableEq

namespace Junction

/-- The separator between conditions that are joined. -/
def separator : Junction → Char
  | and => ';'
  | or => ','

/-- The condition that joins several. -/
def combine : Junction → List Expression → Expression
  | and => .and
  | or => .or

/-- One condition is itself; several are joined. -/
def joined (junction : Junction) : List Expression → Expression
  | [item] => item
  | items => junction.combine items

end Junction

/-- The symbols of the grammar. -/
inductive Symbol
  | primary
  | items (junction : Junction)
  | joined (junction : Junction)

/-- What the items of a list are: `;` binds tighter than `,`. -/
def Junction.item : Junction → Symbol
  | .and => .primary
  | .or => .joined .and

/-- A text is derived from a symbol, with parentheses nested so deep at most, and denotes these
conditions. -/
inductive Derives (format : UuidFormat) : ℕ → Symbol → List Char → List Expression → Prop
  | comparison {depth : ℕ} {text : List Char} {expression : Expression} :
    Comparison format text expression → Derives format depth .primary text [expression]
  | group {depth : ℕ} {text : List Char} {expression : Expression} :
    Derives format depth (.joined .or) text [expression] →
      Derives format (depth + 1) .primary ('(' :: text ++ [')']) [expression]
  | last {depth : ℕ} {junction : Junction} {text : List Char} {item : Expression} :
    Derives format depth junction.item text [item] →
      Derives format depth (.items junction) text [item]
  | more {depth : ℕ} {junction : Junction} {text rest : List Char} {item : Expression}
      {items : List Expression} :
    Derives format depth junction.item text [item] → Derives format depth (.items junction) rest items →
      Derives format depth (.items junction) (text ++ junction.separator :: rest) (item :: items)
  | join {depth : ℕ} {junction : Junction} {text : List Char} {items : List Expression} :
    Derives format depth (.items junction) text items →
      Derives format depth (.joined junction) text [junction.joined items]

/-- A text is a filter, with parentheses nested so deep at most. -/
def IsFilter (format : UuidFormat) (depth : ℕ) (text : String) (expression : Expression) : Prop :=
  Derives format depth (.joined .or) text.toList [expression]

/-- The rules for a comparison. -/
structure ComparisonRules (format : UuidFormat) (field : Field) (op : Operator)
    (values : List String) : Prop where
  column : field.sortable = true ∨
    (field = .department ∨ field = .departmentSubtree) ∧ op = .equal
  boolean : field.boolean = true →
    (op = .equal ∨ op = .notEqual) ∧ ∀ value ∈ values, value = "true" ∨ value = "false"
  nullTest : op.nullTest = true → values = ["true"]
  count : if op.set then 1 ≤ values.length ∧ values.length ≤ 64 else values.length = 1
  size : ∀ value ∈ values, value.utf8ByteSize ≤ 1024
  printable : ∀ value ∈ values, printable value = true
  principal : field = .principalId → ∀ value ∈ values, ∃ id, value = format.text id

mutual

/-- Every comparison of a condition keeps the rules, and what is joined are two conditions or more,
at any depth. -/
def Expression.WellFormed (format : UuidFormat) : Expression → Prop
  | .compare field op values => ComparisonRules format field op values
  | .and items => 2 ≤ items.length ∧ WellFormedItems format items
  | .or items => 2 ≤ items.length ∧ WellFormedItems format items

/-- Every one of these conditions is well formed. -/
def WellFormedItems (format : UuidFormat) : List Expression → Prop
  | [] => True
  | item :: items => item.WellFormed format ∧ WellFormedItems format items

end

mutual

/-- How many nodes a condition has, and how many items of sets. -/
def Expression.cost : Expression → ℕ × ℕ
  | .compare _ op values => (1, if op.set then values.length else 0)
  | .and items => (1, 0) + itemsCost items
  | .or items => (1, 0) + itemsCost items

/-- What conditions cost together. -/
def itemsCost : List Expression → ℕ × ℕ
  | [] => 0
  | item :: items => item.cost + itemsCost items

end

/-- The number of nodes of a condition. -/
def Expression.nodes (expression : Expression) : ℕ := expression.cost.1

/-- The number of items in all sets of a condition. -/
def Expression.setItems (expression : Expression) : ℕ := expression.cost.2

/-- The condition joins others. -/
def Expression.isJoined : Expression → Bool
  | .compare .. => false
  | .and _ | .or _ => true

mutual

/-- How deep parentheses are nested where every joined condition within another one has them. -/
def Expression.nesting : Expression → ℕ
  | .compare .. => 0
  | .and items => itemsNesting items
  | .or items => itemsNesting items

/-- How deep parentheses are nested in the items of a list. -/
def itemsNesting : List Expression → ℕ
  | [] => 0
  | item :: items => max (item.nesting + item.isJoined.toNat) (itemsNesting items)

end

/-- The budgets of a filter. -/
structure Expression.WithinBudgets (expression : Expression) : Prop where
  nodes : expression.nodes ≤ 128
  setItems : expression.setItems ≤ 256
  nesting : expression.nesting ≤ 16

/-- An operand in quotes, with its quotes and backslashes escaped. -/
def Quote.operand (quote : Quote) (value : String) : List Char :=
  quote.char :: (value.toList.flatMap fun c =>
    if c = quote.char ∨ c = '\\' then ['\\', c] else [c]) ++ [quote.char]

/-- The operands of a set, up to the parenthesis that closes it. -/
def Quote.setOperands (quote : Quote) : List String → List Char
  | [] => [')']
  | [value] => quote.operand value ++ [')']
  | value :: values => quote.operand value ++ ',' :: quote.setOperands values

/-- The operands of an operator. -/
def Quote.operands (quote : Quote) (op : Operator) (values : List String) : List Char :=
  if op.set then '(' :: quote.setOperands values else (values.flatMap quote.operand)

/-- How an item of a list is written: a joined condition in parentheses. -/
def Expression.grouped (item : Expression) (text : List Char) : List Char :=
  if item.isJoined then '(' :: text ++ [')'] else text

mutual

/-- How a condition is written. -/
def Expression.written (quote : Quote) : Expression → List Char
  | .compare field op values => field.name.toList ++ op.text.toList ++ quote.operands op values
  | .and items => writtenItems quote ';' items
  | .or items => writtenItems quote ',' items

/-- How the items of a list are written. -/
def writtenItems (quote : Quote) (separator : Char) : List Expression → List Char
  | [] => []
  | [item] => item.grouped (item.written quote)
  | item :: next :: items =>
    item.grouped (item.written quote) ++ separator :: writtenItems quote separator (next :: items)

end

/-- A condition as a text. -/
def Expression.text (quote : Quote) (expression : Expression) : String :=
  String.ofList (expression.written quote)

end IdentityAuthority
