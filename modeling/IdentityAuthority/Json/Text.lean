import Mathlib.Tactic
import Mathlib.Data.Nat.Digits.Defs

/-!
# JSON values and two texts of them

A value is written compactly, without blanks and with floating-point numbers in their
shortest form, or as a relational database prints a parsed document: one blank after
every comma and colon, and every number in plain decimal notation. The two texts differ
by the separators and by how much each number grows, and the sizes here are exact.
-/

namespace Json

/-- A finite decimal, `± digits · 10 ^ exponent`, without trailing zeros. -/
structure Decimal where
  negative : Bool
  digits : ℕ
  exponent : ℤ
  canonical : digits % 10 ≠ 0 ∨ digits = 0 ∧ exponent = 0
deriving DecidableEq

/-- A number: an integer, or the shortest decimal of a floating-point value. -/
inductive Number
  | integer (value : ℤ)
  | float (value : Decimal)
deriving DecidableEq

/-- A JSON value. -/
inductive Value
  | null
  | bool (value : Bool)
  | number (value : Number)
  | string (value : String)
  | array (values : List Value)
  | object (members : List (String × Value))

/-- The UTF-8 size of a text. -/
def utf8Size (text : List Char) : ℕ := (text.map Char.utf8Size).sum

@[simp] theorem utf8Size_nil : utf8Size [] = 0 := rfl

@[simp] theorem utf8Size_cons (c : Char) (text : List Char) :
    utf8Size (c :: text) = c.utf8Size + utf8Size text := by
  simp [utf8Size]

@[simp] theorem utf8Size_append (text text' : List Char) :
    utf8Size (text ++ text') = utf8Size text + utf8Size text' := by
  simp [utf8Size]

/-- The decimal text of an integer. -/
def integerText (n : ℤ) : List Char :=
  (if n < 0 then ['-'] else []) ++ Nat.toDigits 10 n.natAbs

namespace Decimal

/-- The text of the digits. -/
def digitText (d : Decimal) : List Char := Nat.toDigits 10 d.digits

/-- The place of the decimal point, counted from the first digit. -/
def point (d : Decimal) : ℤ := d.digitText.length + d.exponent

/-- The sign. -/
def sign (d : Decimal) : List Char := if d.negative then ['-'] else []

/-- The shortest text: plain where the point is near the digits, else with an exponent. -/
def shortest (d : Decimal) : List Char :=
  d.sign ++
    if d.digits = 0 then ['0', '.', '0']
    else if 0 ≤ d.exponent ∧ d.point ≤ 16 then
      d.digitText ++ List.replicate d.exponent.toNat '0' ++ ['.', '0']
    else if 0 < d.point ∧ d.point ≤ 16 then
      d.digitText.take d.point.toNat ++ '.' :: d.digitText.drop d.point.toNat
    else if -5 < d.point ∧ d.point ≤ 0 then
      ['0', '.'] ++ List.replicate (-d.point).toNat '0' ++ d.digitText
    else
      (match d.digitText with
        | first :: rest => first :: (if rest = [] then [] else '.' :: rest)
        | [] => []) ++ 'e' :: integerText (d.point - 1)

/-- The plain text of an exact decimal with the scale its shortest text has. -/
def plain (d : Decimal) : List Char :=
  if d.digits = 0 then ['0', '.', '0']
  else d.sign ++
    if 0 ≤ d.exponent then
      d.digitText ++ List.replicate d.exponent.toNat '0' ++
        if d.point ≤ 16 then ['.', '0'] else []
    else if 0 < d.point then
      d.digitText.take d.point.toNat ++ '.' :: d.digitText.drop d.point.toNat
    else ['0', '.'] ++ List.replicate (-d.point).toNat '0' ++ d.digitText

/-- The decimal is a whole number. -/
def integral (d : Decimal) : Bool := decide (0 ≤ d.exponent)

/-- The magnitude of a whole decimal exceeds a bound. -/
def magnitudeExceeds (d : Decimal) (bound : ℕ) : Bool :=
  decide (bound < d.digits * 10 ^ d.exponent.toNat)

end Decimal

namespace Number

/-- The compact text of a number. -/
def shortest : Number → List Char
  | integer n => integerText n
  | float d => d.shortest

/-- The plain decimal text of a number. -/
def plain : Number → List Char
  | integer n => integerText n
  | float d => d.plain

end Number

/-- A character inside a quoted string. -/
def escape (c : Char) : List Char :=
  match c with
  | '"' => ['\\', '"']
  | '\\' => ['\\', '\\']
  | '\n' => ['\\', 'n']
  | '\r' => ['\\', 'r']
  | '\t' => ['\\', 't']
  | c =>
    if c.toNat = 8 then ['\\', 'b']
    else if c.toNat = 12 then ['\\', 'f']
    else if c.toNat < 32 then
      ['\\', 'u', '0', '0', (c.toNat / 16).digitChar, (c.toNat % 16).digitChar]
    else [c]

/-- A quoted string. -/
def quote (s : String) : List Char := '"' :: (s.toList.flatMap escape ++ ['"'])

/-- How a writer separates and prints. -/
structure Style where
  comma : List Char
  colon : List Char
  number : Number → List Char

/-- Without blanks, numbers in their shortest form. -/
def Style.compact : Style := ⟨[','], [':'], Number.shortest⟩

/-- One blank after every comma and colon, numbers in plain notation. -/
def Style.spaced : Style := ⟨[',', ' '], [':', ' '], Number.plain⟩

mutual

/-- The text of a value. -/
def render (style : Style) : Value → List Char
  | .null => "null".toList
  | .bool true => "true".toList
  | .bool false => "false".toList
  | .number n => style.number n
  | .string s => quote s
  | .array values => '[' :: (renderValues style values ++ [']'])
  | .object members => '{' :: (renderMembers style members ++ ['}'])

/-- The text of the elements of an array. -/
def renderValues (style : Style) : List Value → List Char
  | [] => []
  | [value] => render style value
  | value :: rest => render style value ++ style.comma ++ renderValues style rest

/-- The text of the members of an object. -/
def renderMembers (style : Style) : List (String × Value) → List Char
  | [] => []
  | [(name, value)] => quote name ++ style.colon ++ render style value
  | (name, value) :: rest =>
    quote name ++ style.colon ++ render style value ++ style.comma ++ renderMembers style rest

end

mutual

/-- The commas and colons of a value. -/
def separators : Value → ℕ
  | .array values => (values.length - 1) + separatorsValues values
  | .object members => (members.length - 1) + members.length + separatorsMembers members
  | _ => 0

/-- The commas and colons inside the elements of an array. -/
def separatorsValues : List Value → ℕ
  | [] => 0
  | value :: rest => separators value + separatorsValues rest

/-- The commas and colons inside the members of an object. -/
def separatorsMembers : List (String × Value) → ℕ
  | [] => 0
  | (_, value) :: rest => separators value + separatorsMembers rest

end

/-- How much longer the plain text of a number is than its shortest one. -/
def Number.growth (n : Number) : ℤ := utf8Size n.plain - utf8Size n.shortest

mutual

/-- How much the numbers of a value grow in plain notation. -/
def growth : Value → ℤ
  | .number n => n.growth
  | .array values => growthValues values
  | .object members => growthMembers members
  | _ => 0

/-- How much the numbers inside the elements of an array grow. -/
def growthValues : List Value → ℤ
  | [] => 0
  | value :: rest => growth value + growthValues rest

/-- How much the numbers inside the members of an object grow. -/
def growthMembers : List (String × Value) → ℤ
  | [] => 0
  | (_, value) :: rest => growth value + growthMembers rest

end

/-- The size of the compact text. -/
def compactSize (value : Value) : ℕ := utf8Size (render .compact value)

/-- The size of the spaced text. -/
def spacedSize (value : Value) : ℕ := utf8Size (render .spaced value)

@[simp] theorem utf8Size_comma :
    utf8Size Style.compact.comma = 1 ∧ utf8Size Style.spaced.comma = 2 := by decide

@[simp] theorem utf8Size_colon :
    utf8Size Style.compact.colon = 1 ∧ utf8Size Style.spaced.colon = 2 := by decide

mutual

/-- The spaced text exceeds the compact one by one blank for each separator and by the
growth of the numbers. -/
theorem utf8Size_render_spaced : ∀ value : Value,
    (utf8Size (render .spaced value) : ℤ) =
      utf8Size (render .compact value) + separators value + growth value
  | .null => by simp [render, separators, growth]
  | .bool true => by simp [render, separators, growth]
  | .bool false => by simp [render, separators, growth]
  | .number n => by
    simp only [render, separators, growth, Number.growth, Style.spaced, Style.compact]
    push_cast
    ring
  | .string s => by simp [render, separators, growth]
  | .array values => by
    have h := utf8Size_renderValues_spaced values
    simp only [render, separators, growth, utf8Size_cons, utf8Size_append]
    push_cast
    omega
  | .object members => by
    have h := utf8Size_renderMembers_spaced members
    simp only [render, separators, growth, utf8Size_cons, utf8Size_append]
    push_cast
    omega

/-- The same for the elements of an array. -/
theorem utf8Size_renderValues_spaced : ∀ values : List Value,
    (utf8Size (renderValues .spaced values) : ℤ) =
      utf8Size (renderValues .compact values) + (values.length - 1 : ℕ) +
        separatorsValues values + growthValues values
  | [] => by simp [renderValues, separatorsValues, growthValues]
  | [value] => by
    have h := utf8Size_render_spaced value
    simp only [renderValues, separatorsValues, growthValues, List.length_singleton]
    push_cast
    omega
  | value :: next :: rest => by
    have h := utf8Size_render_spaced value
    have hrest := utf8Size_renderValues_spaced (next :: rest)
    simp only [List.length_cons, Nat.add_sub_cancel] at hrest
    simp only [renderValues, separatorsValues.eq_2 value, growthValues.eq_2 value,
      utf8Size_append, utf8Size_comma, List.length_cons, Nat.add_sub_cancel]
    push_cast at hrest ⊢
    omega

/-- The same for the members of an object. -/
theorem utf8Size_renderMembers_spaced : ∀ members : List (String × Value),
    (utf8Size (renderMembers .spaced members) : ℤ) =
      utf8Size (renderMembers .compact members) + (members.length - 1 : ℕ) + members.length +
        separatorsMembers members + growthMembers members
  | [] => by simp [renderMembers, separatorsMembers, growthMembers]
  | [(name, value)] => by
    have h := utf8Size_render_spaced value
    simp only [renderMembers, separatorsMembers, growthMembers, utf8Size_append,
      utf8Size_colon, List.length_singleton]
    push_cast
    omega
  | (name, value) :: next :: rest => by
    have h := utf8Size_render_spaced value
    have hrest := utf8Size_renderMembers_spaced (next :: rest)
    simp only [List.length_cons, Nat.add_sub_cancel] at hrest
    simp only [renderMembers, separatorsMembers.eq_2 name, growthMembers.eq_2 name,
      utf8Size_append, utf8Size_comma, utf8Size_colon, List.length_cons, Nat.add_sub_cancel]
    push_cast at hrest ⊢
    omega

end

/-- The exact size of the spaced text. -/
theorem spacedSize_eq (value : Value) :
    (spacedSize value : ℤ) = compactSize value + separators value + growth value :=
  utf8Size_render_spaced value

end Json
