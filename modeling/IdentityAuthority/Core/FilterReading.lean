import IdentityAuthority.Core.FilterGrammar
import Mathlib.Data.List.TakeWhile

/-!
# The parser reads the language of filters

Each step of the parser consumes a text of its symbol and returns what that text denotes, at the cost
of what it returns; or it refuses. No step slices within a character, and no loop runs out of rounds.
-/

namespace IdentityAuthority

open Parsing

namespace Parser

/-- How a parser of this text is observed: it may count 128 nodes and 256 items of sets. -/
def gauge (raw : String) : Gauge Parser (ℕ × ℕ) where
  rest parser := if parser.raw = raw then parser.rest else none
  spent parser := (parser.nodes, parser.setItems)
  within cost := cost.1 ≤ 128 ∧ cost.2 ≤ 256
  within_left x y h := by
    simp only [Prod.fst_add, Prod.snd_add] at h
    omega

/-- From before the text a step refuses, or it consumes a front of the text and returns what it
should for it. -/
abbrev Reads {α : Type} (raw : String) (m : Parse α) (text : List Char)
    (P : List Char → ℕ × ℕ → α → Prop) : Prop :=
  (gauge raw).Reads (fun reason => reason = .invalidQuery) m text P

/-- The parser stands before the text that is to be read. -/
theorem rest_gauge {raw : String} {parser : Parser} {text : List Char}
    (h : (gauge raw).rest parser = some text) :
    parser.raw = raw ∧ fromByte raw.toList parser.offset = some text := by
  simp only [gauge] at h
  split at h
  · rename_i hraw
    subst hraw
    exact ⟨rfl, h⟩
  · cases h

/-- Where a parser stands that has moved on by a front of the text. -/
theorem rest_advance {raw : String} {parser next : Parser} {read left : List Char}
    (h : (gauge raw).rest parser = some (read ++ left)) (hraw : next.raw = parser.raw)
    (hoffset : next.offset = parser.offset + byteLength read) :
    (gauge raw).rest next = some left := by
  obtain ⟨hsame, hrest⟩ := rest_gauge h
  simp only [gauge, hraw, hsame, if_true, rest, hoffset]
  exact fromByte_add hrest

namespace Reads

variable {raw : String} {text : List Char}

theorem fail {α : Type} {P : List Char → ℕ × ℕ → α → Prop} :
    Reads raw (Parser.fail : Parse α) text P := by
  intro parser _ _
  exact .inl ⟨.invalidQuery, rfl, rfl⟩

theorem remaining :
    Reads raw Parser.remaining text fun read cost rest => read = [] ∧ cost = 0 ∧ rest = text := by
  intro parser hrest hwithin
  obtain ⟨hraw, htext⟩ := rest_gauge hrest
  refine .inr ⟨text, parser, [], text, 0, ?_, rfl, hrest, (add_zero _).symm, hwithin, rfl, rfl, rfl⟩
  simp only [Parser.remaining, rest, hraw, htext]

theorem advance (read left : List Char) {bytes : ℕ} (htext : text = read ++ left)
    (hbytes : bytes = byteLength read) :
    Reads raw (Parser.advance bytes) text fun read' cost _ => read' = read ∧ cost = 0 := by
  intro parser hrest hwithin
  subst htext hbytes
  refine .inr ⟨(), { parser with offset := parser.offset + byteLength read }, read, left, 0, rfl, rfl,
    rest_advance hrest rfl rfl, (add_zero _).symm, hwithin, rfl, rfl⟩

theorem rounds :
    Reads raw Parser.rounds text fun read cost bound =>
      read = [] ∧ cost = 0 ∧ text.length < bound := by
  intro parser hrest hwithin
  refine .inr ⟨_, parser, [], text, 0, rfl, rfl, hrest, (add_zero _).symm, hwithin, rfl, rfl, ?_⟩
  obtain ⟨hraw, htext⟩ := rest_gauge hrest
  obtain ⟨front, hfront, -⟩ := fromByte_eq_some.mp htext
  have hbytes := byteLength_toList raw
  rw [hfront, byteLength_append] at hbytes
  have hlength := length_le_byteLength text
  rw [hraw]
  omega

/-- A text that is next is skipped; otherwise nothing is. -/
theorem eat {t : String} :
    Reads raw (Parser.eat t) text fun read cost eaten =>
      cost = 0 ∧ read = if eaten then t.toList else [] := by
  refine Gauge.Reads.bind remaining ?_
  rintro rest read left cost htext ⟨rfl, rfl, rfl⟩
  obtain rfl : rest = left := htext
  refine .ite (fun hprefix => ?_) fun _ => .pure ⟨rfl, rfl⟩
  obtain ⟨after, hafter⟩ := List.isPrefixOf_iff_prefix.mp hprefix
  refine (advance t.toList after hafter.symm (byteLength_toList t).symm).bind ?_
  rintro - read' left' cost' - ⟨rfl, rfl⟩
  exact .pure (by simp)

theorem node : Reads raw Parser.node text fun read cost _ => read = [] ∧ cost = (1, 0) := by
  intro parser hrest hwithin
  simp only [Parser.node]
  split
  · exact .inl ⟨_, rfl, rfl⟩
  · refine .inr ⟨(), _, [], text, (1, 0), rfl, rfl, hrest, rfl, ?_, rfl, rfl⟩
    simp only [gauge] at hwithin ⊢
    omega

theorem setItem : Reads raw Parser.setItem text fun read cost _ => read = [] ∧ cost = (0, 1) := by
  intro parser hrest hwithin
  simp only [Parser.setItem]
  split
  · exact .inl ⟨_, rfl, rfl⟩
  · refine .inr ⟨(), _, [], text, (0, 1), rfl, rfl, hrest, rfl, ?_, rfl, rfl⟩
    simp only [gauge] at hwithin ⊢
    omega

/-- Letters and digits take a byte each. -/
theorem byteLength_alphanumeric {word : List Char} (h : ∀ c ∈ word, alphanumeric c = true) :
    byteLength word = word.length := by
  induction word with
  | nil => rfl
  | cons c word ih =>
    have hc := h c (List.mem_cons_self ..)
    have hsize : c.utf8Size = 1 := by
      have hrange := toNat_of_isAlphanum hc
      have hval : c.toNat = c.val.toNat := rfl
      have hle : c.val.toNat ≤ 127 := by omega
      rw [Char.utf8Size_eq_one_iff]
      exact UInt32.le_iff_toNat_le.mpr hle
    rw [byteLength_cons, hsize, ih fun c hc => h c (List.mem_cons_of_mem _ hc), List.length_cons]
    omega

theorem word : Reads raw Parser.word text fun read cost name => read = name.toList ∧ cost = 0 := by
  refine Gauge.Reads.bind remaining ?_
  rintro rest read left cost htext ⟨rfl, rfl, rfl⟩
  obtain rfl : rest = left := htext
  have hsplit := (List.takeWhile_append_dropWhile (p := alphanumeric) (l := rest)).symm
  have hbytes : byteLength (rest.takeWhile alphanumeric) = (rest.takeWhile alphanumeric).length :=
    byteLength_alphanumeric fun c hc => List.mem_takeWhile_imp hc
  dsimp only
  refine (advance _ _ hsplit hbytes.symm).bind ?_
  rintro - read' left' cost' - ⟨rfl, rfl⟩
  exact .pure (by simp)

/-- A character stands for itself, or a backslash for the character that it escapes. -/
theorem unescape {quote : Option Char} {c : Char} :
    Reads raw (Parser.unescape quote c) text fun read cost c' =>
      cost = 0 ∧ (c = '\\' ∧ read = [c'] ∧ c' ∈ escapable ∨
        c ≠ '\\' ∧ read = [] ∧ c' = c ∧
          (quote.isNone && (isWhitespace c || reserved.contains c)) = false) := by
  refine .ite (fun hescape => ?_) fun hplain => .ite (fun _ => fail) fun hfree => ?_
  · refine Gauge.Reads.bind remaining ?_
    rintro rest read left cost htext ⟨rfl, rfl, rfl⟩
    obtain rfl : rest = left := htext
    cases rest with
    | nil => exact fail
    | cons next rest =>
      refine .ite (fun hnext => ?_) fun _ => fail
      refine (advance [next] rest rfl (by simp)).bind ?_
      rintro - read' left' cost' - ⟨rfl, rfl⟩
      refine .pure ⟨by simp, .inl ⟨hescape, by simp, ?_⟩⟩
      simpa using hnext
  · exact .pure ⟨rfl, .inr ⟨hplain, rfl, rfl, by simpa using hfree⟩⟩

/-- What is added to an operand keeps it printable and short. -/
theorem push {value : String} {c : Char} :
    Reads raw (Parser.push value c) text fun read cost value' =>
      read = [] ∧ cost = 0 ∧ value' = value.push c ∧ isControl c = false ∧
        value'.utf8ByteSize ≤ 1024 := by
  refine .ite (fun _ => fail) fun hcontrol => .ite (fun _ => fail) fun hsize => .pure ?_
  exact ⟨rfl, rfl, rfl, by simpa using hcontrol, by omega⟩

/-- How an operand ends: bare ones at a delimiter or the end of the text, quoted ones at the quote. -/
def closing (quote : Option Char) : List Char := quote.elim [] fun q => [q]

/-- The rounds of an operand spell the characters that they add. -/
theorem operand {quote : Option Char} {bound : ℕ} {value : String} (hbound : text.length < bound)
    (hsize : value.utf8ByteSize ≤ 1024) :
    Reads raw (Parser.operand quote value bound) text fun read cost result =>
      cost = 0 ∧ result.1.utf8ByteSize ≤ 1024 ∧ (result.2 = true → ∃ spelled added,
        Spelled quote spelled added ∧ read = spelled ++ closing quote ∧
          result.1.toList = value.toList ++ added) := by
  induction bound generalizing text value with
  | zero => omega
  | succ bound ih =>
    refine Gauge.Reads.bind remaining ?_
    rintro rest read left cost htext ⟨rfl, rfl, rfl⟩
    obtain rfl : rest = left := htext
    cases rest with
    | nil =>
      refine .pure ⟨by simp, hsize, fun hclosed => ⟨[], [], .nil, ?_, by simp⟩⟩
      cases quote with
      | none => rfl
      | some q => cases hclosed
    | cons c rest =>
      refine .ite (fun hquote => ?_) fun hquote => .ite (fun hend => ?_) fun hinner => ?_
      · refine (advance [c] rest rfl (by simp)).bind ?_
        rintro - read' left' cost' - ⟨rfl, rfl⟩
        exact .pure ⟨by simp, hsize, fun _ => ⟨[], [], .nil, by simp [closing, hquote], by simp⟩⟩
      · refine .pure ⟨by simp, hsize, fun _ => ⟨[], [], .nil, ?_, by simp⟩⟩
        cases quote with
        | none => rfl
        | some q => cases hend
      · refine (advance [c] rest rfl (by simp)).bind ?_
        rintro - read' left' cost' htext' ⟨rfl, rfl⟩
        obtain rfl : rest = left' := by simpa using htext'
        refine Gauge.Reads.bind unescape ?_
        rintro c' read' left' cost' rfl ⟨rfl, hspelling⟩
        refine Gauge.Reads.bind push ?_
        rintro value' read left cost htext'' ⟨rfl, rfl, rfl, hcontrol, hsize'⟩
        obtain rfl : left' = left := htext''
        have hshort : left'.length < bound := by
          simp only [List.length_cons, List.length_append] at hbound
          omega
        refine (ih hshort hsize').mono ?_
        rintro read left cost result - ⟨rfl, hresult, hclosed⟩
        refine ⟨by simp, hresult, fun h => ?_⟩
        obtain ⟨spelled, added, hspelled, rfl, hadded⟩ := hclosed h
        rw [String.toList_push] at hadded
        rcases hspelling with ⟨rfl, rfl, hescapable⟩ | ⟨hbackslash, rfl, rfl, hfree⟩
        · exact ⟨'\\' :: c' :: spelled, c' :: added, .escaped hescapable hspelled, by simp,
            by simp [hadded]⟩
        · refine ⟨c' :: spelled, c' :: added, .plain ?_ hspelled, by simp, by simp [hadded]⟩
          simp only [plainCharacter, hcontrol, Bool.not_false, Bool.true_and, Bool.and_eq_true,
            bne_iff_ne, decide_eq_true_eq]
          refine ⟨⟨hbackslash, hquote⟩, ?_⟩
          cases quote with
          | some q => rfl
          | none =>
            simp only [Option.isNone_none, Bool.true_and, Bool.not_eq_true] at hinner hfree
            simp only [hfree, hinner, Bool.or_false, Bool.not_false, Bool.or_true]

theorem operandOf {quote : Option Char} :
    Reads raw (Parser.operandOf quote) text fun read cost value =>
      cost = 0 ∧ value.utf8ByteSize ≤ 1024 ∧ (quote = none → value ≠ "") ∧
        ∃ spelled, Spelled quote spelled value.toList ∧ read = spelled ++ closing quote := by
  refine Gauge.Reads.bind rounds ?_
  rintro bound read left cost htext ⟨rfl, rfl, hbound⟩
  obtain rfl : text = left := htext
  refine (@operand _ _ _ _ "" hbound (by decide)).bind ?_
  rintro ⟨value, closed⟩ read left cost - ⟨rfl, hsize, hclosed⟩
  refine .ite (fun _ => fail) fun hgood => .pure ?_
  simp only [Bool.or_eq_true, Bool.not_eq_true', not_or, Bool.not_eq_false, Bool.and_eq_true,
    decide_eq_true_eq, Option.isNone_iff_eq_none, not_and] at hgood
  obtain ⟨spelled, added, hspelled, rfl, hadded⟩ := hclosed hgood.1
  refine ⟨by simp, hsize, hgood.2, spelled, ?_, by simp⟩
  rw [hadded]
  simpa using hspelled

/-- An operand is read to its end. -/
theorem value :
    Reads raw Parser.value text fun read cost value => cost = 0 ∧ Operand read value := by
  have hquoted : ∀ (quote : Quote) {text : List Char}, Reads raw (Parser.operandOf (some quote.char))
      text fun read cost value => cost = 0 ∧ Operand (quote.char :: read) value := by
    intro quote text
    refine Gauge.Reads.mono operandOf ?_
    rintro read left cost value - ⟨rfl, hsize, -, spelled, hspelled, rfl⟩
    exact ⟨rfl, .quoted quote hspelled hsize⟩
  refine Gauge.Reads.bind eat ?_
  rintro eaten read left cost htext ⟨rfl, rfl⟩
  refine .ite (fun heaten => ?_) fun heaten => Gauge.Reads.bind eat ?_
  · refine (hquoted .apostrophe).mono ?_
    rintro read left cost value - ⟨rfl, hvalue⟩
    rw [if_pos heaten]
    exact ⟨by simp, hvalue⟩
  · rintro eaten' read left cost htext ⟨rfl, rfl⟩
    refine .ite (fun heaten' => ?_) fun heaten' => ?_
    · refine (hquoted .double).mono ?_
      rintro read left cost value - ⟨rfl, hvalue⟩
      rw [if_neg heaten, if_pos heaten']
      exact ⟨by simp, hvalue⟩
    · refine Gauge.Reads.mono operandOf ?_
      rintro read left cost value - ⟨rfl, hsize, hempty, spelled, hspelled, rfl⟩
      rw [if_neg heaten, if_neg heaten']
      refine ⟨by simp, ?_⟩
      simpa [closing] using Operand.bare hspelled hsize (hempty rfl)

/-- The operands of a set are read to the parenthesis that closes it. -/
theorem setValues {bound : ℕ} :
    Reads raw (Parser.setValues bound) text fun read cost values =>
      cost = (0, values.length) ∧ values.length ≤ bound ∧ SetOperands read values := by
  induction bound generalizing text with
  | zero =>
    refine Gauge.Reads.bind setItem ?_
    rintro - read left cost - ⟨rfl, rfl⟩
    exact fail
  | succ bound ih =>
    refine Gauge.Reads.bind setItem ?_
    rintro - read left cost - ⟨rfl, rfl⟩
    refine Gauge.Reads.bind value ?_
    rintro first read left cost - ⟨rfl, hfirst⟩
    refine Gauge.Reads.bind eat ?_
    rintro closed read' left cost - ⟨rfl, rfl⟩
    refine .ite (fun hclosed => .pure ?_) fun hopen => Gauge.Reads.bind eat ?_
    · rw [if_pos hclosed]
      exact ⟨rfl, by simp, by simpa using SetOperands.last hfirst⟩
    · rintro more read' left cost - ⟨rfl, rfl⟩
      refine .ite (fun hmore => ?_) fun _ => fail
      refine ih.bind ?_
      rintro rest read' left cost - ⟨rfl, hlength, hrest⟩
      rw [if_neg hopen, if_pos hmore]
      refine .pure ⟨?_, ?_, ?_⟩
      · simp [Nat.add_comm]
      · simp only [List.length_cons]
        omega
      · simpa using SetOperands.more hfirst hrest

/-- The operator that is skipped is the one that is returned. -/
theorem operator {ops : List Operator} :
    Reads raw (Parser.operator ops) text fun read cost op => cost = 0 ∧ read = op.text.toList := by
  induction ops generalizing text with
  | nil => exact fail
  | cons op ops ih =>
    refine Gauge.Reads.bind eat ?_
    rintro eaten read left cost - ⟨rfl, rfl⟩
    refine .ite (fun heaten => .pure ?_) fun heaten => ih.mono ?_
    · rw [if_pos heaten]
      exact ⟨rfl, by simp⟩
    · rintro read left cost op' - ⟨rfl, rfl⟩
      rw [if_neg heaten]
      exact ⟨rfl, by simp⟩

theorem operands {op : Operator} :
    Reads raw (Parser.operands op) text fun read cost values =>
      cost = (0, if op.set then values.length else 0) ∧ Operands op read values := by
  refine .ite (fun hset => Gauge.Reads.bind eat ?_) fun hset => Gauge.Reads.bind value ?_
  · rintro opened read left cost - ⟨rfl, rfl⟩
    refine .ite (fun hopened => Gauge.Reads.mono setValues ?_) fun _ => fail
    rintro read left cost values - ⟨rfl, hlength, hvalues⟩
    rw [if_pos hopened, if_pos hset]
    exact ⟨by simp, by simpa using Operands.set hset hvalues hlength⟩
  · rintro value read left cost - ⟨rfl, hvalue⟩
    refine .pure ⟨?_, by simpa using Operands.one (by simpa using hset) hvalue⟩
    rw [if_neg hset]
    rfl

/-- The name of a column is all that is read of it. -/
theorem parse_eq_ok {name : String} {field : Field} (h : Field.parse name = .ok field) :
    field.name = name := by
  unfold Field.parse at h
  split at h
  · rename_i found hfound
    cases h
    simpa using List.find?_some hfound
  · cases h

theorem field {name : String} :
    Reads raw (liftM (Field.parse name)) text fun read cost field =>
      read = [] ∧ cost = 0 ∧ field.name = name := by
  cases hfield : Field.parse name with
  | error reason =>
    intro parser _ _
    refine .inl ⟨reason, rfl, ?_⟩
    unfold Field.parse at hfield
    split at hfield <;> cases hfield
    rfl
  | ok field => exact .pure ⟨rfl, rfl, parse_eq_ok hfield⟩

theorem normalized {format : UuidFormat} {field : Field} {values : List String} :
    Reads raw (Parser.normalized format field values) text fun read cost values' =>
      read = [] ∧ cost = 0 ∧ Denoted format field values values' := by
  refine .ite (fun hprincipal => ?_) fun hother => .pure ⟨rfl, rfl, .itself hother⟩
  subst hprincipal
  cases hids : values.mapM format.parse with
  | none => exact fail
  | some ids => exact .pure ⟨rfl, rfl, .principal hids⟩

/-- Reading a list keeps its length. -/
theorem mapM_length {α β : Type} {f : α → Option β} {l : List α} {l' : List β}
    (h : l.mapM f = some l') : l'.length = l.length := by
  induction l generalizing l' with
  | nil =>
    cases h
    rfl
  | cons a l ih =>
    rw [List.mapM_cons] at h
    obtain ⟨b, -, h⟩ := Option.bind_eq_some_iff.mp h
    obtain ⟨rest, hrest, h⟩ := Option.bind_eq_some_iff.mp h
    cases h
    rw [List.length_cons, List.length_cons, ih hrest]

/-- What operands denote are as many values. -/
theorem denoted_length {format : UuidFormat} {field : Field} {values values' : List String}
    (h : Denoted format field values values') : values'.length = values.length := by
  cases h with
  | principal hids => rw [List.length_map, mapM_length hids]
  | itself => rfl

theorem comparison {format : UuidFormat} :
    Reads raw (Parser.comparison format) text fun read cost expression =>
      cost = expression.cost ∧ Comparison format read expression := by
  refine Gauge.Reads.bind node ?_
  rintro - read left cost - ⟨rfl, rfl⟩
  refine Gauge.Reads.bind word ?_
  rintro name read left cost - ⟨rfl, rfl⟩
  refine Gauge.Reads.bind field ?_
  rintro field read left cost - ⟨rfl, rfl, rfl⟩
  refine Gauge.Reads.bind operator ?_
  rintro op read left cost - ⟨rfl, rfl⟩
  refine Gauge.Reads.bind operands ?_
  rintro values read left cost - ⟨rfl, hoperands⟩
  refine .ite (fun hadmissible => Gauge.Reads.bind normalized ?_) fun _ => fail
  rintro values' read' left cost - ⟨rfl, rfl, hdenoted⟩
  refine .pure ⟨?_, ?_⟩
  · simp [Expression.cost, denoted_length hdenoted]
  · simpa using Comparison.mk hoperands hadmissible hdenoted

end Reads

/-- The texts of a list of items are read to the last item. -/
theorem Reads.items {raw : String} {format : UuidFormat} {depth : ℕ} {junction : Junction}
    {item : Parse Expression} {bound : ℕ} {text : List Char} (hbound : text.length < bound)
    (hitem : ∀ text, Reads raw item text fun read cost expression =>
      cost = expression.cost ∧ Derives format depth junction.item read [expression]) :
    Reads raw (Parser.items (String.singleton junction.separator) item bound) text
      fun read cost items => cost = itemsCost items ∧ Derives format depth (.items junction) read items := by
  induction bound generalizing text with
  | zero => omega
  | succ bound ih =>
    refine (hitem text).bind ?_
    rintro first read left cost htext ⟨rfl, hfirst⟩
    refine Gauge.Reads.bind eat ?_
    rintro more read' left' cost htext' ⟨rfl, rfl⟩
    refine .ite (fun hmore => ?_) fun hmore => .pure ?_
    · rw [if_pos hmore] at htext' ⊢
      have hshort : left'.length < bound := by
        rw [htext, htext'] at hbound
        simp only [List.length_append, String.toList_singleton, List.length_singleton] at hbound
        omega
      refine (ih hshort).bind ?_
      rintro rest read' left cost - ⟨rfl, hrest⟩
      refine .pure ⟨by simp [itemsCost], ?_⟩
      simpa using Derives.more hfirst hrest
    · rw [if_neg hmore]
      exact ⟨by simp [itemsCost], by simpa using Derives.last hfirst⟩

/-- What several conditions cost together, and the node that joins them. -/
theorem joined_cost (junction : Junction) (first next : Expression) (items : List Expression) :
    (junction.joined (first :: next :: items)).cost =
      first.cost + ((1, 0) + itemsCost (next :: items)) := by
  cases junction <;>
    simp only [Junction.joined, Junction.combine, Expression.cost, itemsCost, Prod.ext_iff,
      Prod.fst_add, Prod.snd_add] <;> omega

/-- A list of items is read to its end, and joined if it has more than one. -/
theorem Reads.list {raw : String} {format : UuidFormat} {depth : ℕ} (junction : Junction)
    {item : Parse Expression} {text : List Char}
    (hitem : ∀ text, Reads raw item text fun read cost expression =>
      cost = expression.cost ∧ Derives format depth junction.item read [expression]) :
    Reads raw (Parser.list (String.singleton junction.separator) junction.combine item) text
      fun read cost expression =>
        cost = expression.cost ∧ Derives format depth (.joined junction) read [expression] := by
  refine (hitem text).bind ?_
  rintro first read left cost - ⟨rfl, hfirst⟩
  refine Gauge.Reads.bind eat ?_
  rintro more read' left' cost - ⟨rfl, rfl⟩
  refine .ite (fun hmore => Gauge.Reads.bind node ?_) fun hmore => .pure ?_
  · rintro - read' left cost - ⟨rfl, rfl⟩
    refine Gauge.Reads.bind rounds ?_
    rintro bound read' left' cost hleft ⟨rfl, rfl, hbound⟩
    obtain rfl : left = left' := hleft
    refine (Reads.items hbound hitem).bind ?_
    rintro rest read' left cost - ⟨rfl, hrest⟩
    rw [if_pos hmore]
    obtain ⟨next, items, rfl⟩ : ∃ next items, rest = next :: items := by
      cases hrest with
      | last => exact ⟨_, _, rfl⟩
      | more => exact ⟨_, _, rfl⟩
    refine .pure ⟨?_, ?_⟩
    · have hcost := joined_cost junction first next items
      simpa [Junction.joined] using hcost.symm
    · simpa [Junction.joined] using Derives.join (.more hfirst hrest)
  · rw [if_neg hmore]
    exact ⟨by simp, by simpa [Junction.joined] using Derives.join (.last hfirst)⟩

theorem Reads.primary {raw : String} {format : UuidFormat} {depth : ℕ} {inner : Parse Expression}
    {text : List Char}
    (hinner : ∀ text, Reads raw inner text fun read cost expression =>
      cost = expression.cost ∧
        ∃ d, depth = d + 1 ∧ Derives format d (.joined .or) read [expression]) :
    Reads raw (Parser.primary format inner) text fun read cost expression =>
      cost = expression.cost ∧ Derives format depth .primary read [expression] := by
  refine Gauge.Reads.bind eat ?_
  rintro opened read left cost - ⟨rfl, rfl⟩
  refine .ite (fun hopened => (hinner left).bind ?_) fun hopened => Gauge.Reads.mono comparison ?_
  · rintro expression read left cost - ⟨rfl, d, rfl, hexpression⟩
    refine Gauge.Reads.bind eat ?_
    rintro closed read' left cost - ⟨rfl, rfl⟩
    refine .ite (fun hclosed => .pure ?_) fun _ => fail
    rw [if_pos hopened, if_pos hclosed]
    exact ⟨by simp, by simpa using Derives.group hexpression⟩
  · rintro read left cost expression - ⟨rfl, hcomparison⟩
    rw [if_neg hopened]
    exact ⟨by simp, by simpa using Derives.comparison hcomparison⟩

/-- A condition is read to its end. -/
theorem Reads.expression {raw : String} {format : UuidFormat} {depth : ℕ} {text : List Char} :
    Reads raw (Parser.expression format depth) text fun read cost expression =>
      cost = expression.cost ∧
        ∃ d, depth = d + 1 ∧ Derives format d (.joined .or) read [expression] := by
  induction depth generalizing text with
  | zero => exact fail
  | succ depth ih =>
    refine (Reads.list .or fun text => Reads.list .and fun text =>
      Reads.primary fun text => ih).mono ?_
    rintro read left cost expression - ⟨rfl, hexpression⟩
    exact ⟨rfl, depth, rfl, hexpression⟩

end Parser

end IdentityAuthority
