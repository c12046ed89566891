import IdentityAuthority.Core.FilterReading

/-!
# The parser accepts the language of filters

Before a derived text, followed by what may follow it, the parser consumes the text and returns what
it denotes, if the budgets allow it. A condition that is written out is such a text.
-/

namespace IdentityAuthority

open Parsing

/-- What follows a text is its end, or one of these characters. -/
def EndsAt (stops : List Char) (left : List Char) : Prop := ∀ c ∈ left.head?, c ∈ stops

theorem EndsAt.mono {stops stops' left : List Char} (h : EndsAt stops left) (hsub : stops ⊆ stops') :
    EndsAt stops' left :=
  fun c hc => hsub (h c hc)

namespace Parser

/-- Before a text that starts like this, a step consumes just that, at this cost. -/
abbrev Accepts {α : Type} (raw : String) (m : Parse α) (read : List Char) (cost : ℕ × ℕ) (a : α)
    (follow : List Char → Prop) : Prop :=
  (gauge raw).Accepts m read cost a follow

namespace Accepts

variable {raw : String} {α : Type} {read : List Char} {cost : ℕ × ℕ} {a : α}
  {follow : List Char → Prop}

/-- A step that looks at the text sees what it is to consume, and what follows. -/
theorem remaining {f : List Char → Parse α}
    (h : ∀ left, follow left → Accepts raw (f (read ++ left)) read cost a fun left' => left' = left) :
    Accepts raw (Parser.remaining >>= f) read cost a follow := by
  intro parser left hrest hleft hwithin
  obtain ⟨hraw, htext⟩ := rest_gauge hrest
  obtain ⟨next, hrun, hnext⟩ := h left hleft parser left hrest rfl hwithin
  refine ⟨next, ?_, hnext⟩
  have hlook : Parser.remaining parser = .ok (read ++ left, parser) := by
    simp only [Parser.remaining, rest, hraw, htext]
  simp only [bind, StateT.bind, hlook, Except.bind]
  exact hrun

/-- There are more rounds than characters. -/
theorem rounds {f : ℕ → Parse α}
    (h : ∀ bound, read.length < bound → Accepts raw (f bound) read cost a follow) :
    Accepts raw (Parser.rounds >>= f) read cost a follow := by
  intro parser left hrest hleft hwithin
  obtain ⟨hraw, htext⟩ := rest_gauge hrest
  have hbound : read.length < parser.raw.utf8ByteSize + 1 := by
    obtain ⟨front, hfront, -⟩ := fromByte_eq_some.mp htext
    have hbytes := byteLength_toList raw
    rw [hfront, byteLength_append, byteLength_append] at hbytes
    have hlength := length_le_byteLength read
    rw [hraw]
    omega
  exact h _ hbound parser left hrest hleft hwithin

theorem advance {bytes : ℕ} (hbytes : bytes = byteLength read) :
    Accepts raw (Parser.advance bytes) read 0 () fun _ => True := by
  intro parser left hrest _ _
  subst hbytes
  exact ⟨_, rfl, rest_advance hrest rfl rfl, (add_zero _).symm⟩

/-- The text that is next is skipped. -/
theorem eat (t : String) : Accepts raw (Parser.eat t) t.toList 0 true fun _ => True := by
  refine remaining fun left _ => ?_
  have hprefix : t.toList.isPrefixOf (t.toList ++ left) = true :=
    List.isPrefixOf_iff_prefix.mpr (List.prefix_append _ _)
  rw [if_pos hprefix]
  exact (advance (byteLength_toList t).symm).bind_nil (.pure _ _) fun _ _ => trivial

/-- A text that is not next is not skipped. -/
theorem not_eat (t : String) (h : ∀ left, follow left → ¬ t.toList <+: left) :
    Accepts raw (Parser.eat t) [] 0 false follow := by
  refine remaining fun left hleft => ?_
  have hprefix : ¬ t.toList.isPrefixOf ([] ++ left) = true :=
    fun hprefix => h left hleft (List.isPrefixOf_iff_prefix.mp hprefix)
  rw [if_neg hprefix]
  exact .pure _ _

theorem node : Accepts raw Parser.node [] (1, 0) () fun _ => True := by
  intro parser left hrest _ hwithin
  have hcount : ¬ 128 < parser.nodes + 1 := Nat.not_lt.mpr hwithin.1
  exact ⟨_, if_neg hcount, hrest, rfl⟩

theorem setItem : Accepts raw Parser.setItem [] (0, 1) () fun _ => True := by
  intro parser left hrest _ hwithin
  have hcount : ¬ 256 < parser.setItems + 1 := Nat.not_lt.mpr hwithin.2
  exact ⟨_, if_neg hcount, hrest, rfl⟩

/-- Letters and digits are a word, up to another character. -/
theorem word {name : String} (hname : ∀ c ∈ name.toList, alphanumeric c = true)
    (hfollow : ∀ left, follow left → ∀ c ∈ left.head?, alphanumeric c = false) :
    Accepts raw Parser.word name.toList 0 name follow := by
  refine remaining fun left hleft => ?_
  have hstop : left.takeWhile alphanumeric = [] := by
    cases left with
    | nil => rfl
    | cons c left =>
      have hc := hfollow _ hleft c rfl
      rw [List.takeWhile_cons_of_neg (by simp [hc])]
  have htake : (name.toList ++ left).takeWhile alphanumeric = name.toList := by
    rw [List.takeWhile_append_of_pos hname, hstop, List.append_nil]
  dsimp only
  rw [htake, String.ofList_toList]
  exact (advance (Reads.byteLength_alphanumeric hname).symm).bind_nil (.pure _ _) fun _ _ => trivial

/-- A character that stands for itself. -/
theorem unescape_plain {quote : Option Char} {c : Char} (h : plainCharacter quote c = true) :
    Accepts raw (Parser.unescape quote c) [] 0 c fun _ => True := by
  simp only [plainCharacter, Bool.and_eq_true, bne_iff_ne, Bool.or_eq_true,
    Bool.not_eq_true'] at h
  obtain ⟨⟨⟨-, hbackslash⟩, -⟩, hfree⟩ := h
  have hallowed : ¬ (quote.isNone && (isWhitespace c || reserved.contains c)) = true := by
    cases quote with
    | some q => simp
    | none =>
      simp only [Option.isSome_none, Bool.false_eq_true, false_or, Bool.or_eq_false_iff] at hfree
      rw [hfree.1.1, hfree.1.2]
      simp
  unfold Parser.unescape
  rw [if_neg hbackslash, if_neg hallowed]
  exact .pure _ _

/-- A character that a backslash escapes. -/
theorem unescape_escaped {quote : Option Char} {c : Char} (h : c ∈ escapable) :
    Accepts raw (Parser.unescape quote '\\') [c] 0 c fun _ => True := by
  unfold Parser.unescape
  rw [if_pos rfl]
  refine remaining fun left _ => ?_
  simp only [List.cons_append, List.nil_append]
  rw [if_pos (by simpa using h)]
  exact (advance (by simp)).bind_nil (.pure _ _) fun _ _ => trivial

theorem push {value : String} {c : Char} (hcontrol : isControl c = false)
    (hsize : (value.push c).utf8ByteSize ≤ 1024) :
    Accepts raw (Parser.push value c) [] 0 (value.push c) fun _ => True := by
  unfold Parser.push
  rw [if_neg (by simp [hcontrol]), if_neg (by omega)]
  exact .pure _ _

/-- The characters that may be escaped are printable. -/
theorem escapable_printable : ∀ c ∈ escapable, isControl c = false := by
  simp [escapable, isControl]

/-- A round of an operand: it consumes the spelling of a character, and goes on. -/
theorem round {quote : Option Char} {c c' : Char} {value : String} {bound : ℕ}
    {result : String × Bool} (spelling tail : List Char)
    (hspelling : Accepts raw (Parser.unescape quote c) spelling 0 c' fun _ => True)
    (hcontrol : isControl c' = false) (hsize : (value.push c').utf8ByteSize ≤ 1024)
    (hrest : Accepts raw (Parser.operand quote (value.push c') bound) tail 0 result follow) :
    Accepts raw (do
      Parser.advance c.utf8Size
      let c ← Parser.unescape quote c
      let value ← Parser.push value c
      Parser.operand quote value bound) (c :: (spelling ++ tail)) 0 result follow := by
  have hadvance : Accepts raw (Parser.advance c.utf8Size) [c] 0 () fun _ => True :=
    advance (by simp)
  have hgo := Gauge.Accepts.nil_bind (f := fun v => Parser.operand quote v bound)
    (push hcontrol hsize) hrest fun _ _ => trivial
  exact hadvance.free_bind (hspelling.free_bind hgo fun _ _ => trivial) fun _ _ => trivial

/-- An operand is consumed as it is spelled, with the quote that closes it. -/
theorem operand {quote : Option Char} {spelled added : List Char}
    (hspelled : Spelled quote spelled added) {value : String} {bound : ℕ}
    (hbound : spelled.length < bound) (hsize : value.utf8ByteSize + byteLength added ≤ 1024)
    (hquote : quote ≠ some '\\')
    (hfollow : ∀ left, follow left → quote = none → EndsAt delimiters left) :
    Accepts raw (Parser.operand quote value bound) (spelled ++ Reads.closing quote) 0
      (value ++ String.ofList added, true) follow := by
  induction hspelled generalizing value bound follow with
  | nil =>
    obtain ⟨bound, rfl⟩ : ∃ b, bound = b + 1 := ⟨bound - 1, by omega⟩
    rw [String.ofList_nil, String.append_empty]
    refine remaining fun left hleft => ?_
    cases quote with
    | some q =>
      simp only [Reads.closing, Option.elim_some, List.nil_append, List.cons_append, if_true]
      exact (advance (by simp)).bind_nil (.pure _ _) fun _ _ => trivial
    | none =>
      cases left with
      | nil => exact .pure _ _
      | cons c left =>
        have hdelimiter : delimiters.contains c = true :=
          List.contains_iff_mem.mpr (hfollow _ hleft rfl c rfl)
        simp only [Reads.closing, Option.elim_none, List.append_nil, List.nil_append, reduceCtorEq,
          if_false, Option.isNone_none, hdelimiter, Bool.and_self, if_true]
        exact .pure _ _
  | @plain c spelled added hplain _ ih =>
    obtain ⟨bound, rfl⟩ : ∃ b, bound = b + 1 := ⟨bound - 1, by omega⟩
    have hcopy := hplain
    simp only [plainCharacter, Bool.and_eq_true, Bool.not_eq_true', bne_iff_ne, decide_eq_true_eq,
      Bool.or_eq_true] at hcopy
    obtain ⟨⟨⟨hcontrol, -⟩, hopen⟩, hfree⟩ := hcopy
    have hinner : ¬ (quote.isNone && delimiters.contains c) = true := by
      cases quote with
      | some q => simp
      | none =>
        simp only [Option.isSome_none, Bool.false_eq_true, false_or, Bool.or_eq_false_iff] at hfree
        rw [hfree.2]
        simp
    simp only [byteLength_cons, List.length_cons] at hsize hbound
    have hpushed : (value.push c).utf8ByteSize = value.utf8ByteSize + c.utf8Size :=
      String.utf8ByteSize_push
    have hvalue : value.push c ++ String.ofList added = value ++ String.ofList (c :: added) := by
      rw [String.ofList_cons, ← String.append_assoc, String.push_eq_append]
    refine remaining fun left hleft => ?_
    simp only [List.cons_append]
    rw [if_neg hopen, if_neg hinner, ← hvalue]
    have hrest := @ih (fun left' => left' = left) (value.push c) bound (by omega) (by omega)
      fun left' hsame => hsame ▸ hfollow left hleft
    exact round [] _ (unescape_plain hplain) hcontrol (by omega) hrest
  | @escaped c spelled added hescapable _ ih =>
    obtain ⟨bound, rfl⟩ : ∃ b, bound = b + 1 := ⟨bound - 1, by omega⟩
    have hinner : ¬ (quote.isNone && delimiters.contains '\\') = true := by
      have hdelimiter : delimiters.contains '\\' = false := by decide
      rw [hdelimiter]
      simp
    simp only [byteLength_cons, List.length_cons] at hsize hbound
    have hpushed : (value.push c).utf8ByteSize = value.utf8ByteSize + c.utf8Size :=
      String.utf8ByteSize_push
    have hvalue : value.push c ++ String.ofList added = value ++ String.ofList (c :: added) := by
      rw [String.ofList_cons, ← String.append_assoc, String.push_eq_append]
    refine remaining fun left hleft => ?_
    simp only [List.cons_append]
    rw [if_neg hquote, if_neg hinner, ← hvalue]
    have hrest := @ih (fun left' => left' = left) (value.push c) bound (by omega) (by omega)
      fun left' hsame => hsame ▸ hfollow left hleft
    exact round [c] _ (unescape_escaped hescapable) (escapable_printable c hescapable) (by omega) hrest

theorem operandOf {quote : Option Char} {spelled : List Char} {value : String}
    (hspelled : Spelled quote spelled value.toList) (hsize : value.utf8ByteSize ≤ 1024)
    (hquote : quote ≠ some '\\') (hempty : quote = none → value ≠ "")
    (hfollow : ∀ left, follow left → quote = none → EndsAt delimiters left) :
    Accepts raw (Parser.operandOf quote) (spelled ++ Reads.closing quote) 0 value follow := by
  refine rounds fun bound hbound => ?_
  have hlength : spelled.length < bound := by
    rw [List.length_append] at hbound
    omega
  have hbytes : ("" : String).utf8ByteSize + byteLength value.toList ≤ 1024 := by
    rw [byteLength_toList, String.utf8ByteSize_empty]
    omega
  refine (operand hspelled hlength hbytes hquote hfollow).bind_nil ?_ fun _ h => h
  rw [String.empty_append, String.ofList_toList]
  have hgood : ¬ (!true || (quote.isNone && decide (value = ""))) = true := by
    simp only [Bool.not_true, Bool.false_or, Bool.and_eq_true, Option.isNone_iff_eq_none,
      decide_eq_true_eq, not_and]
    exact hempty
  rw [if_neg hgood]
  exact .pure _ _

/-- A bare operand starts with neither quote. -/
theorem bare_start {spelled : List Char} {value : String}
    (hspelled : Spelled none spelled value.toList) (hempty : value ≠ "") (quote : Quote)
    (left : List Char) : ¬ [quote.char] <+: spelled ++ left := by
  generalize hcharacters : value.toList = characters at hspelled
  cases hspelled with
  | nil => exact absurd (String.toList_eq_nil_iff.mp hcharacters) hempty
  | @plain c text _ hplain _ =>
    intro hprefix
    obtain rfl : quote.char = c := by
      simpa using (List.cons_prefix_cons.mp hprefix).1
    revert hplain
    cases quote <;> decide
  | escaped =>
    intro hprefix
    have hsame := (List.cons_prefix_cons.mp hprefix).1
    revert hsame
    cases quote <;> decide

/-- An operand is consumed, up to what ends it. -/
theorem value {text : List Char} {v : String} (hoperand : Operand text v) :
    Accepts raw Parser.value text 0 v (EndsAt delimiters) := by
  cases hoperand with
  | @quoted spelled _ quote hspelled hsize =>
    have hrest : Accepts raw (Parser.operandOf (some quote.char)) (spelled ++ [quote.char]) 0 v
        (EndsAt delimiters) :=
      operandOf hspelled hsize (by cases quote <;> decide) nofun nofun
    cases quote with
    | apostrophe => exact (eat "'").free_bind hrest fun _ _ => trivial
    | double =>
      have hother : Accepts raw (Parser.eat "'") [] 0 false fun left => ['"'] <+: left := by
        refine not_eat "'" fun left hleft hprefix => ?_
        obtain ⟨tail, rfl⟩ := hleft
        exact absurd (List.cons_prefix_cons.mp hprefix).1 (by decide)
      refine hother.nil_bind ((eat "\"").free_bind hrest fun _ _ => trivial) fun left _ => ?_
      exact ⟨_, rfl⟩
  | bare hspelled hsize hempty =>
    have hno : ∀ quote : Quote, Accepts raw (Parser.eat (String.singleton quote.char)) [] 0 false
        fun left => ∃ tail, left = text ++ tail := by
      intro quote
      refine not_eat _ ?_
      rintro _ ⟨tail, rfl⟩
      rw [String.toList_singleton]
      exact bare_start hspelled hempty quote tail
    have hrest : Accepts raw (Parser.operandOf none) (text ++ []) 0 v (EndsAt delimiters) :=
      operandOf hspelled hsize nofun (fun _ => hempty) fun _ hleft _ => hleft
    rw [List.append_nil] at hrest
    refine (hno .apostrophe).nil_bind ((hno .double).nil_bind hrest ?_) ?_ <;>
      exact fun left _ => ⟨left, rfl⟩

/-- The operands of a set are consumed, with the parenthesis that closes it. -/
theorem setValues {text : List Char} {values : List String} (hset : SetOperands text values)
    {bound : ℕ} (hbound : values.length ≤ bound) :
    Accepts raw (Parser.setValues bound) text (0, values.length) values fun _ => True := by
  induction hset generalizing bound with
  | @last text v hoperand =>
    obtain ⟨bound, rfl⟩ : ∃ b, bound = b + 1 := ⟨bound - 1, by simp at hbound; omega⟩
    have hclose : Accepts raw (Parser.eat ")") [')'] 0 true fun _ => True := eat ")"
    have hend : ∀ left, True → EndsAt delimiters ([')'] ++ left) := by
      rintro left - _ ⟨⟩
      decide
    refine setItem.spend_bind ((value hoperand).free_bind ?_ hend) (add_zero _) fun _ _ => trivial
    exact hclose.bind_nil (.pure [v] _) fun _ h => h
  | @more text rest v values hoperand _ ih =>
    obtain ⟨bound, rfl⟩ : ∃ b, bound = b + 1 := ⟨bound - 1, by simp at hbound; omega⟩
    have hopen : Accepts raw (Parser.eat ")") [] 0 false fun left => [','] <+: left := by
      refine not_eat ")" fun left hleft hprefix => ?_
      obtain ⟨tail, rfl⟩ := hleft
      exact absurd (List.cons_prefix_cons.mp hprefix).1 (by decide)
    have hcomma : Accepts raw (Parser.eat ",") [','] 0 true fun _ => True := eat ","
    have hend : ∀ left, True → EndsAt delimiters (',' :: rest ++ left) := by
      rintro left - _ ⟨⟩
      decide
    have hrest := @ih bound (by simp at hbound; omega)
    have hcost : ((0, 1) : ℕ × ℕ) + (0, values.length) = (0, (v :: values).length) := by
      simp [Nat.add_comm]
    refine setItem.spend_bind ((value hoperand).free_bind ?_ hend) hcost fun _ _ => trivial
    exact hopen.nil_bind (hcomma.free_bind (hrest.bind_nil (.pure _ _) fun _ h => h)
      fun _ _ => trivial) fun left _ => ⟨rest ++ left, rfl⟩

/-- No operator starts like another one. -/
theorem operators_differ : ∀ a ∈ Operator.all, ∀ b ∈ Operator.all,
    a.text.toList <+: b.text.toList → a = b := by
  decide

theorem mem_operators (op : Operator) : op ∈ Operator.all := by
  cases op <;> decide

/-- The operator that is next is the one that is found. -/
theorem operator {op : Operator} {ops : List Operator} (hmem : op ∈ ops) :
    Accepts raw (Parser.operator ops) op.text.toList 0 op fun _ => True := by
  induction ops with
  | nil => cases hmem
  | cons found ops ih =>
    by_cases hfound : found = op
    · subst hfound
      exact (eat found.text).bind_nil (.pure _ _) fun _ _ => trivial
    · have hother : Accepts raw (Parser.eat found.text) [] 0 false fun left =>
          ∃ tail, left = op.text.toList ++ tail := by
        refine not_eat _ ?_
        rintro _ ⟨tail, rfl⟩ hprefix
        rcases List.prefix_or_prefix_of_prefix hprefix (List.prefix_append _ _) with h | h
        · exact hfound (operators_differ _ (mem_operators _) _ (mem_operators _) h)
        · exact hfound (operators_differ _ (mem_operators _) _ (mem_operators _) h).symm
      refine hother.nil_bind (ih ?_) fun left _ => ⟨left, rfl⟩
      exact (List.mem_cons.mp hmem).resolve_left fun h => hfound h.symm

theorem operands {op : Operator} {text : List Char} {values : List String}
    (h : Operands op text values) :
    Accepts raw (Parser.operands op) text (0, if op.set then values.length else 0) values
      (EndsAt delimiters) := by
  cases h with
  | @set text _ hset hvalues hlength =>
    have hopen : Accepts raw (Parser.eat "(") ['('] 0 true fun _ => True := eat "("
    have hrest : Accepts raw (Parser.setValues 64) text (0, values.length) values
        (EndsAt delimiters) := (setValues hvalues hlength).mono fun _ _ => trivial
    unfold Parser.operands
    rw [if_pos hset, if_pos hset]
    exact hopen.free_bind hrest fun _ _ => trivial
  | @one _ v hset hvalue =>
    unfold Parser.operands
    rw [hset, if_neg Bool.false_ne_true, if_neg Bool.false_ne_true]
    exact (value hvalue).bind_nil (.pure [v] _) fun _ h => h

theorem field (f : Field) : Accepts raw (liftM (Field.parse f.name)) [] 0 f fun _ => True := by
  have hparse : Field.parse f.name = .ok f := by
    cases f <;> rfl
  rw [hparse]
  exact .pure _ _

theorem normalized {format : UuidFormat} {f : Field} {values values' : List String}
    (h : Denoted format f values values') :
    Accepts raw (Parser.normalized format f values) [] 0 values' fun _ => True := by
  cases h with
  | principal hids =>
    unfold Parser.normalized
    rw [if_pos rfl, hids]
    exact .pure _ _
  | itself hother =>
    unfold Parser.normalized
    rw [if_neg hother]
    exact .pure _ _

/-- The names of columns are words, and operators end them. -/
theorem name_alphanumeric (f : Field) : ∀ c ∈ f.name.toList, alphanumeric c = true := by
  exact List.all_eq_true.mp (by cases f <;> decide)

/-- The name of a column starts with a letter. -/
theorem name_start (f : Field) : ∃ c cs, f.name.toList = c :: cs ∧ alphanumeric c = true := by
  have hall := name_alphanumeric f
  cases hname : f.name.toList with
  | nil => exact absurd hname (by cases f <;> decide)
  | cons c cs =>
    rw [hname] at hall
    exact ⟨c, cs, rfl, hall c List.mem_cons_self⟩

theorem operator_start (op : Operator) (left : List Char) :
    ∀ c ∈ (op.text.toList ++ left).head?, alphanumeric c = false := by
  cases op <;> rintro _ ⟨⟩ <;> decide

theorem comparison {format : UuidFormat} {text : List Char} {e : Expression}
    (h : Comparison format text e) :
    Accepts raw (Parser.comparison format) text e.cost e (EndsAt delimiters) := by
  obtain @⟨f, op, text, values, values', hoperands, hadmissible, hdenoted⟩ := h
  have hcost : ((1, 0) : ℕ × ℕ) + (0, if op.set then values.length else 0) =
      (Expression.compare f op values').cost := by
    rw [Expression.cost, Reads.denoted_length hdenoted]
    simp
  have hword : Accepts raw Parser.word f.name.toList 0 f.name fun left =>
      ∃ tail, left = op.text.toList ++ tail := by
    refine word (name_alphanumeric f) ?_
    rintro _ ⟨tail, rfl⟩
    exact operator_start op tail
  have hoperator : Accepts raw (Parser.operator Operator.all) op.text.toList 0 op fun _ => True :=
    operator (mem_operators op)
  have hvalues : Accepts raw (do
      let values ← Parser.operands op
      if admissible f op values then do
        let values ← Parser.normalized format f values
        Pure.pure (.compare f op values)
      else fail) text (0, if op.set then values.length else 0) (Expression.compare f op values')
      (EndsAt delimiters) := by
    refine (operands hoperands).bind_nil ?_ fun _ h => h
    rw [if_pos hadmissible]
    exact (normalized hdenoted).nil_bind (.pure _ _) fun _ _ => trivial
  refine node.spend_bind ?_ hcost fun _ _ => trivial
  rw [List.append_assoc]
  refine hword.free_bind ((field f).nil_bind (hoperator.free_bind hvalues fun _ _ => trivial)
    fun _ _ => trivial) fun left _ => ⟨text ++ left, (List.append_assoc ..)⟩

end Accepts

/-- The characters that may follow a list. -/
def stops : Junction → List Char
  | .and => [',', ')']
  | .or => [')']

/-- The parser of the items of a list. -/
def itemOf (format : UuidFormat) (depth : ℕ) : Junction → Parse Expression
  | .and => primary format (expression format depth)
  | .or => list ";" .and (primary format (expression format depth))

/-- The parser of a list. -/
def listOf (format : UuidFormat) (depth : ℕ) (junction : Junction) : Parse Expression :=
  list (String.singleton junction.separator) junction.combine (itemOf format depth junction)

/-- The characters that may follow an item: the separator, and what may follow the list. -/
def itemStops (junction : Junction) : List Char := junction.separator :: stops junction

/-- The parser accepts what is derived from a symbol. -/
def Parses (raw : String) (format : UuidFormat) (depth : ℕ) (symbol : Symbol) (text : List Char)
    (items : List Expression) : Prop :=
  match symbol with
  | .primary => ∀ e, items = [e] →
    Accepts raw (primary format (expression format depth)) text e.cost e (EndsAt delimiters)
  | .items junction =>
    (∀ bound, text.length < bound →
      Accepts raw (Parser.items (String.singleton junction.separator) (itemOf format depth junction)
        bound) text (itemsCost items) items (EndsAt (stops junction))) ∧
    Accepts raw (listOf format depth junction) text (junction.joined items).cost
      (junction.joined items) (EndsAt (stops junction))
  | .joined junction => ∀ e, items = [e] →
    Accepts raw (listOf format depth junction) text e.cost e (EndsAt (stops junction))

/-- A list ends where its separator is not next. -/
theorem separator_ends (junction : Junction) {left : List Char} (h : EndsAt (stops junction) left) :
    ¬ (String.singleton junction.separator).toList <+: left := by
  rw [String.toList_singleton]
  rintro ⟨tail, rfl⟩
  have hstop := h junction.separator rfl
  revert hstop
  cases junction <;> decide

section Parses

variable {raw : String} {format : UuidFormat} {depth : ℕ} {junction : Junction} {text : List Char}

/-- What is derived for an item is accepted as an item. -/
theorem Parses.item {e : Expression} (h : Parses raw format depth junction.item text [e]) :
    Accepts raw (itemOf format depth junction) text e.cost e (EndsAt (itemStops junction)) := by
  cases junction with
  | and => exact (h e rfl).mono fun left hleft => hleft.mono (by decide)
  | or => exact (h e rfl).mono fun left hleft => hleft.mono (by decide)

/-- A comparison starts with the name of a column. -/
theorem comparison_start {e : Expression} (h : Comparison format text e) (left : List Char) :
    ¬ "(".toList <+: text ++ left := by
  obtain @⟨f, op, text, values, values', -, -, -⟩ := h
  obtain ⟨c, cs, hname, hletter⟩ := Accepts.name_start f
  intro hprefix
  rw [hname] at hprefix
  obtain rfl : '(' = c := (List.cons_prefix_cons.mp hprefix).1
  exact absurd hletter (by decide)

/-- The parser accepts what is derived. -/
theorem parses_of_derives {symbol : Symbol} {items : List Expression}
    (h : Derives format depth symbol text items) : Parses raw format depth symbol text items := by
  induction h with
  | @comparison depth text e hcomparison =>
    rintro _ ⟨⟩
    have hopen : Accepts raw (Parser.eat "(") [] 0 false fun left => ∃ tail, left = text ++ tail := by
      refine Accepts.not_eat _ ?_
      rintro _ ⟨tail, rfl⟩
      exact comparison_start hcomparison tail
    exact hopen.nil_bind (Accepts.comparison hcomparison) fun left _ => ⟨left, rfl⟩
  | @group depth text e _ ih =>
    rintro _ ⟨⟩
    have hopen : Accepts raw (Parser.eat "(") ['('] 0 true fun _ => True := .eat "("
    have hclose : Accepts raw (Parser.eat ")") [')'] 0 true fun _ => True := .eat ")"
    have hend : ∀ left, EndsAt delimiters left → EndsAt (stops .or) ([')'] ++ left) := by
      rintro left - _ ⟨⟩
      decide
    have hinner : Accepts raw (do
        let inner ← Parser.expression format (depth + 1)
        if ← Parser.eat ")" then Pure.pure inner else Parser.fail) (text ++ [')']) e.cost e
        (EndsAt delimiters) := by
      refine (ih e rfl).bind_free ?_ hend
      exact hclose.bind_nil (.pure e _) fun _ _ => trivial
    exact hopen.free_bind hinner fun _ _ => trivial
  | @last depth junction text e _ ih =>
    have hseparator : Accepts raw (Parser.eat (String.singleton junction.separator)) [] 0 false
        (EndsAt (stops junction)) := .not_eat _ fun left => separator_ends junction
    have hfollow : ∀ left, EndsAt (stops junction) left → EndsAt (itemStops junction) left :=
      fun left hleft => hleft.mono fun c hc => List.mem_cons_of_mem _ hc
    refine ⟨fun bound hbound => ?_, ?_⟩
    · obtain ⟨bound, rfl⟩ : ∃ b, bound = b + 1 := ⟨bound - 1, by omega⟩
      have hcost : itemsCost [e] = e.cost := by
        simp [itemsCost]
      rw [hcost]
      exact ih.item.bind_nil (hseparator.nil_bind (.pure [e] _) fun _ h => h) hfollow
    · exact ih.item.bind_nil (hseparator.nil_bind (.pure e _) fun _ h => h) hfollow
  | @more depth junction text rest e items _ hrest ih ihrest =>
    have hseparator : Accepts raw (Parser.eat (String.singleton junction.separator))
        [junction.separator] 0 true fun _ => True := by
      have h : Accepts raw (Parser.eat _) _ 0 true fun _ => True :=
        .eat (String.singleton junction.separator)
      rwa [String.toList_singleton] at h
    have hfollow : ∀ left, EndsAt (stops junction) left →
        EndsAt (itemStops junction) (junction.separator :: rest ++ left) := by
      rintro left - _ ⟨⟩
      exact List.mem_cons_self ..
    refine ⟨fun bound hbound => ?_, ?_⟩
    · obtain ⟨bound, rfl⟩ : ∃ b, bound = b + 1 := ⟨bound - 1, by omega⟩
      have hitems := ihrest.1 bound (by simp only [List.length_append, List.length_cons] at hbound; omega)
      refine ih.item.bind ?_ hfollow
      exact hseparator.free_bind (hitems.bind_nil (.pure _ _) fun _ h => h) fun _ _ => trivial
    · obtain ⟨next, items, rfl⟩ : ∃ next others, items = next :: others := by
        cases hrest with
        | last => exact ⟨_, _, rfl⟩
        | more => exact ⟨_, _, rfl⟩
      rw [joined_cost junction]
      refine ih.item.bind (hseparator.free_bind ?_ fun _ _ => trivial) hfollow
      refine Accepts.node.spend_bind ?_ rfl fun _ _ => trivial
      refine Accepts.rounds fun bound hbound => ?_
      exact (ihrest.1 bound hbound).bind_nil (.pure _ _) fun _ h => h
  | join _ ih =>
    rintro _ ⟨⟩
    exact ih.2

end Parses

end Parser

section Writing

variable {format : UuidFormat} {quote : Quote}

/-- Escaping spells printable characters. -/
theorem spelled_escape {characters : List Char} (h : ∀ c ∈ characters, isControl c = false) :
    Spelled (some quote.char)
      (characters.flatMap fun c => if c = quote.char ∨ c = '\\' then ['\\', c] else [c])
      characters := by
  induction characters with
  | nil => exact .nil
  | cons c characters ih =>
    have hrest := ih fun c hc => h c (List.mem_cons_of_mem _ hc)
    rw [List.flatMap_cons]
    by_cases hescape : c = quote.char ∨ c = '\\'
    · rw [if_pos hescape]
      refine .escaped ?_ hrest
      rcases hescape with rfl | rfl
      · cases quote <;> decide
      · decide
    · rw [if_neg hescape]
      refine .plain ?_ hrest
      obtain ⟨hquote, hbackslash⟩ := not_or.mp hescape
      simp [plainCharacter, h c (List.mem_cons_self ..), hbackslash, Ne.symm hquote]

/-- An operand that is written is one. -/
theorem operand_written {value : String} (hsize : value.utf8ByteSize ≤ 1024)
    (hprintable : printable value = true) : Operand (quote.operand value) value := by
  refine .quoted quote (spelled_escape fun c hc => ?_) hsize
  simpa using List.all_eq_true.mp hprintable c hc

theorem setOperands_written {values : List String} (hne : values ≠ [])
    (hsize : ∀ value ∈ values, value.utf8ByteSize ≤ 1024)
    (hprintable : ∀ value ∈ values, printable value = true) :
    SetOperands (quote.setOperands values) values := by
  induction values with
  | nil => exact absurd rfl hne
  | cons value values ih =>
    have hoperand : Operand (quote.operand value) value :=
      operand_written (hsize value (List.mem_cons_self ..)) (hprintable value (List.mem_cons_self ..))
    cases values with
    | nil => exact .last hoperand
    | cons next values =>
      exact .more hoperand (ih (by simp) (fun v hv => hsize v (List.mem_cons_of_mem _ hv))
        fun v hv => hprintable v (List.mem_cons_of_mem _ hv))

/-- A comparison that keeps the rules is written as one. -/
theorem comparison_written {field : Field} {op : Operator} {values : List String}
    (h : ComparisonRules format field op values) :
    Comparison format ((Expression.compare field op values).written quote)
      (.compare field op values) := by
  refine @Comparison.mk _ _ _ _ values _ ?_ ?_ ?_
  · have hcount := h.count
    unfold Quote.operands
    by_cases hset : op.set = true
    · rw [if_pos hset] at hcount ⊢
      refine .set hset (setOperands_written ?_ h.size h.printable) hcount.2
      exact List.length_pos_iff.mp hcount.1
    · rw [if_neg hset] at hcount ⊢
      obtain ⟨value, rfl⟩ := List.length_eq_one_iff.mp hcount
      rw [List.flatMap_cons, List.flatMap_nil, List.append_nil]
      exact .one (by simpa using hset) (operand_written (h.size value (by simp))
        (h.printable value (by simp)))
  · simp only [Parser.admissible, Bool.and_eq_true, Bool.or_eq_true, Bool.not_eq_true', beq_iff_eq,
      List.all_eq_true, decide_eq_true_eq]
    refine ⟨⟨h.column, ?_⟩, ?_⟩
    · rcases hboolean : field.boolean with - | -
      · exact .inl rfl
      · exact .inr (h.boolean hboolean)
    · rcases hnull : op.nullTest with - | -
      · exact .inl rfl
      · exact .inr (h.nullTest hnull)
  · by_cases hprincipal : field = .principalId
    · subst hprincipal
      obtain ⟨ids, hids, rfl⟩ : ∃ ids, values.mapM format.parse = some ids ∧
          ids.map format.text = values := by
        have hall := h.principal rfl
        clear h
        induction values with
        | nil => exact ⟨[], rfl, rfl⟩
        | cons value values ih =>
          obtain ⟨id, rfl⟩ := hall value (List.mem_cons_self ..)
          obtain ⟨ids, hids, rfl⟩ := ih fun v hv => hall v (List.mem_cons_of_mem _ hv)
          refine ⟨id :: ids, ?_, rfl⟩
          rw [List.mapM_cons, format.parse_text, hids]
          rfl
      exact .principal hids
    · exact .itself hprincipal

/-- What is derived for a condition in parentheses is one for an item of any list. -/
theorem derives_item {depth : ℕ} {junction : Junction} {text : List Char} {e : Expression}
    (h : Derives format depth .primary text [e]) : Derives format depth junction.item text [e] := by
  cases junction with
  | and => exact h
  | or => exact @Derives.join _ _ .and _ _ (.last h)

/-- Several conditions that are derived as a list are derived as the condition that joins them. -/
theorem derives_joined {depth : ℕ} {junction : Junction} {text : List Char} {items : List Expression}
    (hitems : Derives format depth (.items junction) text items) (hlength : 2 ≤ items.length) :
    Derives format depth (.joined .or) text [junction.combine items] := by
  have hjoined : junction.joined items = junction.combine items := by
    match items, hlength with
    | _ :: _ :: _, _ => rfl
  rw [← hjoined]
  cases junction with
  | and => exact Derives.join (.last (.join hitems))
  | or => exact .join hitems

mutual

/-- A condition in parentheses is derived as such. -/
theorem derives_grouped (e : Expression) (hwell : e.WellFormed format) (depth : ℕ)
    (hdepth : e.nesting + e.isJoined.toNat ≤ depth) :
    Derives format depth .primary (e.grouped (e.written quote)) [e] := by
  match e with
  | .compare field op values => exact .comparison (comparison_written hwell)
  | .and items =>
    obtain ⟨depth, rfl⟩ : ∃ d, depth = d + 1 :=
      ⟨depth - 1, by simp [Expression.isJoined] at hdepth; omega⟩
    have hitems := derives_writtenItems .and items hwell.2 depth
      (by simpa [Expression.isJoined, Expression.nesting] using hdepth)
      (by rintro rfl; exact absurd hwell.1 (by decide))
    exact .group (derives_joined hitems hwell.1)
  | .or items =>
    obtain ⟨depth, rfl⟩ : ∃ d, depth = d + 1 :=
      ⟨depth - 1, by simp [Expression.isJoined] at hdepth; omega⟩
    have hitems := derives_writtenItems .or items hwell.2 depth
      (by simpa [Expression.isJoined, Expression.nesting] using hdepth)
      (by rintro rfl; exact absurd hwell.1 (by decide))
    exact .group (derives_joined hitems hwell.1)

/-- The items of a list are derived as such. -/
theorem derives_writtenItems (junction : Junction) (items : List Expression)
    (hwell : WellFormedItems format items) (depth : ℕ) (hdepth : itemsNesting items ≤ depth)
    (hne : items ≠ []) :
    Derives format depth (.items junction) (writtenItems quote junction.separator items) items := by
  match items with
  | [] => exact absurd rfl hne
  | [item] =>
    simp only [itemsNesting] at hdepth
    exact .last (derives_item (derives_grouped item hwell.1 depth (by omega)))
  | item :: next :: items =>
    rw [itemsNesting] at hdepth
    have hitem := derives_grouped item hwell.1 depth (by omega)
    have hrest := derives_writtenItems junction (next :: items) hwell.2 depth (by omega) (by simp)
    exact .more (derives_item hitem) hrest

end

/-- A condition that is written out is a filter that denotes it. -/
theorem derives_written {e : Expression} (hwell : e.WellFormed format) {depth : ℕ}
    (hdepth : e.nesting ≤ depth) :
    Derives format depth (.joined .or) (e.written quote) [e] := by
  cases e with
  | compare field op values =>
    exact .join (.last (derives_item (.comparison (comparison_written hwell))))
  | and items =>
    exact derives_joined (derives_writtenItems .and items hwell.2 depth hdepth
      (by rintro rfl; exact absurd hwell.1 (by decide))) hwell.1
  | or items =>
    exact derives_joined (derives_writtenItems .or items hwell.2 depth hdepth
      (by rintro rfl; exact absurd hwell.1 (by decide))) hwell.1

end Writing

section Language

variable {format : UuidFormat} {raw : String} {e : Expression}

/-- No text that is derived is empty. -/
theorem derives_ne_nil {depth : ℕ} {symbol : Symbol} {text : List Char} {items : List Expression}
    (h : Derives format depth symbol text items) : text ≠ [] := by
  induction h with
  | comparison hcomparison =>
    obtain @⟨f, op, text, values, values', -, -, -⟩ := hcomparison
    obtain ⟨c, cs, hname, -⟩ := Parser.Accepts.name_start f
    simp [hname]
  | group => simp
  | last _ ih => exact ih
  | more => simp
  | join _ ih => exact ih

/-- Before the text, a parser has read nothing and spent nothing. -/
theorem gauge_start (raw : String) :
    (Parser.gauge raw).rest ⟨raw, 0, 0, 0⟩ = some raw.toList ∧
      (Parser.gauge raw).spent ⟨raw, 0, 0, 0⟩ = 0 := by
  refine ⟨?_, rfl⟩
  simp only [Parser.gauge, if_true, Parser.rest]
  exact fromByte_append [] raw.toList

/-- A parser has read the whole text just if it stands behind the last byte. -/
theorem rest_end {parser : Parser} {left : List Char}
    (h : (Parser.gauge raw).rest parser = some left) :
    parser.offset = raw.utf8ByteSize ↔ left = [] := by
  obtain ⟨-, hrest⟩ := Parser.rest_gauge h
  obtain ⟨read, hraw, hread⟩ := fromByte_eq_some.mp hrest
  have hbytes := byteLength_toList raw
  rw [hraw, byteLength_append, hread] at hbytes
  constructor
  · intro hend
    have hlength := length_le_byteLength left
    rw [← List.length_eq_zero_iff]
    omega
  · rintro rfl
    rw [byteLength_nil] at hbytes
    omega

/-- Just the bounded filters within the budgets are read, each as the condition that it denotes. -/
theorem parseFilter_eq_ok_iff :
    parseFilter format raw = .ok e ↔
      raw.utf8ByteSize ≤ 8192 ∧ IsFilter format 16 raw e ∧ e.nodes ≤ 128 ∧ e.setItems ≤ 256 := by
  obtain ⟨hstart, hspent⟩ := gauge_start raw
  have hzero : (Parser.gauge raw).within ((Parser.gauge raw).spent ⟨raw, 0, 0, 0⟩) := by
    rw [hspent]
    exact ⟨Nat.zero_le _, Nat.zero_le _⟩
  constructor
  · intro h
    unfold parseFilter at h
    split at h
    · cases h
    · rename_i hbounds
      rcases @Parser.Reads.expression raw format 17 raw.toList _ hstart hzero with
        ⟨reason, hrun, -⟩ | ⟨found, next, read, left, cost, hrun, htext, hleft, hcost, hin, hfound, d,
          hd, hderives⟩
      · rw [hrun] at h
        cases h
      · rw [hrun] at h
        simp only [bind, Except.bind] at h
        split at h
        · rename_i hend
          obtain rfl := (rest_end hleft).mp hend
          cases h
          rw [List.append_nil] at htext
          obtain rfl : d = 16 := by omega
          rw [hcost, hspent, zero_add, hfound] at hin
          refine ⟨by omega, ?_, hin.1, hin.2⟩
          rw [IsFilter, htext]
          exact hderives
        · cases h
  · rintro ⟨hsize, hfilter, hnodes, hsetItems⟩
    have hne : ¬ (raw = "" ∨ 8192 < raw.utf8ByteSize) := by
      rintro (rfl | hlong)
      · exact derives_ne_nil hfilter rfl
      · omega
    have haccepts := @Parser.parses_of_derives raw format 16 _ _ _ hfilter e rfl
    obtain ⟨next, hrun, hrest, -⟩ := haccepts ⟨raw, 0, 0, 0⟩ [] (by rw [List.append_nil]; exact hstart)
      nofun (by rw [hspent, zero_add]; exact ⟨hnodes, hsetItems⟩)
    have hexpression : Parser.expression format 17 ⟨raw, 0, 0, 0⟩ = .ok (e, next) := hrun
    unfold parseFilter
    rw [if_neg hne, hexpression]
    simp only [bind, Except.bind]
    rw [if_pos ((rest_end hrest).mpr rfl)]

/-- A condition that keeps the rules and the budgets is read back from its text. -/
theorem parseFilter_text {quote : Quote} (hwell : e.WellFormed format) (hbudgets : e.WithinBudgets)
    (hsize : (e.text quote).utf8ByteSize ≤ 8192) : parseFilter format (e.text quote) = .ok e := by
  refine parseFilter_eq_ok_iff.mpr ⟨hsize, ?_, hbudgets.nodes, hbudgets.setItems⟩
  rw [IsFilter, Expression.text, String.toList_ofList]
  exact derives_written hwell hbudgets.nesting

/-- Filters are read as they are written, and nothing but filters is read. A condition that keeps the
rules and the budgets is read back from its text. A text that is read is derived as a whole, `;`
binding tighter than `,`, and the result is what it denotes; every text that is so derived, within
the budgets, is read. -/
theorem filter_language (format : UuidFormat) :
    (∀ (quote : Quote) (e : Expression), e.WellFormed format → e.WithinBudgets →
      (e.text quote).utf8ByteSize ≤ 8192 → parseFilter format (e.text quote) = .ok e) ∧
    ∀ (raw : String) (e : Expression), parseFilter format raw = .ok e ↔
      raw.utf8ByteSize ≤ 8192 ∧ IsFilter format 16 raw e ∧ e.nodes ≤ 128 ∧ e.setItems ≤ 256 := by
  constructor
  · intro quote e hwell hbudgets hsize
    exact parseFilter_text hwell hbudgets hsize
  · intro raw e
    exact parseFilter_eq_ok_iff

/-- A comparison of a column other than the principal keeps the rules, if it is one of them. -/
theorem rules_of_other {field : Field} {op : Operator} {values : List String}
    (hother : field ≠ .principalId) (hsortable : field.sortable = true)
    (hboolean : field.boolean = true → (op = .equal ∨ op = .notEqual) ∧
      ∀ value ∈ values, value = "true" ∨ value = "false") (hnull : op.nullTest = false)
    (hcount : if op.set then 1 ≤ values.length ∧ values.length ≤ 64 else values.length = 1)
    (hvalues : ∀ value ∈ values, value.utf8ByteSize ≤ 1024 ∧ printable value = true) :
    ComparisonRules format field op values := by
  refine ⟨.inl hsortable, hboolean, ?_, hcount, fun v hv => (hvalues v hv).1,
    fun v hv => (hvalues v hv).2, fun h => absurd h hother⟩
  rw [hnull]
  nofun

/-- A condition with a set in a nested list. -/
def sampleCondition : Expression :=
  .or [.and [.compare .login .among ["a'b", "x\\"], .compare .displayName .notEqual ["é"]],
    .compare .enabled .equal ["false"]]

/-- It keeps the rules and the budgets, and its text is not too long. -/
theorem sampleCondition_fits : sampleCondition.WellFormed format ∧ sampleCondition.WithinBudgets ∧
    (sampleCondition.text .double).utf8ByteSize ≤ 8192 := by
  have hwell : sampleCondition.WellFormed format := by
    refine ⟨by decide, ⟨by decide, ?_, ?_, trivial⟩, ?_, trivial⟩ <;>
      exact rules_of_other (by decide) rfl (by decide) rfl (by decide) (by decide +kernel)
  have hbudgets : sampleCondition.WithinBudgets := ⟨by decide, by decide, by decide⟩
  exact ⟨hwell, hbudgets, by decide +kernel⟩

/-- It is read back from its text. -/
theorem sampleCondition_language :
    parseFilter .hyphenated (sampleCondition.text .double) = .ok sampleCondition := by
  obtain ⟨hwell, hbudgets, hsize⟩ := sampleCondition_fits
  exact (filter_language .hyphenated).1 .double sampleCondition hwell hbudgets hsize

end Language

end IdentityAuthority
