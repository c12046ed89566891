import IdentityAuthority.Core.FilterAcceptance

/-!
# What a filter that was read keeps to

Whatever a parser of filters is given, it ends with a condition or a refusal. A condition that it
returns keeps the rules for comparisons and the budgets.
-/

namespace IdentityAuthority

open Parsing

/-- The usual spelling of a UUID is short and printable, and no UUID is spelled `true`. -/
structure UuidFormat.Standard (format : UuidFormat) : Prop where
  size : ∀ s id, format.parse s = some id → (format.text id).utf8ByteSize ≤ max 36 s.utf8ByteSize
  printable : ∀ id, printable (format.text id) = true
  refuses : format.parse "true" = none

section Standard

/-- The digits of a number are printable. -/
theorem printable_toDigits (n : ℕ) : ∀ c ∈ Nat.toDigits 16 n, isControl c = false := by
  have hdigit : ∀ d < 16, isControl d.digitChar = false := by decide
  induction n using Nat.strongRecOn with
  | ind n ih =>
    intro c hc
    by_cases hn : n < 16
    · rw [Nat.toDigits_of_lt_base hn, List.mem_singleton] at hc
      rw [hc]
      exact hdigit n hn
    · rw [Nat.toDigits_of_base_le (by decide) (by omega), List.mem_append, List.mem_singleton] at hc
      rcases hc with hc | hc
      · exact ih (n / 16) (by omega) c hc
      · rw [hc]
        exact hdigit (n % 16) (Nat.mod_lt n (by decide))

/-- Hyphenated digits are digits and hyphens. -/
theorem mem_hyphenate {digits : List Char} {c : Char} (h : c ∈ hyphenate digits) :
    c ∈ digits ∨ c = '-' := by
  simp only [hyphenate, List.mem_append, List.mem_cons] at h
  have htake : ∀ m n, c ∈ (digits.drop m).take n → c ∈ digits :=
    fun m n hc => List.mem_of_mem_drop (List.mem_of_mem_take hc)
  rcases h with (((h | h | h) | h | h) | h | h) | h | h
  · exact .inl (List.mem_of_mem_take h)
  · exact .inr h
  · exact .inl (htake _ _ h)
  · exact .inr h
  · exact .inl (htake _ _ h)
  · exact .inr h
  · exact .inl (htake _ _ h)
  · exact .inr h
  · exact .inl (List.mem_of_mem_drop h)

/-- The hyphenated spelling is a usual one. -/
theorem hyphenated_standard : UuidFormat.hyphenated.Standard := by
  refine ⟨?_, ?_, by decide +kernel⟩
  · intro s id h
    simp only [UuidFormat.hyphenated] at h ⊢
    split at h
    · rename_i hs
      cases h
      rw [hs.2]
      exact le_max_right _ _
    · cases h
  · intro id
    refine List.all_eq_true.mpr fun c hc => ?_
    simp only [UuidFormat.hyphenated, String.toList_ofList] at hc
    rw [Bool.not_eq_true']
    rcases mem_hyphenate hc with hc | rfl
    · rw [hexDigits, List.mem_append] at hc
      rcases hc with hc | hc
      · rw [List.eq_of_mem_replicate hc]
        decide
      · exact printable_toDigits _ c hc
    · decide

end Standard

section Rules

variable {format : UuidFormat}

/-- The characters that are spelled are printable. -/
theorem spelled_printable {quote : Option Char} {text characters : List Char}
    (h : Spelled quote text characters) : ∀ c ∈ characters, isControl c = false := by
  induction h with
  | nil => simp
  | plain hplain _ ih =>
    intro c hc
    rcases List.mem_cons.mp hc with rfl | hc
    · simp only [plainCharacter, Bool.and_eq_true, Bool.not_eq_true'] at hplain
      exact hplain.1.1.1
    · exact ih c hc
  | escaped hescapable _ ih =>
    intro c hc
    rcases List.mem_cons.mp hc with rfl | hc
    · exact Parser.Accepts.escapable_printable c hescapable
    · exact ih c hc

/-- An operand is short and printable. -/
theorem Operand.bounded {text : List Char} {value : String} (h : Operand text value) :
    value.utf8ByteSize ≤ 1024 ∧ printable value = true := by
  cases h with
  | quoted quote hspelled hsize =>
    refine ⟨hsize, List.all_eq_true.mpr fun c hc => ?_⟩
    rw [spelled_printable hspelled c hc]
    rfl
  | bare hspelled hsize =>
    refine ⟨hsize, List.all_eq_true.mpr fun c hc => ?_⟩
    rw [spelled_printable hspelled c hc]
    rfl

theorem SetOperands.bounded {text : List Char} {values : List String} (h : SetOperands text values) :
    values ≠ [] ∧ ∀ value ∈ values, value.utf8ByteSize ≤ 1024 ∧ printable value = true := by
  induction h with
  | last hoperand =>
    refine ⟨by simp, fun value hvalue => ?_⟩
    rw [List.mem_singleton.mp hvalue]
    exact hoperand.bounded
  | more hoperand _ ih =>
    refine ⟨by simp, fun value hvalue => ?_⟩
    rcases List.mem_cons.mp hvalue with rfl | hvalue
    · exact hoperand.bounded
    · exact ih.2 value hvalue

/-- Operands are as many as the operator takes, short and printable. -/
theorem Operands.bounded {op : Operator} {text : List Char} {values : List String}
    (h : Operands op text values) :
    (if op.set then 1 ≤ values.length ∧ values.length ≤ 64 else values.length = 1) ∧
      ∀ value ∈ values, value.utf8ByteSize ≤ 1024 ∧ printable value = true := by
  cases h with
  | set hset hvalues hlength =>
    rw [if_pos hset]
    exact ⟨⟨List.length_pos_iff.mpr hvalues.bounded.1, hlength⟩, hvalues.bounded.2⟩
  | one hset hvalue =>
    rw [if_neg (by simp [hset])]
    refine ⟨rfl, fun value h => ?_⟩
    rw [List.mem_singleton.mp h]
    exact hvalue.bounded

/-- What is read of a list comes from its values. -/
theorem mem_mapM {α β : Type} {f : α → Option β} {l : List α} {l' : List β} (h : l.mapM f = some l')
    {b : β} (hb : b ∈ l') : ∃ a ∈ l, f a = some b := by
  induction l generalizing l' with
  | nil =>
    cases h
    cases hb
  | cons a l ih =>
    rw [List.mapM_cons] at h
    obtain ⟨b', hb', h⟩ := Option.bind_eq_some_iff.mp h
    obtain ⟨rest, hrest, h⟩ := Option.bind_eq_some_iff.mp h
    cases h
    rcases List.mem_cons.mp hb with rfl | hb
    · exact ⟨a, List.mem_cons_self .., hb'⟩
    · obtain ⟨a', ha', hf⟩ := ih hrest hb
      exact ⟨a', List.mem_cons_of_mem _ ha', hf⟩

/-- A comparison keeps the rules. -/
theorem Comparison.rules (hformat : format.Standard) {text : List Char} {e : Expression}
    (h : Comparison format text e) : e.WellFormed format := by
  obtain @⟨field, op, text, operands, values, hoperands, hadmissible, hdenoted⟩ := h
  obtain ⟨hcount, hbounded⟩ := hoperands.bounded
  simp only [Parser.admissible, Bool.and_eq_true, Bool.or_eq_true, Bool.not_eq_true', beq_iff_eq,
    List.all_eq_true, decide_eq_true_eq] at hadmissible
  obtain ⟨⟨hcolumn, hboolean⟩, hnull⟩ := hadmissible
  cases hdenoted with
  | @principal _ ids hids =>
    refine ⟨hcolumn, (by intro h; cases h), fun hop => ?_, ?_, ?_, ?_, fun _ value hvalue => ?_⟩
    · have htrue := hnull.resolve_left (by simp [hop])
      rw [htrue, List.mapM_cons, hformat.refuses] at hids
      cases hids
    · rw [List.length_map, Parser.Reads.mapM_length hids]
      exact hcount
    · intro value hvalue
      obtain ⟨id, hid, rfl⟩ := List.mem_map.mp hvalue
      obtain ⟨operand, hoperand, hparse⟩ := mem_mapM hids hid
      have hsize := hformat.size operand id hparse
      have hshort := (hbounded operand hoperand).1
      omega
    · intro value hvalue
      obtain ⟨id, -, rfl⟩ := List.mem_map.mp hvalue
      exact hformat.printable id
    · obtain ⟨id, -, rfl⟩ := List.mem_map.mp hvalue
      exact ⟨id, rfl⟩
  | itself hother =>
    refine ⟨hcolumn, fun hfield => ?_, fun hop => ?_, hcount, fun v hv => (hbounded v hv).1,
      fun v hv => (hbounded v hv).2, fun h => absurd h hother⟩
    · exact hboolean.resolve_left (by simp [hfield])
    · exact hnull.resolve_left (by simp [hop])

theorem wellFormedItems_iff {items : List Expression} :
    WellFormedItems format items ↔ ∀ item ∈ items, item.WellFormed format := by
  induction items with
  | nil => simp [WellFormedItems]
  | cons item items ih => simp [WellFormedItems, ih]

/-- Every condition that a text denotes keeps the rules. -/
theorem Derives.wellFormed (hformat : format.Standard) {depth : ℕ} {symbol : Symbol}
    {text : List Char} {items : List Expression} (h : Derives format depth symbol text items) :
    items ≠ [] ∧ ∀ item ∈ items, item.WellFormed format := by
  induction h with
  | comparison hcomparison =>
    refine ⟨by simp, fun item hitem => ?_⟩
    rw [List.mem_singleton.mp hitem]
    exact hcomparison.rules hformat
  | group _ ih => exact ih
  | last _ ih => exact ih
  | more _ _ ih ihrest =>
    refine ⟨by simp, fun item hitem => ?_⟩
    rcases List.mem_cons.mp hitem with rfl | hitem
    · exact ih.2 item (List.mem_cons_self ..)
    · exact ihrest.2 item hitem
  | @join depth junction text items _ ih =>
    refine ⟨by simp, fun item hitem => ?_⟩
    rw [List.mem_singleton.mp hitem]
    match items, ih with
    | [], ih => exact absurd rfl ih.1
    | [item], ih => exact ih.2 item (List.mem_cons_self ..)
    | first :: next :: rest, ih =>
      have hitems := wellFormedItems_iff.mpr ih.2
      cases junction <;> exact ⟨by simp, hitems⟩

/-- A filter that was read keeps the rules. -/
theorem parseFilter_wellFormed (hformat : format.Standard) {raw : String} {e : Expression}
    (h : parseFilter format raw = .ok e) : e.WellFormed format :=
  (Derives.wellFormed hformat (parseFilter_eq_ok_iff.mp h).2.1).2 e (List.mem_cons_self ..)

/-- Reading a filter ends, and no slice panics: it is read, or it is refused. -/
theorem parseFilter_ends (raw : String) :
    (∃ e, parseFilter format raw = .ok e) ∨ parseFilter format raw = .error .invalidQuery := by
  unfold parseFilter
  split
  · exact .inr rfl
  · obtain ⟨hstart, hspent⟩ := gauge_start raw
    have hzero : (Parser.gauge raw).within ((Parser.gauge raw).spent ⟨raw, 0, 0, 0⟩) := by
      rw [hspent]
      exact ⟨Nat.zero_le _, Nat.zero_le _⟩
    rcases @Parser.Reads.expression raw format 17 raw.toList _ hstart hzero with
      ⟨reason, hrun, rfl⟩ | ⟨found, next, _, _, _, hrun, -⟩
    · rw [hrun]
      exact .inr rfl
    · rw [hrun]
      simp only [bind, Except.bind]
      split
      · exact .inl ⟨found, rfl⟩
      · exact .inr rfl

/-- A parser that stands at a character ends at one, behind what it has read, or it refuses. -/
theorem expression_offset (depth : ℕ) {parser : Parser} {text : List Char}
    (hrest : parser.rest = some text) (hnodes : parser.nodes ≤ 128) (hitems : parser.setItems ≤ 256) :
    Parser.expression format depth parser = .error .invalidQuery ∨
      ∃ e next read left, Parser.expression format depth parser = .ok (e, next) ∧
        next.raw = parser.raw ∧ text = read ++ left ∧ next.rest = some left ∧
        next.offset = parser.offset + byteLength read ∧ next.offset ≤ parser.raw.utf8ByteSize := by
  have hgauge : (Parser.gauge parser.raw).rest parser = some text := by
    simp only [Parser.gauge, if_true, hrest]
  rcases @Parser.Reads.expression parser.raw format depth text _ hgauge ⟨hnodes, hitems⟩ with
    ⟨reason, hrun, rfl⟩ | ⟨e, next, read, left, _, hrun, htext, hleft, -⟩
  · exact .inl hrun
  · obtain ⟨hraw, hnext⟩ := Parser.rest_gauge hleft
    obtain ⟨before, hbefore, hlength⟩ := fromByte_eq_some.mp hrest
    obtain ⟨after, hafter, hlength'⟩ := fromByte_eq_some.mp hnext
    have hsame : before ++ read = after := by
      rw [htext, ← List.append_assoc] at hbefore
      exact List.append_cancel_right (hbefore.symm.trans hafter)
    have hbytes := byteLength_toList parser.raw
    rw [hafter, byteLength_append] at hbytes
    rw [← hsame, byteLength_append] at hlength'
    refine .inr ⟨e, next, read, left, hrun, hraw, htext, ?_, by omega, ?_⟩
    · rw [Parser.rest, hraw, hnext]
    · rw [← hsame, byteLength_append] at hbytes
      omega

end Rules

end IdentityAuthority
