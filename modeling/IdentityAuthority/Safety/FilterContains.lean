import IdentityAuthority.Safety.FilterMeaning

/-!
# Looking for a part of a text

`=icontains=` lowers both sides, but under two collations: the column carries `"C"`, the operand
falls under the default collation of the database. A part is found just if the default collation
lowers the operand as `"C"` does.
-/

namespace IdentityAuthority

open Relational

/-- The texts are the same but for the case of ASCII letters. -/
def SameButCase (text text' : List Char) : Prop := asciiLower text = asciiLower text'

/-- A part occurs in a text, or does so once the case of ASCII letters is changed on either side. -/
def OccursButCase (part text : List Char) : Prop :=
  ∃ part' text', SameButCase part part' ∧ SameButCase text text' ∧ part' <:+: text'

/-- The condition that a filter becomes is true of a row. -/
def Selected (collation : DefaultCollation) (row : DirectoryRow) (e : Expression) : Prop :=
  ∃ pieces, filterPieces e = some pieces ∧ Reading (RowTest.value collation row) pieces (some true)

/-- The condition that looks for a part in a column. -/
def containing (field : Field) (v : String) : Expression := .compare field .contains [v]

/-- Looking for an operand finds what is there: every row with it, whatever the case of ASCII letters
in the text or in the operand. -/
structure FindsWhatIsThere (collation : DefaultCollation) (field : Field) (v : String) : Prop where
  found : ∀ row s, row.scalar field = some (.text s) → OccursButCase v.toList s.toList →
    Selected collation row (containing field v)
  unchanged : ∀ row row' s s' v', row.scalar field = some (.text s) →
    row'.scalar field = some (.text s') → SameButCase s.toList s'.toList →
      SameButCase v.toList v'.toList →
        (Selected collation row (containing field v) ↔ Selected collation row' (containing field v'))

section Lowering

theorem toLower_of_not {c : Char} (h : ¬ (c.val ≥ 'A'.val ∧ c.val ≤ 'Z'.val)) : c.toLower = c := by
  unfold Char.toLower
  rw [dif_neg h]

/-- An upper letter becomes the lower one. -/
theorem toLower_upper {c : Char} (h : c.val ≥ 'A'.val ∧ c.val ≤ 'Z'.val) :
    65 ≤ c.val.toNat ∧ c.val.toNat ≤ 90 ∧ c.toLower.val.toNat = c.val.toNat + 32 := by
  have hlow : 65 ≤ c.val.toNat := UInt32.le_iff_toNat_le.mp h.1
  have hhigh : c.val.toNat ≤ 90 := UInt32.le_iff_toNat_le.mp h.2
  have hgap : ('a'.val - 'A'.val).toNat = 32 := by decide
  refine ⟨hlow, hhigh, ?_⟩
  unfold Char.toLower
  rw [dif_pos h]
  simp only [UInt32.toNat_add]
  omega

/-- A letter outside ASCII comes from itself only. -/
theorem eq_of_toLower {c d : Char} (h : c.toLower = d) (hd : 128 ≤ d.val.toNat) : c = d := by
  by_cases hupper : c.val ≥ 'A'.val ∧ c.val ≤ 'Z'.val
  · obtain ⟨-, hhigh, hval⟩ := toLower_upper hupper
    rw [h] at hval
    omega
  · rw [← h, toLower_of_not hupper]

/-- Lowering again changes no letter. -/
theorem toLower_toLower (c : Char) : c.toLower.toLower = c.toLower := by
  by_cases h : c.val ≥ 'A'.val ∧ c.val ≤ 'Z'.val
  · obtain ⟨hlow, hhigh, hval⟩ := toLower_upper h
    refine toLower_of_not ?_
    rintro ⟨-, hle⟩
    have hle : c.toLower.val.toNat ≤ 90 := UInt32.le_iff_toNat_le.mp hle
    omega
  · rw [toLower_of_not h, toLower_of_not h]

/-- Lowering again changes nothing. -/
theorem asciiLower_idem (text : List Char) : asciiLower (asciiLower text) = asciiLower text := by
  unfold asciiLower
  rw [List.map_map]
  refine List.map_congr_left fun c _ => ?_
  exact toLower_toLower c

/-- A part occurs but for case just if it does when both are lowered. -/
theorem occursButCase_iff {part text : List Char} :
    OccursButCase part text ↔ asciiLower part <:+: asciiLower text := by
  constructor
  · rintro ⟨part', text', hpart, htext, hinfix⟩
    rw [hpart, htext]
    exact hinfix.map _
  · intro hinfix
    exact ⟨asciiLower part, asciiLower text, (asciiLower_idem part).symm,
      (asciiLower_idem text).symm, hinfix⟩

/-- The condition is true of the rows in whose lowered text the operand is, as the default collation
lowers it. -/
theorem selected_containing {collation : DefaultCollation} {field : Field}
    (hsortable : field.sortable = true) {row : DirectoryRow} {s v : String}
    (hs : row.scalar field = some (.text s)) :
    Selected collation row (containing field v) ↔
      collation.lower v.toList <:+: asciiLower s.toList := by
  have hother : ¬ (field = .department ∨ field = .departmentSubtree) := by
    rintro (rfl | rfl) <;> cases hsortable
  have hpieces : filterPieces (containing field v) =
      some (parenthesised [.test (.contains field v)]) := by
    rw [containing, filterPieces, testPieces, if_neg hother, if_neg (by decide), if_pos rfl,
      column_eq hsortable]
    rfl
  have hwritten : Written (RowTest.value collation row) none
      (parenthesised [.test (.contains field v)])
      (RowTest.value collation row (.contains field v)) :=
    @Written.group _ _ .or _ _ (.last (.test _))
  have hvalue : RowTest.value collation row (.contains field v) =
      some (occurs (asciiLower s.toList) (collation.lower v.toList)) := by
    simp only [RowTest.value, hs]
  constructor
  · rintro ⟨pieces, hsame, hread⟩
    rw [hpieces] at hsame
    cases hsame
    have htrue := hread.value_eq hwritten
    rw [hvalue] at htrue
    exact of_decide_eq_true (Option.some.inj htrue).symm
  · intro hinfix
    refine ⟨_, hpieces, ?_⟩
    have hread := hwritten.reading
    rw [hvalue] at hread
    have htrue : occurs (asciiLower s.toList) (collation.lower v.toList) = true :=
      decide_eq_true hinfix
    rwa [htrue] at hread

/-- A row with a text in a column of texts. -/
theorem exists_row {field : Field} (hsortable : field.sortable = true)
    (htext : field.boolean = false) (s : String) :
    ∃ row : DirectoryRow, row.scalar field = some (.text s) := by
  refine ⟨⟨s, some s, true, true, true, some s, some s, s, s, none⟩, ?_⟩
  cases field <;>
    first | rfl | exact absurd hsortable (by decide) | exact absurd htext (by decide)

/-- Looking for an operand finds what is there just if the default collation lowers the operand as
the collation of the column does. -/
theorem contains_finds_iff (collation : DefaultCollation) (field : Field)
    (hsortable : field.sortable = true) (htext : field.boolean = false) (v : String) :
    FindsWhatIsThere collation field v ↔ collation.lower v.toList = asciiLower v.toList := by
  constructor
  · intro hfinds
    obtain ⟨row, hrow⟩ := exists_row hsortable htext v
    have hselected := hfinds.found row v hrow (occursButCase_iff.mpr List.infix_rfl)
    have hinfix := (selected_containing hsortable hrow).mp hselected
    refine hinfix.eq_of_length_le ?_
    rw [asciiLower, List.length_map]
    exact collation.length_le _
  · intro hlower
    refine ⟨fun row s hs hoccurs => ?_, fun row row' s s' v' hs hs' hsame hv => ?_⟩
    · rw [selected_containing hsortable hs, hlower]
      exact occursButCase_iff.mp hoccurs
    · rw [selected_containing hsortable hs, selected_containing hsortable hs',
        collation.lower_congr _ _ hv, hsame]

/-- A collation that also lowers an accented letter, as those of most languages do. -/
def accentCollation : DefaultCollation where
  lower text := text.map fun c => if c = 'É' then 'é' else c.toLower
  lower_ascii text h := by
    refine List.map_congr_left fun c hc => if_neg ?_
    rintro rfl
    exact absurd (h _ hc) (by decide)
  lower_congr text text' h := by
    have hmap : ∀ text : List Char, (text.map fun c => if c = 'É' then 'é' else c.toLower) =
        (asciiLower text).map fun c => if c = 'É' then 'é' else c := by
      intro text
      rw [asciiLower, List.map_map]
      refine List.map_congr_left fun c _ => ?_
      by_cases hc : c = 'É'
      · rw [hc]
        decide
      · have hlower : c.toLower ≠ 'É' := fun hsame => hc (eq_of_toLower hsame (by decide))
        rw [if_neg hc, Function.comp, if_neg hlower]
    rw [hmap, hmap, h]
  length_le text := (List.length_map ..).ge

/-- A name with an accented letter. -/
def accentRow : DirectoryRow := { sampleRow with displayName := some "É" }

/-- The filter `displayName=icontains='É'` is accepted, and the condition that it becomes is not true
of a row with just this name. -/
theorem accent_not_found :
    parseFilter .hyphenated "displayName=icontains='É'" = .ok (containing .displayName "É") ∧
      accentRow.scalar .displayName = some (.text "É") ∧
      OccursButCase "É".toList "É".toList ∧
      ¬ Selected accentCollation accentRow (containing .displayName "É") := by
  have hwell : (containing .displayName "É").WellFormed .hyphenated :=
    rules_of_other (by decide) rfl (by decide) rfl (by decide) (by decide +kernel)
  have hbudgets : (containing .displayName "É").WithinBudgets := ⟨by decide, by decide, by decide⟩
  have htext : (containing .displayName "É").text .apostrophe = "displayName=icontains='É'" := by
    decide +kernel
  rw [← htext]
  refine ⟨parseFilter_text hwell hbudgets (by decide +kernel), rfl,
    occursButCase_iff.mpr List.infix_rfl, ?_⟩
  rw [selected_containing rfl rfl]
  decide +kernel

/-- Under the collation `"C"` it is found. -/
theorem accent_found : FindsWhatIsThere plainCollation .displayName "É" :=
  (contains_finds_iff plainCollation .displayName rfl rfl "É").mpr rfl

end Lowering

end IdentityAuthority
