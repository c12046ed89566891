import IdentityAuthority.Json.Text
import Mathlib.Data.List.TakeWhile

/-!
# The compact text of a value determines it

Every part of a compact text ends where it must: a quoted string at its closing quote, a number
before the first character that no number has, a composite value at its bracket. Reading a text
back is therefore unique, whatever follows it.
-/

namespace Json

section Strings

/-- The value of a hexadecimal digit in lower case. -/
def hexValue (c : Char) : ℕ := if c.isDigit then c.toNat - 48 else c.toNat - 87

/-- Takes one escaped character off a text. -/
def unescape : List Char → Option (Char × List Char)
  | '\\' :: '"' :: rest => some ('"', rest)
  | '\\' :: '\\' :: rest => some ('\\', rest)
  | '\\' :: 'n' :: rest => some ('\n', rest)
  | '\\' :: 'r' :: rest => some ('\r', rest)
  | '\\' :: 't' :: rest => some ('\t', rest)
  | '\\' :: 'b' :: rest => some (Char.ofNat 8, rest)
  | '\\' :: 'f' :: rest => some (Char.ofNat 12, rest)
  | '\\' :: 'u' :: '0' :: '0' :: a :: b :: rest =>
    some (Char.ofNat (hexValue a * 16 + hexValue b), rest)
  | c :: rest => some (c, rest)
  | [] => none

theorem unescape_plain {c : Char} (hc : c ≠ '\\') (rest : List Char) :
    unescape (c :: rest) = some (c, rest) := by
  unfold unescape
  split <;> simp_all

/-- The control characters have a code each. -/
theorem unescape_control {n : ℕ} (hn : n < 32) (rest : List Char) :
    unescape (escape (Char.ofNat n) ++ rest) = some (Char.ofNat n, rest) := by
  interval_cases n <;> rfl

/-- An escaped character is read back, whatever follows it. -/
theorem unescape_escape (c : Char) (rest : List Char) :
    unescape (escape c ++ rest) = some (c, rest) := by
  by_cases hcontrol : c.toNat < 32
  · have h := unescape_control hcontrol rest
    rwa [Char.ofNat_toNat] at h
  · by_cases hquote : c = '"'
    · subst hquote
      rfl
    · by_cases hslash : c = '\\'
      · subst hslash
        rfl
      · have hplain : escape c = [c] := by
          unfold escape
          split
          · exact absurd rfl hquote
          · exact absurd rfl hslash
          · exact absurd (by decide) hcontrol
          · exact absurd (by decide) hcontrol
          · exact absurd (by decide) hcontrol
          · rw [if_neg (by omega), if_neg (by omega), if_neg hcontrol]
        rw [hplain]
        exact unescape_plain hslash rest

/-- No escaped character begins as the closing quote does. -/
theorem escape_head (c : Char) : ∃ d rest, escape c = d :: rest ∧ d ≠ '"' := by
  unfold escape
  split
  · exact ⟨_, _, rfl, by decide⟩
  · exact ⟨_, _, rfl, by decide⟩
  · exact ⟨_, _, rfl, by decide⟩
  · exact ⟨_, _, rfl, by decide⟩
  · exact ⟨_, _, rfl, by decide⟩
  · rename_i hquote _ _ _ _
    split
    · exact ⟨_, _, rfl, by decide⟩
    · split
      · exact ⟨_, _, rfl, by decide⟩
      · split
        · exact ⟨_, _, rfl, by decide⟩
        · exact ⟨_, _, rfl, hquote⟩

/-- Escaped characters up to the closing quote are read back, whatever follows. -/
theorem flatMap_escape_append {l l' s s' : List Char}
    (h : l.flatMap escape ++ '"' :: s = l'.flatMap escape ++ '"' :: s') : l = l' ∧ s = s' := by
  induction l generalizing l' with
  | nil =>
    cases l' with
    | nil => exact ⟨rfl, List.tail_eq_of_cons_eq h⟩
    | cons c l' =>
      obtain ⟨d, rest, hd, hne⟩ := escape_head c
      simp only [List.flatMap_nil, List.nil_append, List.flatMap_cons, hd, List.cons_append] at h
      exact absurd (List.head_eq_of_cons_eq h).symm hne
  | cons c l ih =>
    cases l' with
    | nil =>
      obtain ⟨d, rest, hd, hne⟩ := escape_head c
      simp only [List.flatMap_nil, List.nil_append, List.flatMap_cons, hd, List.cons_append] at h
      exact absurd (List.head_eq_of_cons_eq h) hne
    | cons c' l' =>
      simp only [List.flatMap_cons, List.append_assoc] at h
      have hread := congrArg unescape h
      simp only [unescape_escape, Option.some.injEq, Prod.mk.injEq] at hread
      obtain ⟨rfl, hrest⟩ := hread
      obtain ⟨rfl, rfl⟩ := ih hrest
      exact ⟨rfl, rfl⟩

/-- A quoted string is read back, whatever follows. -/
theorem quote_append {a b : String} {s s' : List Char} (h : quote a ++ s = quote b ++ s') :
    a = b ∧ s = s' := by
  simp only [quote, List.cons_append, List.append_assoc, List.nil_append, List.cons.injEq,
    true_and] at h
  obtain ⟨hlist, hs⟩ := flatMap_escape_append h
  exact ⟨String.toList_inj.mp hlist, hs⟩

end Strings

section Numbers

/-- The characters of numbers. -/
def isNumeric (c : Char) : Bool := c.isDigit || c = '-' || c = '.' || c = 'e'

theorem isNumeric_of_isDigit {c : Char} (h : c.isDigit = true) : isNumeric c = true := by
  simp [isNumeric, h]

/-- A list of decimal digits. -/
def Digits (l : List Char) : Prop := ∀ c ∈ l, c.isDigit = true

theorem digits_toDigits (n : ℕ) : Digits (Nat.toDigits 10 n) := fun _ hc =>
  Nat.isDigit_of_mem_toDigits (by decide) (by decide) hc

theorem digits_zeros (n : ℕ) : Digits (List.replicate n '0') := fun c hc => by
  rw [List.eq_of_mem_replicate hc]
  rfl

theorem Digits.append {l l' : List Char} (h : Digits l) (h' : Digits l') : Digits (l ++ l') :=
  fun c hc => (List.mem_append.mp hc).elim (h c) (h' c)

theorem Digits.mono {l l' : List Char} (h : Digits l) (hsub : l' ⊆ l) : Digits l' :=
  fun c hc => h c (hsub hc)

theorem Digits.ne {l : List Char} (h : Digits l) {d : Char} (hd : d.isDigit = false) : ∀ c ∈ l, c ≠ d := by
  rintro c hc rfl
  rw [h c hc] at hd
  cases hd

/-- An integer read back: its sign and its digits. -/
def readSigned (text : List Char) : ℤ :=
  match text with
  | '-' :: digits => -Nat.ofDigitChars 10 digits 0
  | digits => Nat.ofDigitChars 10 digits 0

theorem readSigned_digits {l : List Char} (h : Digits l) : readSigned l = Nat.ofDigitChars 10 l 0 := by
  unfold readSigned
  split
  · exact absurd (h '-' (by simp)) (by decide)
  · rfl

@[simp] theorem readSigned_integerText (n : ℤ) : readSigned (integerText n) = n := by
  unfold integerText
  split
  · rename_i hn
    simp only [List.cons_append, List.nil_append, readSigned, Nat.ofDigitChars_ten_toDigits]
    omega
  · rw [List.nil_append, readSigned_digits (digits_toDigits _), Nat.ofDigitChars_ten_toDigits]
    omega

/-- What comes before and after a mark. -/
theorem split_at_mark {l s : List Char} {d : Char} (h : ∀ c ∈ l, c ≠ d) :
    (l ++ d :: s).takeWhile (· ≠ d) = l ∧ (l ++ d :: s).dropWhile (· ≠ d) = d :: s := by
  have hl : ∀ c ∈ l, decide (c ≠ d) = true := fun c hc => decide_eq_true (h c hc)
  constructor
  · rw [List.takeWhile_append_of_pos hl, List.takeWhile_cons_of_neg (by simp), List.append_nil]
  · rw [List.dropWhile_append_of_pos hl, List.dropWhile_cons_of_neg (by simp)]

theorem split_without_mark {l : List Char} {d : Char} (h : ∀ c ∈ l, c ≠ d) :
    l.takeWhile (· ≠ d) = l ∧ l.dropWhile (· ≠ d) = [] := by
  have hl : ∀ c ∈ l, decide (c ≠ d) = true := fun c hc => decide_eq_true (h c hc)
  exact ⟨List.takeWhile_eq_self_iff.mpr hl, List.dropWhile_eq_nil_iff.mpr hl⟩

/-- The digits of a decimal text without a sign, and the power of ten they are scaled by. -/
def readDecimal (text : List Char) : ℕ × ℤ :=
  let mantissa := text.takeWhile (· ≠ 'e')
  let whole := mantissa.takeWhile (· ≠ '.')
  let fraction := (mantissa.dropWhile (· ≠ '.')).drop 1
  let power := readSigned ((text.dropWhile (· ≠ 'e')).drop 1)
  (Nat.ofDigitChars 10 (whole ++ fraction) 0, power - fraction.length)

variable {whole fraction : List Char}

theorem readDecimal_point (hwhole : Digits whole) (hfraction : Digits fraction) :
    readDecimal (whole ++ '.' :: fraction) =
      (Nat.ofDigitChars 10 (whole ++ fraction) 0, -(fraction.length : ℤ)) := by
  have hmark : ∀ c ∈ whole ++ '.' :: fraction, c ≠ 'e' := by
    intro c hc
    rcases List.mem_append.mp hc with hc | hc
    · exact hwhole.ne (by decide) c hc
    · rcases List.mem_cons.mp hc with rfl | hc
      · decide
      · exact hfraction.ne (by decide) c hc
  obtain ⟨htake, hdrop⟩ := split_without_mark hmark
  obtain ⟨htake', hdrop'⟩ := split_at_mark (s := fraction) (hwhole.ne (d := '.') (by decide))
  simp only [readDecimal, htake, hdrop, htake', hdrop', List.drop_nil, List.drop_one, List.tail_cons]
  simp [readSigned]

theorem readDecimal_power (hwhole : Digits whole) (n : ℤ) :
    readDecimal (whole ++ 'e' :: integerText n) = (Nat.ofDigitChars 10 whole 0, n) := by
  obtain ⟨htake, hdrop⟩ := split_at_mark (s := integerText n) (hwhole.ne (d := 'e') (by decide))
  obtain ⟨htake', hdrop'⟩ := split_without_mark (hwhole.ne (d := '.') (by decide))
  simp only [readDecimal, htake, hdrop, htake', hdrop', List.drop_nil, List.drop_one, List.tail_cons,
    List.append_nil, readSigned_integerText]
  simp

theorem readDecimal_point_power (hwhole : Digits whole) (hfraction : Digits fraction) (n : ℤ) :
    readDecimal (whole ++ '.' :: fraction ++ 'e' :: integerText n) =
      (Nat.ofDigitChars 10 (whole ++ fraction) 0, n - fraction.length) := by
  have hmark : ∀ c ∈ whole ++ '.' :: fraction, c ≠ 'e' := by
    intro c hc
    rcases List.mem_append.mp hc with hc | hc
    · exact hwhole.ne (by decide) c hc
    · rcases List.mem_cons.mp hc with rfl | hc
      · decide
      · exact hfraction.ne (by decide) c hc
  obtain ⟨htake, hdrop⟩ := split_at_mark (s := integerText n) hmark
  obtain ⟨htake', hdrop'⟩ := split_at_mark (s := fraction) (hwhole.ne (d := '.') (by decide))
  simp only [readDecimal, htake, hdrop, htake', hdrop', List.drop_one, List.tail_cons,
    readSigned_integerText]

namespace Decimal

variable {d e : Decimal}

/-- The shortest text without its sign. -/
def magnitude (d : Decimal) : List Char :=
  if d.digits = 0 then ['0', '.', '0']
  else if 0 ≤ d.exponent ∧ d.point ≤ 16 then
    d.digitText ++ List.replicate d.exponent.toNat '0' ++ ['.', '0']
  else if 0 < d.point ∧ d.point ≤ 16 then
    d.digitText.take d.point.toNat ++ '.' :: d.digitText.drop d.point.toNat
  else if -5 < d.point ∧ d.point ≤ 0 then
    ['0', '.'] ++ List.replicate (-d.point).toNat '0' ++ d.digitText
  else
    (match d.digitText with
      | first :: rest => first :: (if rest = [] then [] else '.' :: rest)
      | [] => []) ++ 'e' :: integerText (d.point - 1)

theorem shortest_eq (d : Decimal) : d.shortest = d.sign ++ d.magnitude := rfl

theorem digits_digitText (d : Decimal) : Digits d.digitText := digits_toDigits _

@[simp] theorem ofDigitChars_digitText (d : Decimal) : Nat.ofDigitChars 10 d.digitText 0 = d.digits :=
  Nat.ofDigitChars_ten_toDigits

/-- The magnitude is read back up to trailing zeros. -/
theorem readDecimal_magnitude (d : Decimal) :
    ∃ k : ℕ, readDecimal d.magnitude = (d.digits * 10 ^ k, d.exponent - k) := by
  have hdigits := d.digits_digitText
  have hlength : d.point = d.digitText.length + d.exponent := rfl
  unfold magnitude
  split
  · rename_i hzero
    obtain hne | ⟨-, hexponent⟩ := d.canonical
    · omega
    · refine ⟨1, ?_⟩
      rw [hzero, hexponent]
      rfl
  · split
    · rename_i hexponent
      refine ⟨d.exponent.toNat + 1, ?_⟩
      have hread := readDecimal_point (hdigits.append (digits_zeros d.exponent.toNat)) (digits_zeros 1)
      rw [show ['.', '0'] = '.' :: List.replicate 1 '0' from rfl, hread]
      simp only [List.append_assoc, Nat.ofDigitChars_append, ofDigitChars_digitText,
        Nat.ofDigitChars_replicate_zero, Prod.mk.injEq, List.length_replicate]
      constructor
      · ring
      · omega
    · split
      · rename_i hpoint
        refine ⟨0, ?_⟩
        rw [readDecimal_point (hdigits.mono (List.take_subset _ _))
          (hdigits.mono (List.drop_subset _ _)), List.take_append_drop]
        simp only [ofDigitChars_digitText, pow_zero, mul_one, List.length_drop, Prod.mk.injEq, true_and]
        omega
      · split
        · rename_i hpoint
          refine ⟨0, ?_⟩
          have htext : ['0', '.'] ++ List.replicate (-d.point).toNat '0' ++ d.digitText =
              ['0'] ++ '.' :: (List.replicate (-d.point).toNat '0' ++ d.digitText) := by simp
          have hread := readDecimal_point (digits_zeros 1)
            ((digits_zeros (-d.point).toNat).append hdigits)
          rw [htext, show ['0'] = List.replicate 1 '0' from rfl, hread]
          simp only [Nat.ofDigitChars_append, Nat.ofDigitChars_replicate_zero, List.length_append,
            List.length_replicate, Prod.mk.injEq, pow_zero, mul_one]
          constructor
          · simp
          · omega
        · refine ⟨0, ?_⟩
          cases htext : d.digitText with
          | nil => exact absurd htext Nat.toDigits_ne_nil
          | cons first rest =>
            have hvalue := d.ofDigitChars_digitText
            rw [htext] at hdigits hvalue hlength
            have hfirst : Digits [first] := hdigits.mono (by simp)
            have hrest : Digits rest := hdigits.mono (by simp)
            simp only [List.length_cons] at hlength
            by_cases hempty : rest = []
            · subst hempty
              have hpower := readDecimal_power hfirst (d.point - 1)
              simp only [if_true]
              rw [hpower, hvalue]
              simp only [List.length_nil, pow_zero, mul_one, Prod.mk.injEq, true_and] at hlength ⊢
              omega
            · have hpower := readDecimal_point_power hfirst hrest (d.point - 1)
              simp only [List.cons_append, List.nil_append] at hpower
              simp only [if_neg hempty, List.cons_append]
              rw [hpower, hvalue]
              simp only [pow_zero, mul_one, Prod.mk.injEq, true_and]
              omega

/-- A decimal without trailing zeros is determined by its value. -/
theorem eq_of_scaled {k l : ℕ} (hsign : d.negative = e.negative)
    (hdigits : d.digits * 10 ^ k = e.digits * 10 ^ l) (hexponent : d.exponent - k = e.exponent - l) :
    d = e := by
  have heq : ∀ {d e : Decimal} {k l : ℕ}, d.digits * 10 ^ k = e.digits * 10 ^ l →
      d.exponent - k = e.exponent - l → k ≤ l → d.digits = e.digits ∧ d.exponent = e.exponent := by
    intro d e k l hdigits hexponent hle
    obtain ⟨m, rfl⟩ := Nat.exists_eq_add_of_le hle
    have hscaled : d.digits = e.digits * 10 ^ m := by
      have hpos : 0 < 10 ^ k := by positivity
      refine Nat.eq_of_mul_eq_mul_right hpos ?_
      rw [hdigits, pow_add]
      ring
    cases m with
    | zero =>
      simp only [pow_zero, mul_one] at hscaled
      exact ⟨hscaled, by omega⟩
    | succ m =>
      have hzero : d.digits % 10 = 0 := by
        rw [hscaled, pow_succ, ← mul_assoc]
        exact Nat.mul_mod_left _ _
      obtain hne | ⟨hd, hdexponent⟩ := d.canonical
      · exact absurd hzero hne
      · have he : e.digits = 0 := by
          have hpos : 0 < 10 ^ (m + 1) := by positivity
          have hproduct : e.digits * 10 ^ (m + 1) = 0 := by rw [← hscaled, hd]
          rcases Nat.mul_eq_zero.mp hproduct with he | hpow
          · exact he
          · omega
        obtain hne | ⟨-, heexponent⟩ := e.canonical
        · omega
        · exact ⟨by omega, by omega⟩
  have hboth : d.digits = e.digits ∧ d.exponent = e.exponent := by
    rcases le_total k l with hle | hle
    · exact heq hdigits hexponent hle
    · obtain ⟨h₁, h₂⟩ := heq hdigits.symm hexponent.symm hle
      exact ⟨h₁.symm, h₂.symm⟩
  obtain ⟨negative, digits, exponent, canonical⟩ := d
  obtain ⟨negative', digits', exponent', canonical'⟩ := e
  obtain ⟨rfl, rfl⟩ := hboth
  cases hsign
  rfl

/-- A magnitude begins with a digit, has only numeric characters, and a mark that no integer has. -/
theorem magnitude_shape (d : Decimal) :
    (∃ c rest, d.magnitude = c :: rest ∧ c.isDigit = true) ∧
      (∀ c ∈ d.magnitude, isNumeric c = true) ∧ ('.' ∈ d.magnitude ∨ 'e' ∈ d.magnitude) := by
  have hdigits := d.digits_digitText
  have hnumeric : ∀ {l : List Char}, Digits l → ∀ c ∈ l, isNumeric c = true := fun h c hc =>
    isNumeric_of_isDigit (h c hc)
  obtain ⟨first, rest, htext⟩ : ∃ first rest, d.digitText = first :: rest :=
    List.exists_cons_of_ne_nil Nat.toDigits_ne_nil
  have hfirst : first.isDigit = true := hdigits first (by simp [htext])
  have hinteger : ∀ c ∈ integerText (d.point - 1), isNumeric c = true := by
    intro c hc
    unfold integerText at hc
    rcases List.mem_append.mp hc with hc | hc
    · split at hc
      · obtain rfl := List.mem_singleton.mp hc
        decide
      · cases hc
    · exact hnumeric (digits_toDigits _) c hc
  unfold magnitude
  split
  · exact ⟨⟨_, _, rfl, by decide⟩, List.all_eq_true.mp (by decide), by decide⟩
  · split
    · refine ⟨⟨first, _, by rw [htext]; rfl, hfirst⟩, ?_, by simp⟩
      intro c hc
      rcases List.mem_append.mp hc with hc | hc
      · exact hnumeric (hdigits.append (digits_zeros _)) c hc
      · simp only [List.mem_cons, List.not_mem_nil, or_false] at hc
        rcases hc with rfl | rfl <;> decide
    · split
      · rename_i hpoint
        refine ⟨⟨first, rest.take (d.point.toNat - 1) ++ '.' :: d.digitText.drop d.point.toNat, ?_, hfirst⟩,
          ?_, by simp⟩
        · obtain ⟨n, hn⟩ : ∃ n, d.point.toNat = n + 1 := ⟨d.point.toNat - 1, by omega⟩
          rw [hn, htext, List.take_succ_cons, List.cons_append, Nat.add_sub_cancel]
        · intro c hc
          rcases List.mem_append.mp hc with hc | hc
          · exact hnumeric hdigits c (List.mem_of_mem_take hc)
          · rcases List.mem_cons.mp hc with rfl | hc
            · decide
            · exact hnumeric hdigits c (List.mem_of_mem_drop hc)
      · split
        · refine ⟨⟨'0', _, rfl, by decide⟩, ?_, by simp⟩
          intro c hc
          simp only [List.cons_append, List.nil_append, List.mem_cons] at hc
          rcases hc with rfl | rfl | hc
          · decide
          · decide
          · exact hnumeric ((digits_zeros _).append hdigits) c hc
        · rw [htext]
          refine ⟨⟨first, _, rfl, hfirst⟩, ?_, by simp⟩
          intro c hc
          simp only [List.cons_append, List.mem_cons, List.mem_append] at hc
          rcases hc with rfl | hc | rfl | hc
          · exact isNumeric_of_isDigit hfirst
          · split at hc
            · cases hc
            · rcases List.mem_cons.mp hc with rfl | hc
              · decide
              · exact hnumeric hdigits c (by simp [htext, hc])
          · decide
          · exact hinteger c hc

/-- The shortest text of a decimal determines it. -/
theorem shortest_injective : Function.Injective shortest := by
  intro d e h
  obtain ⟨⟨c, rest, hd, hc⟩, -⟩ := d.magnitude_shape
  obtain ⟨⟨c', rest', he, hc'⟩, -⟩ := e.magnitude_shape
  obtain ⟨k, hk⟩ := d.readDecimal_magnitude
  obtain ⟨l, hl⟩ := e.readDecimal_magnitude
  have hminus : ∀ {c : Char}, c.isDigit = true → c ≠ '-' := by
    rintro c hc rfl
    cases hc
  simp only [shortest_eq, sign] at h
  have hboth : d.negative = e.negative ∧ d.magnitude = e.magnitude := by
    cases hdn : d.negative <;> cases hen : e.negative <;>
      simp only [hdn, hen, if_true, List.nil_append, List.cons_append, Bool.false_eq_true, if_false]
        at h
    · exact ⟨rfl, h⟩
    · rw [hd] at h
      exact absurd (List.head_eq_of_cons_eq h) (hminus hc)
    · rw [he] at h
      exact absurd (List.head_eq_of_cons_eq h).symm (hminus hc')
    · exact ⟨rfl, List.tail_eq_of_cons_eq h⟩
  rw [hboth.2] at hk
  have hread := hk.symm.trans hl
  simp only [Prod.mk.injEq] at hread
  exact eq_of_scaled hboth.1 hread.1 hread.2

end Decimal

/-- An integer has neither of the marks. -/
theorem integerText_shape (n : ℤ) :
    integerText n ≠ [] ∧ (∀ c ∈ integerText n, isNumeric c = true) ∧
      '.' ∉ integerText n ∧ 'e' ∉ integerText n := by
  have hdigits := digits_toDigits n.natAbs
  refine ⟨?_, ?_, ?_, ?_⟩
  · unfold integerText
    exact fun h => Nat.toDigits_ne_nil (List.append_eq_nil_iff.mp h).2
  · intro c hc
    unfold integerText at hc
    rcases List.mem_append.mp hc with hc | hc
    · split at hc
      · obtain rfl := List.mem_singleton.mp hc
        decide
      · cases hc
    · exact isNumeric_of_isDigit (hdigits c hc)
  all_goals
    intro hc
    unfold integerText at hc
    rcases List.mem_append.mp hc with hc | hc
    · split at hc
      · exact absurd (List.mem_singleton.mp hc) (by decide)
      · cases hc
    · exact absurd (hdigits _ hc) (by decide)

theorem integerText_injective : Function.Injective integerText := by
  intro m n h
  have hread := congrArg readSigned h
  simpa using hread

/-- The compact text of a number determines it. -/
theorem Number.shortest_injective : Function.Injective Number.shortest := by
  have hmark : ∀ (n : ℤ) (d : Decimal), integerText n ≠ d.shortest := by
    intro n d h
    obtain ⟨-, -, hpoint, hpower⟩ := integerText_shape n
    obtain ⟨-, -, hd | hd⟩ := d.magnitude_shape
    · exact hpoint (by rw [h, Decimal.shortest_eq]; exact List.mem_append_right _ hd)
    · exact hpower (by rw [h, Decimal.shortest_eq]; exact List.mem_append_right _ hd)
  intro m n h
  cases m with
  | integer m =>
    cases n with
    | integer n => rw [integerText_injective h]
    | float e => exact absurd h (hmark m e)
  | float d =>
    cases n with
    | integer n => exact absurd h.symm (hmark n d)
    | float e => rw [Decimal.shortest_injective h]

/-- A number is some numeric characters. -/
theorem Number.shortest_shape (n : Number) :
    (∃ c rest, n.shortest = c :: rest) ∧ ∀ c ∈ n.shortest, isNumeric c = true := by
  cases n with
  | integer n =>
    obtain ⟨hne, hnumeric, -⟩ := integerText_shape n
    exact ⟨List.exists_cons_of_ne_nil hne, hnumeric⟩
  | float d =>
    obtain ⟨⟨c, rest, hcons, -⟩, hnumeric, -⟩ := d.magnitude_shape
    refine ⟨?_, ?_⟩
    · rw [Number.shortest, Decimal.shortest_eq, hcons]
      exact List.exists_cons_of_ne_nil (by simp)
    · intro c hc
      rw [Number.shortest, Decimal.shortest_eq] at hc
      rcases List.mem_append.mp hc with hc | hc
      · unfold Decimal.sign at hc
        split at hc
        · obtain rfl := List.mem_singleton.mp hc
          decide
        · cases hc
      · exact hnumeric c hc

end Numbers

section Values

/-- A text that no number goes on into. -/
def Ends (s : List Char) : Prop := ∀ c ∈ s.head?, isNumeric c = false

theorem ends_cons {c : Char} {s : List Char} (h : isNumeric c = false) : Ends (c :: s) := by
  intro d hd
  simp only [List.head?_cons, Option.mem_some_iff] at hd
  rwa [← hd]

theorem ends_nil : Ends [] := by simp [Ends]

/-- The numeric characters in front of a text that ends them are found again. -/
theorem takeWhile_numeric {l s : List Char} (hl : ∀ c ∈ l, isNumeric c = true) (hs : Ends s) :
    (l ++ s).takeWhile isNumeric = l ∧ (l ++ s).dropWhile isNumeric = s := by
  constructor
  · rw [List.takeWhile_append_of_pos hl]
    cases s with
    | nil => simp
    | cons c s => rw [List.takeWhile_cons_of_neg (by simp [hs c (by simp)]), List.append_nil]
  · rw [List.dropWhile_append_of_pos hl]
    cases s with
    | nil => simp
    | cons c s => rw [List.dropWhile_cons_of_neg (by simp [hs c (by simp)])]

/-- A number is read back before a text that ends it. -/
theorem number_append {m n : Number} {s s' : List Char} (hs : Ends s) (hs' : Ends s')
    (h : m.shortest ++ s = n.shortest ++ s') : m = n ∧ s = s' := by
  obtain ⟨htake, hdrop⟩ := takeWhile_numeric m.shortest_shape.2 hs
  obtain ⟨htake', hdrop'⟩ := takeWhile_numeric n.shortest_shape.2 hs'
  rw [h, htake'] at htake
  rw [h, hdrop'] at hdrop
  exact ⟨(Number.shortest_injective htake).symm, hdrop.symm⟩

/-- How the text of a value begins. -/
inductive Opening
  | null
  | bool (value : Bool)
  | number
  | string
  | array
  | object
deriving DecidableEq

/-- What a first character opens. -/
def Opening.of (c : Char) : Option Opening :=
  if c = 'n' then some .null
  else if c = 't' then some (.bool true)
  else if c = 'f' then some (.bool false)
  else if c = '"' then some .string
  else if c = '[' then some .array
  else if c = '\x7b' then some .object
  else if isNumeric c then some .number
  else none

/-- What a value opens with. -/
def Value.opening : Value → Opening
  | null => .null
  | bool b => .bool b
  | number _ => .number
  | string _ => .string
  | array _ => .array
  | object _ => .object

theorem Opening.of_numeric {c : Char} (h : isNumeric c = true) : Opening.of c = some .number := by
  have hne : ∀ d : Char, isNumeric d = false → c ≠ d := by
    rintro d hd rfl
    rw [h] at hd
    cases hd
  unfold Opening.of
  rw [if_neg (hne 'n' (by decide)), if_neg (hne 't' (by decide)), if_neg (hne 'f' (by decide)),
    if_neg (hne '"' (by decide)), if_neg (hne '[' (by decide)), if_neg (hne '\x7b' (by decide)),
    if_pos h]

/-- The first character of a value's text tells what it is. -/
theorem render_head (value : Value) :
    ∃ c rest, render .compact value = c :: rest ∧ Opening.of c = some value.opening := by
  cases value with
  | null => exact ⟨_, _, rfl, rfl⟩
  | bool b => cases b <;> exact ⟨_, _, rfl, rfl⟩
  | number n =>
    obtain ⟨⟨c, rest, hcons⟩, hnumeric⟩ := n.shortest_shape
    exact ⟨c, rest, hcons, Opening.of_numeric (hnumeric c (by simp [hcons]))⟩
  | string s => exact ⟨_, _, rfl, rfl⟩
  | array values => exact ⟨_, _, rfl, rfl⟩
  | object members => exact ⟨_, _, rfl, rfl⟩

/-- Two values with a common text are of a kind. -/
theorem opening_eq {value value' : Value} {s s' : List Char}
    (h : render .compact value ++ s = render .compact value' ++ s') :
    value.opening = value'.opening := by
  obtain ⟨c, rest, hcons, hc⟩ := render_head value
  obtain ⟨c', rest', hcons', hc'⟩ := render_head value'
  rw [hcons, hcons', List.cons_append, List.cons_append] at h
  rw [List.head_eq_of_cons_eq h, hc', Option.some.injEq] at hc
  exact hc.symm

/-- What follows the first element of an array. -/
def valuesTail : List Value → List Char
  | [] => []
  | values => ',' :: renderValues .compact values

/-- What follows the first member of an object. -/
def membersTail : List (String × Value) → List Char
  | [] => []
  | members => ',' :: renderMembers .compact members

theorem renderValues_cons (value : Value) (rest : List Value) :
    renderValues .compact (value :: rest) = render .compact value ++ valuesTail rest := by
  cases rest <;> simp [renderValues, valuesTail, Style.compact]

theorem renderMembers_cons (name : String) (value : Value) (rest : List (String × Value)) :
    renderMembers .compact ((name, value) :: rest) =
      quote name ++ ':' :: (render .compact value ++ membersTail rest) := by
  cases rest <;> simp [renderMembers, membersTail, Style.compact]

theorem ends_valuesTail (rest : List Value) (s : List Char) : Ends (valuesTail rest ++ ']' :: s) := by
  cases rest <;> exact ends_cons (by decide)

theorem ends_membersTail (rest : List (String × Value)) (s : List Char) :
    Ends (membersTail rest ++ '\x7d' :: s) := by
  cases rest <;> exact ends_cons (by decide)

/-- Elements never begin as their bracket ends. -/
theorem renderValues_ne {value : Value} {rest : List Value} {s s' : List Char} :
    renderValues .compact (value :: rest) ++ s ≠ ']' :: s' := by
  obtain ⟨c, text, hcons, hc⟩ := render_head value
  rw [renderValues_cons, hcons]
  intro h
  rw [List.head_eq_of_cons_eq h, show Opening.of ']' = none from by decide] at hc
  cases hc

/-- Members never begin as their bracket ends. -/
theorem renderMembers_ne {m : String × Value} {rest : List (String × Value)} {s s' : List Char} :
    renderMembers .compact (m :: rest) ++ s ≠ '\x7d' :: s' := by
  rw [renderMembers_cons]
  intro h
  exact absurd (List.head_eq_of_cons_eq h) (by decide)

mutual

/-- The text of a value is read back, where no number goes on after it. -/
theorem render_append : ∀ (value value' : Value) {s s' : List Char}, Ends s → Ends s' →
    render .compact value ++ s = render .compact value' ++ s' → value = value' ∧ s = s'
  | .null, value', s, s', _, _, h => by
    have hopening := opening_eq h
    cases value' with
    | null => exact ⟨rfl, List.append_cancel_left h⟩
    | _ => cases hopening
  | .bool b, value', s, s', _, _, h => by
    have hopening := opening_eq h
    cases value' with
    | bool b' =>
      obtain rfl : b = b' := by simpa [Value.opening] using hopening
      exact ⟨rfl, List.append_cancel_left h⟩
    | _ => cases hopening
  | .number n, value', s, s', hs, hs', h => by
    have hopening := opening_eq h
    cases value' with
    | number n' =>
      obtain ⟨rfl, hrest⟩ := number_append hs hs' h
      exact ⟨rfl, hrest⟩
    | _ => cases hopening
  | .string a, value', s, s', _, _, h => by
    have hopening := opening_eq h
    cases value' with
    | string b =>
      obtain ⟨rfl, hrest⟩ := quote_append h
      exact ⟨rfl, hrest⟩
    | _ => cases hopening
  | .array values, value', s, s', _, _, h => by
    have hopening := opening_eq h
    cases value' with
    | array values' =>
      simp only [render, List.cons_append, List.append_assoc, List.nil_append, List.cons.injEq,
        true_and] at h
      obtain ⟨rfl, hrest⟩ := renderValues_append values values' h
      exact ⟨rfl, hrest⟩
    | _ => cases hopening
  | .object members, value', s, s', _, _, h => by
    have hopening := opening_eq h
    cases value' with
    | object members' =>
      simp only [render, List.cons_append, List.append_assoc, List.nil_append, List.cons.injEq,
        true_and] at h
      obtain ⟨rfl, hrest⟩ := renderMembers_append members members' h
      exact ⟨rfl, hrest⟩
    | _ => cases hopening

/-- The elements of an array are read back up to its bracket. -/
theorem renderValues_append : ∀ (values values' : List Value) {s s' : List Char},
    renderValues .compact values ++ ']' :: s = renderValues .compact values' ++ ']' :: s' →
      values = values' ∧ s = s'
  | [], [], _, _, h => ⟨rfl, List.tail_eq_of_cons_eq h⟩
  | [], _ :: _, _, _, h => absurd h.symm renderValues_ne
  | _ :: _, [], _, _, h => absurd h renderValues_ne
  | value :: rest, value' :: rest', s, s', h => by
    rw [renderValues_cons, renderValues_cons, List.append_assoc, List.append_assoc] at h
    obtain ⟨rfl, htail⟩ := render_append value value' (ends_valuesTail _ _) (ends_valuesTail _ _) h
    match rest, rest', htail with
    | [], [], htail => exact ⟨rfl, List.tail_eq_of_cons_eq htail⟩
    | [], _ :: _, htail => exact absurd (List.head_eq_of_cons_eq htail) (by decide)
    | _ :: _, [], htail => exact absurd (List.head_eq_of_cons_eq htail) (by decide)
    | next :: rest, next' :: rest', htail =>
      obtain ⟨hrest, hs⟩ := renderValues_append (next :: rest) (next' :: rest')
        (List.tail_eq_of_cons_eq htail)
      rw [hrest]
      exact ⟨rfl, hs⟩

/-- The members of an object are read back up to its bracket. -/
theorem renderMembers_append : ∀ (members members' : List (String × Value)) {s s' : List Char},
    renderMembers .compact members ++ '\x7d' :: s = renderMembers .compact members' ++ '\x7d' :: s' →
      members = members' ∧ s = s'
  | [], [], _, _, h => ⟨rfl, List.tail_eq_of_cons_eq h⟩
  | [], _ :: _, _, _, h => absurd h.symm renderMembers_ne
  | _ :: _, [], _, _, h => absurd h renderMembers_ne
  | (name, value) :: rest, (name', value') :: rest', s, s', h => by
    rw [renderMembers_cons, renderMembers_cons, List.append_assoc, List.append_assoc] at h
    obtain ⟨rfl, hcolon⟩ := quote_append h
    have hvalue := List.tail_eq_of_cons_eq hcolon
    simp only [List.append_eq, List.append_assoc] at hvalue
    obtain ⟨rfl, htail⟩ := render_append value value' (ends_membersTail _ _) (ends_membersTail _ _)
      hvalue
    match rest, rest', htail with
    | [], [], htail => exact ⟨rfl, List.tail_eq_of_cons_eq htail⟩
    | [], _ :: _, htail => exact absurd (List.head_eq_of_cons_eq htail) (by decide)
    | _ :: _, [], htail => exact absurd (List.head_eq_of_cons_eq htail) (by decide)
    | next :: rest, next' :: rest', htail =>
      obtain ⟨hrest, hs⟩ := renderMembers_append (next :: rest) (next' :: rest')
        (List.tail_eq_of_cons_eq htail)
      rw [hrest]
      exact ⟨rfl, hs⟩

end

/-- The compact text of a value determines it. -/
theorem render_injective : Function.Injective (render .compact) := by
  intro value value' h
  refine (render_append value value' ends_nil ends_nil ?_).1
  rw [h]

/-- Values are compared by their texts. -/
instance : DecidableEq Value := fun value value' =>
  decidable_of_iff (render .compact value = render .compact value') render_injective.eq_iff

end Values

end Json
