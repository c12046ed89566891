import IdentityAuthority.Core.Values

/-!
# Identifiers in text

How documents and queries spell a UUID, and how they read one back.
-/

namespace IdentityAuthority

/-- How documents spell a UUID, and read it back; the nil one is not read. -/
structure UuidFormat where
  text : Uuid → String
  parse : String → Option Uuid
  parse_text : ∀ id, parse (text id) = some id

section Hyphenated

/-- The hexadecimal digits of a number, 32 of them for 128 bits. -/
def hexDigits (n : ℕ) : List Char :=
  List.replicate (32 - (Nat.toDigits 16 n).length) '0' ++ Nat.toDigits 16 n

/-- The value of a hexadecimal digit in lower case. -/
def hexValue (c : Char) : ℕ := if c.toNat < 58 then c.toNat - 48 else c.toNat - 87

/-- The value of a sequence of hexadecimal digits. -/
def ofHexDigits (digits : List Char) : ℕ := digits.foldl (fun n c => 16 * n + hexValue c) 0

/-- Groups of 8, 4, 4, 4 and the remaining digits. -/
def hyphenate (digits : List Char) : List Char :=
  digits.take 8 ++ '-' :: (digits.drop 8).take 4 ++ '-' :: (digits.drop 12).take 4 ++
    '-' :: (digits.drop 16).take 4 ++ '-' :: digits.drop 20

theorem hexValue_digitChar : ∀ n < 16, hexValue n.digitChar = n := by decide

theorem digitChar_ne_hyphen : ∀ n < 16, n.digitChar ≠ '-' := by decide

/-- The digits of a number have its value. -/
theorem ofHexDigits_toDigits (n : ℕ) : ofHexDigits (Nat.toDigits 16 n) = n := by
  unfold ofHexDigits
  induction n using Nat.strongRecOn with
  | ind n ih =>
    by_cases hn : n < 16
    · rw [Nat.toDigits_of_lt_base hn]
      simp [hexValue_digitChar n hn]
    · have hlast := hexValue_digitChar (n % 16) (Nat.mod_lt n (by decide))
      rw [Nat.toDigits_of_base_le (by decide) (by omega), List.foldl_append,
        ih (n / 16) (by omega)]
      simp only [List.foldl_cons, List.foldl_nil, hlast]
      omega

/-- Leading zeros do not change the value. -/
theorem ofHexDigits_hexDigits (n : ℕ) : ofHexDigits (hexDigits n) = n := by
  have hzeros : ∀ k, (List.replicate k '0').foldl (fun n c => 16 * n + hexValue c) 0 = 0 := by
    intro k
    induction k with
    | zero => rfl
    | succ k ih =>
      have hzero : hexValue '0' = 0 := by decide
      simp [List.replicate_succ, hzero, ih]
  unfold ofHexDigits hexDigits
  rw [List.foldl_append, hzeros]
  exact ofHexDigits_toDigits n

theorem hyphen_notMem_toDigits (n : ℕ) : '-' ∉ Nat.toDigits 16 n := by
  induction n using Nat.strongRecOn with
  | ind n ih =>
    by_cases hn : n < 16
    · rw [Nat.toDigits_of_lt_base hn, List.mem_singleton]
      exact (digitChar_ne_hyphen n hn).symm
    · have hlast := digitChar_ne_hyphen (n % 16) (Nat.mod_lt n (by decide))
      rw [Nat.toDigits_of_base_le (by decide) (by omega), List.mem_append, List.mem_singleton]
      exact fun h => h.elim (ih (n / 16) (by omega)) hlast.symm

/-- Hyphens are all that hyphenation adds. -/
theorem filter_hyphenate {digits : List Char} (h : '-' ∉ digits) :
    (hyphenate digits).filter (· ≠ '-') = digits := by
  have hkeep : ∀ l : List Char, l ⊆ digits → l.filter (· ≠ '-') = l := by
    intro l hl
    rw [List.filter_eq_self]
    intro c hc
    simp only [decide_eq_true_eq]
    rintro rfl
    exact h (hl hc)
  have htake := fun m n => hkeep ((digits.drop m).take n)
    (List.Subset.trans (List.take_subset _ _) (List.drop_subset _ _))
  have hfirst := hkeep (digits.take 8) (List.take_subset _ _)
  have hlast := hkeep (digits.drop 20) (List.drop_subset _ _)
  have hjoin : ∀ m, (digits.drop m).take 4 ++ digits.drop (m + 4) = digits.drop m := by
    intro m
    rw [← List.drop_drop, List.take_append_drop]
  simp only [hyphenate, List.filter_append, List.filter_cons, hfirst, hlast, htake, ne_eq,
    not_true_eq_false, decide_false, Bool.false_eq_true, if_false, List.append_assoc, hjoin 16, hjoin 12,
    hjoin 8, List.take_append_drop]

/-- The usual spelling of UUIDs: hexadecimal digits in lower case, hyphenated. -/
def UuidFormat.hyphenated : UuidFormat where
  text id := String.ofList (hyphenate (hexDigits id.value))
  parse s :=
    let value := ofHexDigits (s.toList.filter (· ≠ '-'))
    if h : value ≠ 0 ∧ String.ofList (hyphenate (hexDigits value)) = s then some ⟨value, h.1⟩
    else none
  parse_text id := by
    have hplain : '-' ∉ hexDigits id.value := by
      rw [hexDigits, List.mem_append]
      rintro (h | h)
      · exact absurd (List.eq_of_mem_replicate h) (by decide)
      · exact hyphen_notMem_toDigits id.value h
    have hvalue : ofHexDigits ((String.ofList (hyphenate (hexDigits id.value))).toList.filter
        (· ≠ '-')) = id.value := by
      rw [String.toList_ofList, filter_hyphenate hplain, ofHexDigits_hexDigits]
    simp only [hvalue]
    rw [dif_pos ⟨id.not_nil, trivial⟩]

end Hyphenated

end IdentityAuthority
