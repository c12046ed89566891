import Mathlib.Data.List.TakeWhile
import Mathlib.Tactic

/-!
# Fields of a text

A text is split at its separators, a field is freed of the blanks around it, and a field is cut at its
first mark. Blanks around a field and the lines that fields are joined in do not change them.
-/

namespace Fields

variable {α : Type*} {blank : α → Bool} {before text after : List α}

/-- The text without the blanks at both ends. -/
def trim (blank : α → Bool) (text : List α) : List α :=
  ((text.dropWhile blank).reverse.dropWhile blank).reverse

/-- Blanks before a text are dropped. -/
theorem dropWhile_surround (h : ∀ c ∈ before, blank c = true) :
    (before ++ text).dropWhile blank = text.dropWhile blank := by
  induction before with
  | nil => rfl
  | cons c before ih =>
    rw [List.cons_append, List.dropWhile_cons_of_pos (h c List.mem_cons_self)]
    exact ih fun d hd => h d (List.mem_cons_of_mem c hd)

/-- Dropping leading blanks of a text followed by blanks. -/
theorem dropWhile_append_blanks (text : List α) (h : ∀ c ∈ after, blank c = true) :
    ∃ rest, (∀ c ∈ rest, blank c = true) ∧
      (text ++ after).dropWhile blank = text.dropWhile blank ++ rest := by
  induction text with
  | nil =>
    refine ⟨[], by simp, ?_⟩
    rw [List.nil_append, List.dropWhile_eq_nil_iff.mpr h]
    rfl
  | cons c text ih =>
    cases hc : blank c with
    | true =>
      rw [List.cons_append, List.dropWhile_cons_of_pos hc, List.dropWhile_cons_of_pos hc]
      exact ih
    | false =>
      have hnot : ¬ blank c = true := by simp [hc]
      rw [List.cons_append, List.dropWhile_cons_of_neg hnot, List.dropWhile_cons_of_neg hnot]
      exact ⟨after, h, rfl⟩

/-- The blanks around a text make no difference. -/
theorem trim_surround (hbefore : ∀ c ∈ before, blank c = true)
    (hafter : ∀ c ∈ after, blank c = true) :
    trim blank (before ++ text ++ after) = trim blank text := by
  unfold trim
  rw [List.append_assoc, dropWhile_surround hbefore]
  obtain ⟨rest, hrest, heq⟩ := dropWhile_append_blanks text hafter
  rw [heq, List.reverse_append, dropWhile_surround]
  intro c hc
  exact hrest c (List.mem_reverse.mp hc)

theorem mem_dropWhile_iff {c : α} (h : blank c = false) : c ∈ text.dropWhile blank ↔ c ∈ text := by
  constructor
  · exact fun hc => (List.dropWhile_sublist blank).subset hc
  · intro hc
    rw [← List.takeWhile_append_dropWhile (p := blank) (l := text)] at hc
    rcases List.mem_append.mp hc with hc | hc
    · rw [List.mem_takeWhile_imp hc] at h
      cases h
    · exact hc

/-- A mark that is not a blank stands in a trimmed text as in the text. -/
theorem mem_trim_iff {c : α} (h : blank c = false) : c ∈ trim blank text ↔ c ∈ text := by
  unfold trim
  rw [List.mem_reverse, mem_dropWhile_iff h, List.mem_reverse, mem_dropWhile_iff h]

variable [DecidableEq α] {mark : α}

/-- What stands before the first mark of a text, and what stands after it. -/
def splitOnce (mark : α) (text : List α) : Option (List α × List α) :=
  if mark ∈ text then
    some (text.takeWhile (· ≠ mark), (text.dropWhile (· ≠ mark)).tail)
  else none

/-- Fields that are joined in lines are the fields of these lines. -/
theorem flatMap_splitOn_intercalate {lines : List (List (List α))}
    (h : ∀ line ∈ lines, line ≠ [] ∧ ∀ field ∈ line, mark ∉ field) :
    (lines.map fun line => List.intercalate [mark] line).flatMap (fun text => text.splitOn mark) =
      lines.flatten := by
  induction lines with
  | nil => rfl
  | cons line lines ih =>
    obtain ⟨hne, hfields⟩ := h line List.mem_cons_self
    rw [List.map_cons, List.flatMap_cons, List.flatten_cons,
      List.splitOn_intercalate mark hfields hne, ih fun l hl => h l (List.mem_cons_of_mem line hl)]

end Fields
