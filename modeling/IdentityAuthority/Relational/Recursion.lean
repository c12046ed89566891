import Mathlib.Data.List.Dedup
import Mathlib.Data.List.Perm.Subperm
import Mathlib.Logic.Relation

/-!
# Recursive queries

`WITH RECURSIVE … UNION`: the working table starts with the first rows; each round derives rows from
it, drops the ones that were seen, and goes on with the new ones, until there are none. Over finitely
many rows the rounds end, and the result is what the first rows reach.
-/

namespace Relational

universe u

variable {α : Type u} [DecidableEq α]

/-- The rows that a round derives and that were not seen before. -/
def derived (next : α → List α) (seen working : List α) : List α :=
  (working.flatMap next).dedup.filter fun row => row ∉ seen

/-- The rounds, as many as are allowed. -/
def rounds (next : α → List α) : ℕ → List α → List α → Option (List α)
  | _, seen, [] => some seen
  | 0, _, _ :: _ => none
  | bound + 1, seen, row :: working =>
    rounds next bound (seen ++ derived next seen (row :: working))
      (derived next seen (row :: working))

/-- The query over its first rows. -/
def recursive (next : α → List α) (bound : ℕ) (first : List α) : Option (List α) :=
  rounds next bound first.dedup first.dedup

section Rounds

variable {next : α → List α} {seen working result : List α} {bound : ℕ}

/-- A round goes on with the rows that it derives. -/
theorem rounds_cons {row : α} : rounds next (bound + 1) seen (row :: working) =
    rounds next bound (seen ++ derived next seen (row :: working))
      (derived next seen (row :: working)) := rfl

theorem mem_derived {row : α} :
    row ∈ derived next seen working ↔ (∃ x ∈ working, row ∈ next x) ∧ row ∉ seen := by
  simp [derived]

theorem derived_nodup : (derived next seen working).Nodup :=
  (List.nodup_dedup _).filter _

theorem seen_nodup (hseen : seen.Nodup) : (seen ++ derived next seen working).Nodup := by
  rw [List.nodup_append']
  refine ⟨hseen, derived_nodup, ?_⟩
  intro row hrow hnew
  exact (mem_derived.mp hnew).2 hrow

/-- The rounds end: each adds a row, and there are only so many. -/
theorem rounds_end {all : List α} (hnext : ∀ x ∈ all, ∀ y ∈ next x, y ∈ all) (hseen : seen.Nodup)
    (hworking : ∀ x ∈ working, x ∈ seen) (hall : ∀ x ∈ seen, x ∈ all)
    (hbound : all.length < seen.length + bound) : (rounds next bound seen working).isSome = true := by
  induction bound generalizing seen working with
  | zero =>
    have hlength : seen.length ≤ all.length := (List.subperm_of_subset hseen hall).length_le
    omega
  | succ bound ih =>
    cases working with
    | nil => rfl
    | cons x working =>
      rw [rounds_cons]
      by_cases hnew : derived next seen (x :: working) = []
      · rw [hnew]
        cases bound <;> rfl
      · have hmore := List.length_pos_iff.mpr hnew
        refine ih (seen_nodup hseen) (fun y hy => List.mem_append_right _ hy) ?_ ?_
        · intro y hy
          rcases List.mem_append.mp hy with hy | hy
          · exact hall y hy
          · obtain ⟨⟨z, hz, hzy⟩, -⟩ := mem_derived.mp hy
            exact hnext z (hall z (hworking z hz)) y hzy
        · rw [List.length_append]
          omega

/-- Whatever is seen when the rounds end was seen before or is reached from the working table. -/
theorem rounds_sound (h : rounds next bound seen working = some result) :
    ∀ y ∈ result, y ∈ seen ∨ ∃ x ∈ working, Relation.ReflTransGen (fun a b => b ∈ next a) x y := by
  induction bound generalizing seen working with
  | zero =>
    cases working with
    | nil =>
      cases h
      exact fun y hy => .inl hy
    | cons => cases h
  | succ bound ih =>
    cases working with
    | nil =>
      cases h
      exact fun y hy => .inl hy
    | cons x working =>
      rw [rounds_cons] at h
      intro y hy
      have hreached : ∀ z ∈ derived next seen (x :: working), ∃ x' ∈ x :: working, z ∈ next x' :=
        fun z hz => (mem_derived.mp hz).1
      rcases ih h y hy with hseen | ⟨z, hz, hzy⟩
      · rcases List.mem_append.mp hseen with hseen | hnew
        · exact .inl hseen
        · obtain ⟨x', hx', hnext⟩ := hreached y hnew
          exact .inr ⟨x', hx', .single hnext⟩
      · obtain ⟨x', hx', hnext⟩ := hreached z hz
        exact .inr ⟨x', hx', .head hnext hzy⟩

/-- When the rounds end, the result has what was seen, and all that follows from it. -/
theorem rounds_closed (h : rounds next bound seen working = some result)
    (hrest : ∀ x ∈ seen, x ∉ working → ∀ y ∈ next x, y ∈ seen) :
    (∀ x ∈ seen, x ∈ result) ∧ ∀ x ∈ result, ∀ y ∈ next x, y ∈ result := by
  induction bound generalizing seen working with
  | zero =>
    cases working with
    | nil =>
      cases h
      exact ⟨fun x hx => hx, fun x hx => hrest x hx (by simp)⟩
    | cons => cases h
  | succ bound ih =>
    cases working with
    | nil =>
      cases h
      exact ⟨fun x hx => hx, fun x hx => hrest x hx (by simp)⟩
    | cons x working =>
      rw [rounds_cons] at h
      have hnext : ∀ z ∈ seen, ∀ y ∈ next z, y ∈ seen ++ derived next seen (x :: working) := by
        intro z hz y hy
        by_cases hseen : y ∈ seen
        · exact List.mem_append_left _ hseen
        · by_cases hworking : z ∈ x :: working
          · exact List.mem_append_right _ (mem_derived.mpr ⟨⟨z, hworking, hy⟩, hseen⟩)
          · exact absurd (hrest z hz hworking y hy) hseen
      obtain ⟨hkeeps, hclosed⟩ := ih h (by
        intro z hz hold y hy
        rcases List.mem_append.mp hz with hz | hz
        · exact hnext z hz y hy
        · exact absurd hz hold)
      exact ⟨fun z hz => hkeeps z (List.mem_append_left _ hz), hclosed⟩

/-- The query ends over finitely many rows. -/
theorem recursive_ends {all first : List α} (hnext : ∀ x ∈ all, ∀ y ∈ next x, y ∈ all)
    (hfirst : ∀ x ∈ first, x ∈ all) (hbound : all.length < bound) :
    (recursive next bound first).isSome = true := by
  refine rounds_end hnext (List.nodup_dedup _) (fun x hx => hx) ?_ (by omega)
  exact fun x hx => hfirst x (List.mem_dedup.mp hx)

/-- The result is what the first rows reach. -/
theorem mem_recursive {first : List α} (h : recursive next bound first = some result) {y : α} :
    y ∈ result ↔ ∃ x ∈ first, Relation.ReflTransGen (fun a b => b ∈ next a) x y := by
  constructor
  · intro hy
    rcases rounds_sound h y hy with hfirst | ⟨x, hx, hreach⟩
    · exact ⟨y, List.mem_dedup.mp hfirst, .refl⟩
    · exact ⟨x, List.mem_dedup.mp hx, hreach⟩
  · rintro ⟨x, hx, hreach⟩
    obtain ⟨hkeeps, hclosed⟩ := rounds_closed h (fun z hz hno => absurd hz hno)
    induction hreach with
    | refl => exact hkeeps x (List.mem_dedup.mpr hx)
    | tail _ hstep ih => exact hclosed _ ih _ hstep

end Rounds

end Relational
