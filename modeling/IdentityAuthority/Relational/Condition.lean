import IdentityAuthority.Relational.Truth
import Mathlib.Algebra.Order.Group.Int
import Mathlib.Data.List.Infix

/-!
# Conditions in pieces

A condition reaches the database as a sequence of tests, connectives and parentheses. Which
connective binds tighter is not assumed: a sequence has every reading that some precedence gives it.
A sequence in which each pair of parentheses joins its parts by one connective has one value only.
-/

namespace Relational

universe u

/-- The connectives. -/
inductive Connective
  | and
  | or
deriving DecidableEq

/-- The truth value of two conditions that are joined. -/
def Connective.apply : Connective → Truth → Truth → Truth
  | and => Truth.and
  | or => Truth.or

theorem Connective.apply_assoc (c : Connective) (r s t : Truth) :
    c.apply (c.apply r s) t = c.apply r (c.apply s t) := by
  cases c <;> rcases r with _ | _ | _ <;> rcases s with _ | _ | _ <;> rcases t with _ | _ | _ <;> rfl

/-- A piece of a condition. -/
inductive Piece (α : Type u)
  | opening
  | closing
  | connective (c : Connective)
  | test (a : α)

section Reading

variable {α : Type u} {value : α → Truth}

/-- A sequence of pieces can be read as a condition of this truth value. -/
inductive Reading (value : α → Truth) : List (Piece α) → Truth → Prop
  | test (a : α) : Reading value [.test a] (value a)
  | group {pieces : List (Piece α)} {t : Truth} :
    Reading value pieces t → Reading value (.opening :: pieces ++ [.closing]) t
  | connect {left right : List (Piece α)} {s t : Truth} (c : Connective) :
    Reading value left s → Reading value right t →
      Reading value (left ++ .connective c :: right) (c.apply s t)

/-- A sequence is written without doubt: it is a test, or it is parentheses around parts that one
connective joins. With a connective, the sequence is such parts. -/
inductive Written (value : α → Truth) : Option Connective → List (Piece α) → Truth → Prop
  | test (a : α) : Written value none [.test a] (value a)
  | group {c : Connective} {pieces : List (Piece α)} {t : Truth} :
    Written value (some c) pieces t → Written value none (.opening :: pieces ++ [.closing]) t
  | last {c : Connective} {pieces : List (Piece α)} {t : Truth} :
    Written value none pieces t → Written value (some c) pieces t
  | more {c : Connective} {pieces rest : List (Piece α)} {s t : Truth} :
    Written value none pieces s → Written value (some c) rest t →
      Written value (some c) (pieces ++ .connective c :: rest) (c.apply s t)

/-- Parentheses that a sequence leaves open. -/
def net : List (Piece α) → ℤ
  | [] => 0
  | .opening :: pieces => 1 + net pieces
  | .closing :: pieces => -1 + net pieces
  | _ :: pieces => net pieces

@[simp] theorem net_append (left right : List (Piece α)) :
    net (left ++ right) = net left + net right := by
  induction left with
  | nil => simp [net]
  | cons piece left ih => cases piece <;> simp only [List.cons_append, net, ih] <;> omega

/-- Parentheses are closed, and none before it was opened. -/
structure Balanced (pieces : List (Piece α)) : Prop where
  closed : net pieces = 0
  opened : ∀ front back, pieces = front ++ back → 0 ≤ net front

/-- What is read is not empty. -/
theorem Reading.ne_nil {pieces : List (Piece α)} {t : Truth} (h : Reading value pieces t) :
    pieces ≠ [] := by
  cases h <;> simp

/-- Parentheses around a balanced sequence are open everywhere within. -/
theorem Balanced.within_group {pieces front back : List (Piece α)} (h : Balanced pieces)
    (hsplit : .opening :: pieces ++ [.closing] = front ++ back) (hfront : front ≠ [])
    (hback : back ≠ []) : 1 ≤ net front := by
  obtain ⟨piece, front, rfl⟩ := List.exists_cons_of_ne_nil hfront
  obtain ⟨back', last, rfl⟩ := (List.eq_nil_or_concat back).resolve_left hback
  rw [List.concat_eq_append] at hsplit
  simp only [List.cons_append, List.cons.injEq, ← List.append_assoc] at hsplit
  obtain ⟨rfl, hrest⟩ := hsplit
  have hpieces : pieces = front ++ back' := (List.append_inj' hrest rfl).1
  have hopen := h.opened front back' hpieces
  simp only [net]
  omega

/-- What is read is balanced. -/
theorem Reading.balanced {pieces : List (Piece α)} {t : Truth} (h : Reading value pieces t) :
    Balanced pieces := by
  induction h with
  | test a =>
    refine ⟨rfl, fun front back hsplit => ?_⟩
    cases front with
    | nil => exact le_rfl
    | cons piece front =>
      obtain ⟨rfl, hrest⟩ := List.cons.inj hsplit
      obtain ⟨rfl, -⟩ := List.append_eq_nil_iff.mp hrest.symm
      exact le_rfl
  | @group pieces _ _ ih =>
    have hclosed : net (.opening :: pieces ++ [Piece.closing]) = 0 := by
      rw [net_append]
      simp only [net, ih.closed]
      omega
    refine ⟨hclosed, fun front back hsplit => ?_⟩
    by_cases hfront : front = []
    · rw [hfront]
      exact le_rfl
    · by_cases hback : back = []
      · rw [hback, List.append_nil] at hsplit
        rw [← hsplit, hclosed]
      · have hopen := ih.within_group hsplit hfront hback
        omega
  | @connect left right _ _ c _ _ ihleft ihright =>
    refine ⟨?_, fun front back hsplit => ?_⟩
    · rw [net_append, ihleft.closed]
      simp only [net, ihright.closed, add_zero]
    · rcases List.append_eq_append_iff.mp hsplit with ⟨tail, rfl, hright⟩ | ⟨tail, rfl, -⟩
      · rw [net_append, ihleft.closed]
        cases tail with
        | nil => exact le_rfl
        | cons piece tail =>
          obtain ⟨rfl, hrest⟩ := List.cons.inj hright
          have hopen := ihright.opened tail back hrest
          simp only [net]
          omega
      · exact ihleft.opened front tail rfl

/-- What is written without doubt can be read. -/
theorem Written.reading {k : Option Connective} {pieces : List (Piece α)} {t : Truth}
    (h : Written value k pieces t) : Reading value pieces t := by
  induction h with
  | test a => exact .test a
  | group _ ih => exact .group ih
  | last _ ih => exact ih
  | more _ _ ih ihrest => exact .connect _ ih ihrest

/-- A test or a pair of parentheses has no front that is balanced. -/
theorem Written.no_front {pieces front back : List (Piece α)} {t : Truth}
    (h : Written value none pieces t) (hsplit : pieces = front ++ back) (hfront : front ≠ [])
    (hback : back ≠ []) : net front ≠ 0 := by
  cases h with
  | test a =>
    rcases List.singleton_eq_append_iff.mp hsplit with ⟨h, -⟩ | ⟨-, h⟩
    · exact absurd h hfront
    · exact absurd h hback
  | group hpieces =>
    have hopen := hpieces.reading.balanced.within_group hsplit hfront hback
    omega

/-- No reading starts with a connective. -/
theorem Reading.not_connective {c : Connective} {pieces : List (Piece α)} {t : Truth}
    (h : Reading value pieces t) : pieces.head? ≠ some (.connective c) := by
  induction h with
  | test => simp
  | group => simp
  | @connect left _ _ _ _ hleft _ ih _ =>
    obtain ⟨piece, left, rfl⟩ := List.exists_cons_of_ne_nil hleft.ne_nil
    exact ih

/-- Parts that one connective joins are cut at that connective only, between parts. -/
theorem Written.cut {c d : Connective} {pieces left right : List (Piece α)} {t : Truth}
    (h : Written value (some c) pieces t) (hsplit : pieces = left ++ .connective d :: right)
    (hleft : left ≠ []) (hbalanced : net left = 0) :
    d = c ∧ ∃ s₁ s₂, Written value (some c) left s₁ ∧ Written value (some c) right s₂ ∧
      t = c.apply s₁ s₂ := by
  generalize hk : some c = k at h
  induction h generalizing left with
  | test => cases hk
  | group => cases hk
  | last hpart =>
    exact absurd hbalanced (hpart.no_front hsplit hleft (by simp))
  | @more c' part rest s₁ s₂ hpart hrest _ ih =>
    obtain rfl : c = c' := Option.some.inj hk
    rcases List.append_eq_append_iff.mp hsplit with ⟨tail, rfl, hright⟩ | ⟨tail, rfl, hright⟩
    · cases tail with
      | nil =>
        obtain ⟨hc, rfl⟩ := List.cons.inj hright
        obtain rfl : c = d := Piece.connective.inj hc
        rw [List.append_nil]
        exact ⟨rfl, s₁, s₂, .last hpart, hrest, rfl⟩
      | cons piece tail =>
        obtain ⟨rfl, hrest'⟩ := List.cons.inj hright
        have htail : tail ≠ [] := by
          rintro rfl
          refine @Reading.not_connective _ _ d _ _ hrest.reading ?_
          rw [hrest']
          rfl
        rw [net_append, hpart.reading.balanced.closed] at hbalanced
        obtain ⟨rfl, t₁, t₂, hleft', hright', rfl⟩ := ih hrest' htail (by simpa [net] using hbalanced) rfl
        refine ⟨rfl, d.apply s₁ t₁, t₂, .more hpart hleft', hright', ?_⟩
        rw [d.apply_assoc]
    · cases tail with
      | nil =>
        obtain ⟨hc, rfl⟩ := List.cons.inj hright
        obtain rfl : d = c := Piece.connective.inj hc
        rw [List.append_nil] at hpart
        exact ⟨rfl, s₁, s₂, .last hpart, hrest, rfl⟩
      | cons piece tail => exact absurd hbalanced (hpart.no_front rfl hleft (by simp))

/-- Whatever binds tighter, what is written without doubt is read with its one value. -/
theorem Reading.value_eq {k : Option Connective} {pieces : List (Piece α)} {s t : Truth}
    (h : Reading value pieces s) (hwritten : Written value k pieces t) : s = t := by
  induction h generalizing k t with
  | test a =>
    generalize hpieces : [Piece.test a] = pieces at hwritten
    induction hwritten with
    | test b =>
      cases hpieces
      rfl
    | group => simp at hpieces
    | last _ ih => exact ih hpieces
    | more hpart _ _ _ =>
      rcases List.singleton_eq_append_iff.mp hpieces with ⟨h, -⟩ | ⟨-, h⟩
      · exact absurd h hpart.reading.ne_nil
      · cases h
  | @group inner s hinner ih =>
    generalize hpieces : .opening :: inner ++ [Piece.closing] = pieces at hwritten
    induction hwritten with
    | test b => simp at hpieces
    | @group c pieces t hgroup _ =>
      obtain ⟨-, hsame⟩ := List.cons.inj hpieces
      obtain rfl := (List.append_inj' hsame rfl).1
      exact ih hgroup
    | last _ ih => exact ih hpieces
    | more hpart _ _ _ =>
      have hopen := hinner.balanced.within_group hpieces hpart.reading.ne_nil (by simp)
      rw [hpart.reading.balanced.closed] at hopen
      omega
  | @connect left right s₁ s₂ d hleft hright ihleft ihright =>
    cases k with
    | none =>
      exact absurd hleft.balanced.closed (hwritten.no_front rfl hleft.ne_nil (by simp))
    | some c =>
      obtain ⟨rfl, t₁, t₂, hwleft, hwright, rfl⟩ :=
        hwritten.cut rfl hleft.ne_nil hleft.balanced.closed
      rw [ihleft hwleft, ihright hwright]

end Reading

end Relational
