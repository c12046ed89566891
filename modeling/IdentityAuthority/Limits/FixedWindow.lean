import Mathlib.Algebra.Order.Ring.Int
import Mathlib.Data.List.TakeWhile
import Mathlib.Data.List.Induction
import Mathlib.Data.List.Basic
import Mathlib.Data.List.Pairwise
import Mathlib.Tactic.Common

/-!
# Fixed-window counters

A counter counts hits until a time that is fixed by its first hit; from then on it stands for
nothing, whether it is kept or forgotten. What a counter stands for is determined by the times of
the hits alone: `tally` replays them. A counter that never exceeds a limit bounds the hits in every
window that a hit opens.
-/

namespace Limits

/-- A count of hits, and the time until which it counts. -/
@[ext] structure Counter where
  count : ℤ
  ends : ℤ
deriving DecidableEq

/-- What a counter stands for at a time: nothing once it is over. -/
def live (c : Option Counter) (t : ℤ) : Option Counter := c.filter fun c => decide (t < c.ends)

/-- The counter after one more hit; a hit on a counter that is over starts a window. -/
def hit (length t : ℤ) (c : Option Counter) : Counter :=
  match live c t with
  | some c => ⟨c.count + 1, c.ends⟩
  | none => ⟨1, t + length⟩

/-- The counter that hits at these times leave behind. -/
def tally (length : ℤ) (times : List ℤ) : Option Counter :=
  times.foldl (fun c t => some (hit length t c)) none

/-- Two counters stand for the same at a time. -/
def Agree (t : ℤ) (c c' : Option Counter) : Prop := live c t = live c' t

variable {c c' c'' : Option Counter} {d : Counter} {length t t' : ℤ} {limit : ℤ} {times : List ℤ}

@[simp] theorem live_none : live none t = none := rfl

theorem live_eq_some : live c t = some d ↔ c = some d ∧ t < d.ends := by
  simp only [live, Option.filter_eq_some_iff, decide_eq_true_eq]

theorem live_eq_none : live c t = none ↔ ∀ d ∈ c, d.ends ≤ t := by
  simp [live, Option.filter_eq_none_iff]

/-- Forgetting what was over before changes nothing later. -/
theorem live_live (h : t ≤ t') : live (live c t) t' = live c t' := by
  cases c with
  | none => rfl
  | some d =>
    by_cases hd : t < d.ends
    · rw [live_eq_some.mpr ⟨rfl, hd⟩]
    · have hover : live (some d) t = none := live_eq_none.mpr (by simpa using hd)
      have hlater : live (some d) t' = none := live_eq_none.mpr (by simp; omega)
      rw [hover, hlater, live_none]

theorem Agree.refl (t : ℤ) (c : Option Counter) : Agree t c c := rfl

theorem Agree.trans (h : Agree t c c') (h' : Agree t c' c'') : Agree t c c'' := Eq.trans h h'

/-- Counters that stand for the same do so ever after. -/
theorem Agree.later (h : Agree t c c') (hle : t ≤ t') : Agree t' c c' := by
  rw [Agree, ← live_live hle, h, live_live hle]

/-- Counters that stand for the same stand for the same after a hit. -/
theorem Agree.hit_eq (h : Agree t c c') : hit length t c = hit length t c' := by
  simp only [hit]
  rw [h]

@[simp] theorem tally_nil : tally length [] = none := rfl

@[simp] theorem tally_append_singleton :
    tally length (times ++ [t]) = some (hit length t (tally length times)) := by
  simp [tally]

/-- A window is as long as it was set when its hits came in time. -/
theorem tally_inside {pre inside : List ℤ} (hopens : live (tally length pre) t = none)
    (hinside : ∀ x ∈ inside, x < t + length) :
    tally length (pre ++ t :: inside) = some ⟨inside.length + 1, t + length⟩ := by
  induction inside using List.reverseRecOn with
  | nil => simp [hit, hopens]
  | append_singleton inside x ih =>
    have hx : x < t + length := hinside x (by simp)
    have hbefore := ih fun y hy => hinside y (by simp [hy])
    have hlive : live (some ⟨inside.length + 1, t + length⟩) x =
        some ⟨inside.length + 1, t + length⟩ := live_eq_some.mpr ⟨rfl, hx⟩
    rw [← List.cons_append, ← List.append_assoc, tally_append_singleton, hbefore, hit, hlive]
    simp

/-- Hits in order that come before a time are the first ones. -/
theorem filter_eq_takeWhile {bound : ℤ} (hsorted : times.Pairwise (· ≤ ·)) :
    times.filter (fun x => decide (x < bound)) = times.takeWhile fun x => decide (x < bound) := by
  induction times with
  | nil => rfl
  | cons x times ih =>
    rw [List.pairwise_cons] at hsorted
    by_cases hx : x < bound
    · simp only [List.filter_cons, List.takeWhile_cons, hx, decide_true, if_true, ih hsorted.2]
    · have hrest : times.filter (fun y => decide (y < bound)) = [] := by
        rw [List.filter_eq_nil_iff]
        intro y hy
        have hle := hsorted.1 y hy
        simp only [decide_eq_true_eq]
        omega
      simp only [List.filter_cons, List.takeWhile_cons, hx, decide_false, Bool.false_eq_true, if_false,
        hrest]

/-- A counter that never exceeds a limit admits at most so many hits into every window that one of
them opens. -/
theorem hits_in_window_le (hlength : 0 < length) (hsorted : times.Pairwise (· ≤ ·))
    (hlimit : ∀ p, p <+: times → ∀ c ∈ tally length p, c.count ≤ limit) {pre post : List ℤ}
    (htimes : times = pre ++ t :: post) (hopens : live (tally length pre) t = none) :
    (((t :: post).filter fun x => decide (x < t + length)).length : ℤ) ≤ limit := by
  subst htimes
  have hpost : (t :: post).Pairwise (· ≤ ·) := (List.pairwise_append.mp hsorted).2.1
  have hfirst : t < t + length := by omega
  rw [filter_eq_takeWhile hpost, List.takeWhile_cons, if_pos (decide_eq_true hfirst)]
  have hinside : ∀ x ∈ post.takeWhile (fun x => decide (x < t + length)), x < t + length := by
    intro x hx
    simpa using List.mem_takeWhile_imp hx
  have hprefix : pre ++ t :: post.takeWhile (fun x => decide (x < t + length)) <+:
      pre ++ t :: post := by
    rw [List.prefix_append_right_inj, List.cons_prefix_cons]
    exact ⟨rfl, List.takeWhile_prefix _⟩
  have hcount := hlimit _ hprefix _ (tally_inside hopens hinside)
  simpa using hcount

end Limits
