import IdentityAuthority.Relational.Truth
import Mathlib.Data.List.Sort
import Mathlib.Order.Defs.LinearOrder

/-!
# Seeking in an order

Rows are ordered by several columns, each ascending or descending and with missing values last. A
page holds the first rows after a position, and one row more tells whether another page follows. The
position of the next page is read off the last row of this one: the pages are the pieces of one list.
-/

namespace Relational

universe u v

variable {κ : Type u} {ρ : Type v} [LinearOrder κ]

/-- A column value comes before another one, missing values last. -/
def columnBefore (descending : Bool) : Option κ → Option κ → Bool
  | some a, some b => if descending then decide (b < a) else decide (a < b)
  | some _, none => true
  | none, _ => false

/-- A row comes before another one: in the first column in which they differ. -/
def precedes : List Bool → List (Option κ) → List (Option κ) → Bool
  | descending :: rest, a :: as, b :: bs =>
    columnBefore descending a b || (decide (a = b) && precedes rest as bs)
  | _, _, _ => false

/-- The condition that a column comes after a position, as it is written for a database. -/
def columnAfter (descending : Bool) (column position : Option κ) : Truth :=
  match position with
  | none => some false
  | some value =>
    (Truth.compare (fun a b => if descending then decide (a < b) else decide (b < a)) column
      (some value)).or (some column.isNone)

/-- The cases of a row after a position, one for each column that may decide: the columns before it
are unchanged. -/
def afterCases (unchanged : Truth) : List Bool → List (Option κ) → List (Option κ) → List Truth
  | descending :: rest, column :: columns, value :: values =>
    unchanged.and (columnAfter descending column value) ::
      afterCases (unchanged.and (Truth.same column value)) rest columns values
  | _, _, _ => []

/-- The condition that a row comes after a position: one of the cases. -/
def after (ds : List Bool) (columns position : List (Option κ)) : Truth :=
  (afterCases (some true) ds columns position).foldr Truth.or (some false)

variable {ds : List Bool} {a b c : Option κ} {as bs cs : List (Option κ)} {descending : Bool}

@[simp] theorem precedes_nil : precedes [] as bs = false := rfl

@[simp] theorem precedes_nil_left : precedes ds [] bs = false := by
  cases ds <;> rfl

@[simp] theorem precedes_nil_right : precedes ds as [] = false := by
  cases ds <;> cases as <;> rfl

@[simp] theorem precedes_cons : precedes (descending :: ds) (a :: as) (b :: bs) =
    (columnBefore descending a b || (decide (a = b) && precedes ds as bs)) := rfl

theorem columnBefore_irrefl : columnBefore descending a a = false := by
  cases a with
  | none => rfl
  | some a => cases descending <;> simp [columnBefore]

theorem columnBefore_trans (h : columnBefore descending a b = true)
    (h' : columnBefore descending b c = true) : columnBefore descending a c = true := by
  cases a with
  | none => simp [columnBefore] at h
  | some a =>
    cases b with
    | none => simp [columnBefore] at h'
    | some b =>
      cases c with
      | none => rfl
      | some c =>
        cases descending with
        | false =>
          simp only [columnBefore, Bool.false_eq_true, if_false, decide_eq_true_eq] at h h' ⊢
          exact h.trans h'
        | true =>
          simp only [columnBefore, if_true, decide_eq_true_eq] at h h' ⊢
          exact h'.trans h

/-- Of two values that differ one comes before the other. -/
theorem columnBefore_total (h : a ≠ b) :
    columnBefore descending a b = true ∨ columnBefore descending b a = true := by
  cases a with
  | none =>
    cases b with
    | none => exact absurd rfl h
    | some b => exact .inr rfl
  | some a =>
    cases b with
    | none => exact .inl rfl
    | some b =>
      have hne : a ≠ b := fun heq => h (by rw [heq])
      rcases lt_or_gt_of_ne hne with hlt | hlt
      · cases descending <;> simp [columnBefore, hlt]
      · cases descending <;> simp [columnBefore, hlt]

/-- The written condition on a column says that the position comes before it. -/
theorem holds_columnAfter : (columnAfter descending a b).holds = columnBefore descending b a := by
  cases b with
  | none => rfl
  | some b =>
    cases a with
    | none => simp [columnAfter, columnBefore, Truth.compare]
    | some a => simp [columnAfter, columnBefore, Truth.compare]

theorem holds_afterCases {t : Truth} :
    ((afterCases t ds as bs).foldr Truth.or (some false)).holds =
      (t.holds && precedes ds bs as) := by
  induction ds generalizing t as bs with
  | nil => simp [afterCases]
  | cons d ds ih =>
    rcases as with _ | ⟨a, as⟩
    · cases bs <;> simp [afterCases]
    rcases bs with _ | ⟨b, bs⟩
    · simp [afterCases]
    simp only [afterCases, List.foldr_cons, precedes_cons, Truth.holds_or, Truth.holds_and, ih,
      holds_columnAfter, Truth.same, Truth.holds_some]
    by_cases hab : a = b
    · subst hab
      cases t.holds <;> simp
    · have hba : b ≠ a := fun heq => hab heq.symm
      simp [hab, hba]

/-- The written condition says that the position comes before the row. -/
theorem holds_after : (after ds as bs).holds = precedes ds bs as := by
  unfold after
  rw [holds_afterCases, Truth.holds_some, Bool.true_and]

theorem precedes_irrefl : precedes ds as as = false := by
  induction ds generalizing as with
  | nil => rfl
  | cons d ds ih =>
    cases as with
    | nil => rfl
    | cons a as => simp [columnBefore_irrefl, ih]

theorem precedes_trans (h : precedes ds as bs = true) (h' : precedes ds bs cs = true) :
    precedes ds as cs = true := by
  induction ds generalizing as bs cs with
  | nil => simp at h
  | cons d ds ih =>
    rcases as with _ | ⟨a, as⟩
    · simp at h
    rcases bs with _ | ⟨b, bs⟩
    · simp at h
    rcases cs with _ | ⟨c, cs⟩
    · simp at h'
    simp only [precedes_cons, Bool.or_eq_true, Bool.and_eq_true, decide_eq_true_eq] at h h' ⊢
    rcases h with h | ⟨rfl, h⟩
    · rcases h' with h' | ⟨rfl, -⟩
      · exact .inl (columnBefore_trans h h')
      · exact .inl h
    · rcases h' with h' | ⟨rfl, h'⟩
      · exact .inl h'
      · exact .inr ⟨rfl, ih h h'⟩

/-- Of two rows whose columns differ one comes before the other. -/
theorem precedes_total (has : as.length = ds.length) (hbs : bs.length = ds.length) (h : as ≠ bs) :
    precedes ds as bs = true ∨ precedes ds bs as = true := by
  induction ds generalizing as bs with
  | nil =>
    rw [List.length_nil, List.length_eq_zero_iff] at has hbs
    exact absurd (has.trans hbs.symm) h
  | cons d ds ih =>
    rcases as with _ | ⟨a, as⟩
    · simp at has
    rcases bs with _ | ⟨b, bs⟩
    · simp at hbs
    simp only [List.length_cons, Nat.add_right_cancel_iff] at has hbs
    simp only [precedes_cons, Bool.or_eq_true, Bool.and_eq_true, decide_eq_true_eq]
    by_cases hab : a = b
    · subst hab
      have hrest : as ≠ bs := fun heq => h (by rw [heq])
      rcases ih has hbs hrest with hlt | hlt
      · exact .inl (.inr ⟨rfl, hlt⟩)
      · exact .inr (.inr ⟨rfl, hlt⟩)
    · have htotal : columnBefore d a b = true ∨ columnBefore d b a = true := columnBefore_total hab
      exact htotal.imp .inl .inl

section Pages

variable (ds : List Bool) (columns : ρ → List (Option κ))

/-- Rows in the order (`ORDER BY`). -/
def ordered (rows : List ρ) : List ρ :=
  rows.insertionSort fun r s => precedes ds (columns s) (columns r) = false

/-- The rows that follow a position, or all of them (`WHERE`, `ORDER BY`). -/
def following (position : Option (List (Option κ))) (rows : List ρ) : List ρ :=
  ordered ds columns (rows.filter fun r => position.all fun p => (after ds (columns r) p).holds)

/-- A page of rows, with the position of the next one if there is any. -/
structure Page (κ : Type u) (ρ : Type v) where
  rows : List ρ
  next : Option (List (Option κ))

/-- The first rows after a position (`LIMIT` one more than a page). -/
def page (size : ℕ) (position : Option (List (Option κ))) (rows : List ρ) : Page κ ρ :=
  let found := (following ds columns position rows).take (size + 1)
  { rows := found.take size
    next := if size < found.length then ((found.take size).getLast?).map columns else none }

variable {ds columns} {rows : List ρ} {r s : ρ} {size : ℕ} {position : Option (List (Option κ))}

/-- What makes pages well defined: as many columns as directions, and no two rows alike. -/
structure Keyset (ds : List Bool) (columns : ρ → List (Option κ)) (rows : List ρ) : Prop where
  width : ∀ r ∈ rows, (columns r).length = ds.length
  distinct : rows.Pairwise fun r s => columns r ≠ columns s

omit [LinearOrder κ] in
theorem Keyset.filter {p : ρ → Bool} (h : Keyset ds columns rows) :
    Keyset ds columns (rows.filter p) :=
  ⟨fun r hr => h.width r (List.mem_filter.mp hr).1, h.distinct.filter _⟩

theorem ordered_perm (rows : List ρ) : (ordered ds columns rows).Perm rows :=
  List.perm_insertionSort _ _

@[simp] theorem mem_ordered : r ∈ ordered ds columns rows ↔ r ∈ rows := (ordered_perm rows).mem_iff

/-- Rows with as many columns as directions are put in order. -/
theorem ordered_sorted (hwidth : ∀ r ∈ rows, (columns r).length = ds.length) :
    (ordered ds columns rows).Pairwise fun r s => precedes ds (columns s) (columns r) = false := by
  let wide := { r : ρ // (columns r).length = ds.length }
  let le : wide → wide → Prop := fun r s => precedes ds (columns s.1) (columns r.1) = false
  have hasymm : ∀ r s : wide, precedes ds (columns r.1) (columns s.1) = true → le r s := by
    intro r s h
    by_contra hno
    have hloop := precedes_trans h (Bool.eq_true_of_not_eq_false hno)
    rw [precedes_irrefl] at hloop
    cases hloop
  have htotal : Std.Total le := by
    refine ⟨fun r s => ?_⟩
    by_cases h : precedes ds (columns r.1) (columns s.1) = true
    · exact .inl (hasymm r s h)
    · exact .inr (Bool.eq_false_of_not_eq_true h)
  have htrans : IsTrans wide le := by
    refine ⟨fun r s t hrs hst => ?_⟩
    by_contra hno
    have htr := Bool.eq_true_of_not_eq_false hno
    by_cases heq : columns r.1 = columns s.1
    · rw [heq] at htr
      rw [show precedes ds (columns t.1) (columns s.1) = false from hst] at htr
      cases htr
    · rcases precedes_total r.2 s.2 heq with h | h
      · have hts := precedes_trans htr h
        rw [show precedes ds (columns t.1) (columns s.1) = false from hst] at hts
        cases hts
      · rw [show precedes ds (columns s.1) (columns r.1) = false from hrs] at h
        cases h
  have hmap := List.map_insertionSort le
    (fun r s => precedes ds (columns s) (columns r) = false) Subtype.val
    (rows.attachWith _ hwidth) fun _ _ _ _ => Iff.rfl
  rw [List.attachWith_map_subtype_val] at hmap
  unfold ordered
  rw [← hmap, List.pairwise_map]
  exact List.pairwise_insertionSort le _

/-- Rows in order are strictly so where no two are alike. -/
theorem ordered_strict (h : Keyset ds columns rows) :
    (ordered ds columns rows).Pairwise fun r s => precedes ds (columns r) (columns s) = true := by
  have hdistinct : (ordered ds columns rows).Pairwise fun r s => columns r ≠ columns s :=
    (ordered_perm rows).symm.pairwise h.distinct fun hne => hne.symm
  refine ((ordered_sorted h.width).and hdistinct).imp_of_mem ?_
  rintro r s hr hs ⟨hle, hne⟩
  have hwidth := h.width r (mem_ordered.mp hr)
  have hwidth' := h.width s (mem_ordered.mp hs)
  rcases precedes_total hwidth hwidth' hne with hlt | hlt
  · exact hlt
  · rw [hle] at hlt
    cases hlt

/-- A list in strict order is the order of its rows. -/
theorem ordered_eq {l : List ρ} (h : Keyset ds columns rows) (hperm : l.Perm rows)
    (hl : l.Pairwise fun r s => precedes ds (columns r) (columns s) = true) :
    ordered ds columns rows = l := by
  refine ((ordered_perm rows).trans hperm.symm).eq_of_pairwise ?_ (ordered_strict h) hl
  intro r s _ _ hrs hsr
  have hloop := precedes_trans hrs hsr
  rw [precedes_irrefl] at hloop
  cases hloop

/-- Choosing rows and putting them in order commute. -/
theorem ordered_filter {p : ρ → Bool} (h : Keyset ds columns rows) :
    ordered ds columns (rows.filter p) = (ordered ds columns rows).filter p :=
  ordered_eq h.filter ((ordered_perm rows).filter p) ((ordered_strict h).filter p)

/-- What follows a row of an ordered list is what the written condition selects. -/
theorem filter_after {pre post : List ρ}
    (h : (pre ++ r :: post).Pairwise fun r s => precedes ds (columns r) (columns s) = true) :
    (pre ++ r :: post).filter (fun s => (after ds (columns s) (columns r)).holds) = post := by
  have hsplit := List.pairwise_append.mp h
  have hrest := List.pairwise_cons.mp hsplit.2.1
  have hasymm : ∀ {s t : ρ}, precedes ds (columns s) (columns t) = true →
      precedes ds (columns t) (columns s) = false := by
    intro s t hst
    by_contra hts
    have hloop := precedes_trans hst (Bool.eq_true_of_not_eq_false hts)
    rw [precedes_irrefl] at hloop
    cases hloop
  have hpre : pre.filter (fun s => (after ds (columns s) (columns r)).holds) = [] := by
    rw [List.filter_eq_nil_iff]
    intro s hs
    rw [holds_after, hasymm (hsplit.2.2 s hs r List.mem_cons_self)]
    exact Bool.false_ne_true
  have hpost : post.filter (fun s => (after ds (columns s) (columns r)).holds) = post := by
    rw [List.filter_eq_self]
    intro s hs
    rw [holds_after]
    exact hrest.1 s hs
  rw [List.filter_append, List.filter_cons, hpre, hpost, holds_after, precedes_irrefl]
  rfl

/-- What follows a position is a part of all rows in order. -/
theorem following_eq (h : Keyset ds columns rows) : following ds columns position rows =
    (ordered ds columns rows).filter fun r => position.all fun p => (after ds (columns r) p).holds :=
  ordered_filter h

/-- Behind a row of what follows a position, the rows that follow that row are the rest. -/
theorem following_row {pre post : List ρ} (h : Keyset ds columns rows)
    (hsplit : following ds columns position rows = pre ++ r :: post) :
    following ds columns (some (columns r)) rows = post := by
  have hstrict := ordered_strict h
  rw [following_eq h] at hsplit
  have hpart := hstrict.filter fun s => position.all fun p => (after ds (columns s) p).holds
  rw [hsplit] at hpart
  have hr : r ∈ (ordered ds columns rows).filter fun s =>
      position.all fun p => (after ds (columns s) p).holds := by
    rw [hsplit]
    simp
  have hbefore := (List.mem_filter.mp hr).2
  rw [following_eq h, ← filter_after hpart, ← hsplit, List.filter_filter]
  apply List.filter_congr
  intro s _
  cases position with
  | none => simp
  | some p =>
    simp only [Option.all_some, holds_after] at hbefore ⊢
    by_cases hs : precedes ds (columns r) (columns s) = true
    · simp [hs, precedes_trans hbefore hs]
    · simp [hs]

/-- A page is the beginning of what follows its position; where another page follows, it starts after
the last row of this one. -/
theorem page_splits (h : Keyset ds columns rows) (hsize : 0 < size) :
    following ds columns position rows = (page ds columns size position rows).rows ++
      ((page ds columns size position rows).next.elim [] fun next =>
        following ds columns (some next) rows) := by
  simp only [page, List.length_take, List.take_take]
  rw [Nat.min_eq_left (by omega : size ≤ size + 1)]
  by_cases hmore : size < (following ds columns position rows).length
  · rw [if_pos (by omega)]
    have hlast : ((following ds columns position rows).take size).getLast? =
        (following ds columns position rows)[size - 1]? := by
      rw [List.getLast?_eq_getElem?, List.length_take, Nat.min_eq_left hmore.le,
        List.getElem?_take_of_lt (by omega)]
    have hlt : size - 1 < (following ds columns position rows).length := by omega
    rw [hlast, List.getElem?_eq_getElem hlt]
    have hpage : (following ds columns position rows).take size =
        (following ds columns position rows).take (size - 1) ++
          [(following ds columns position rows)[size - 1]] := by
      rw [List.take_append_getElem hlt, Nat.sub_add_cancel hsize]
    have hsplit : following ds columns position rows =
        (following ds columns position rows).take (size - 1) ++
          (following ds columns position rows)[size - 1] ::
            (following ds columns position rows).drop size := by
      have hdrop := List.drop_eq_getElem_cons hlt
      rw [Nat.sub_add_cancel hsize] at hdrop
      rw [← hdrop, List.take_append_drop]
    rw [Option.map_some, Option.elim_some, following_row h hsplit]
    exact (List.take_append_drop _ _).symm
  · rw [if_neg (by omega), Option.elim_none, List.append_nil, List.take_of_length_le (by omega)]

/-- The next page starts after the last row of this one. -/
theorem page_next_eq {next : List (Option κ)}
    (h : (page ds columns size position rows).next = some next) :
    ∃ r ∈ (page ds columns size position rows).rows.getLast?, columns r = next := by
  simp only [page] at h ⊢
  split at h
  · exact Option.map_eq_some_iff.mp h
  · cases h

/-- The rows of a page are rows. -/
theorem page_subset : (page ds columns size position rows).rows ⊆ rows := by
  intro r hr
  have hfollowing := List.mem_of_mem_take (List.mem_of_mem_take hr)
  exact (List.mem_filter.mp (mem_ordered.mp hfollowing)).1

/-- A page that leads to another one leaves rows for it. -/
theorem following_next_ne_nil {next : List (Option κ)} (h : Keyset ds columns rows) (hsize : 0 < size)
    (hnext : (page ds columns size position rows).next = some next) :
    following ds columns (some next) rows ≠ [] := by
  intro hnone
  have hsplits := @page_splits _ _ _ _ _ _ _ position h hsize
  rw [hnext, Option.elim_some, hnone, List.append_nil] at hsplits
  have hlength := congrArg List.length hsplits
  simp only [page, List.length_take] at hlength hnext
  split at hnext
  · omega
  · cases hnext

/-- Pages as a reader sees them who starts at a position and follows, to the end or until another
position. -/
inductive Pages (ds : List Bool) (columns : ρ → List (Option κ)) (size : ℕ) (rows : List ρ) :
    Option (List (Option κ)) → List (List ρ) → Option (List (Option κ)) → Prop
  | last {position : Option (List (Option κ))} :
      Pages ds columns size rows position [(page ds columns size position rows).rows]
        (page ds columns size position rows).next
  | more {position final : Option (List (Option κ))} {next : List (Option κ)}
      {pages : List (List ρ)} :
      (page ds columns size position rows).next = some next →
      Pages ds columns size rows (some next) pages final →
      Pages ds columns size rows position ((page ds columns size position rows).rows :: pages) final

/-- The pages are the beginning of what follows the position they started at, and what follows their
end is the rest. -/
theorem Pages.flatten {pages : List (List ρ)} {final : Option (List (Option κ))}
    (h : Pages ds columns size rows position pages final) (hkeys : Keyset ds columns rows)
    (hsize : 0 < size) : following ds columns position rows =
      pages.flatten ++ final.elim [] fun next => following ds columns (some next) rows := by
  induction h with
  | last =>
    rw [List.flatten_cons, List.flatten_nil, List.append_nil]
    exact page_splits hkeys hsize
  | more hmore _ ih =>
    rw [List.flatten_cons, List.append_assoc, ← ih]
    conv_lhs => rw [page_splits hkeys hsize, hmore]
    rfl

/-- Nothing is left just where the last of the pages leads to no other one. -/
theorem Pages.rest_eq_nil_iff {pages : List (List ρ)} {final : Option (List (Option κ))}
    (h : Pages ds columns size rows position pages final) (hkeys : Keyset ds columns rows)
    (hsize : 0 < size) :
    (final.elim [] fun next => following ds columns (some next) rows) = [] ↔ final = none := by
  induction h with
  | @last position =>
    cases hnext : (page ds columns size position rows).next with
    | none => simp
    | some next => simpa using following_next_ne_nil hkeys hsize hnext
  | more _ _ ih => exact ih

end Pages

end Relational
