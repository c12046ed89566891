import Mathlib.Data.List.Sort
import Mathlib.Data.List.Nodup
import Mathlib.Data.List.Perm.Subperm
import Mathlib.Order.Defs.LinearOrder

/-!
# Following a cursor while the rows change

A reader asks for the keys behind a cursor, in order and a page at a time, and goes on behind the
last key it scanned. Between two pages keys may come and go. Whatever becomes of the scanned keys
afterwards, no key is scanned twice, a key that is there at every page is scanned, and the reader
comes to an end where no keys come.
-/

namespace Relational

universe u

variable {κ : Type u} [LinearOrder κ]

/-- The first keys behind a cursor (`WHERE key > cursor ORDER BY key LIMIT n`). -/
def seek (cursor : Option κ) (n : ℕ) (keys : List κ) : List κ :=
  ((keys.filter fun k => cursor.all fun c => decide (c < k)).insertionSort (· ≤ ·)).take n

/-- One page: the keys that are there, the cursor it starts behind, and how many it scans. -/
structure Scan (κ : Type u) where
  cursor : Option κ
  limit : ℕ
  keys : List κ

namespace Scan

variable {s : Scan κ} {k m n : κ}

/-- What is behind the cursor, one key more than is scanned. -/
def ids (s : Scan κ) : List κ := seek s.cursor (s.limit + 1) s.keys

/-- The keys that are scanned. -/
def scanned (s : Scan κ) : List κ := s.ids.take s.limit

/-- The cursor of the next page, where there is one. -/
def next (s : Scan κ) : Option κ :=
  if s.limit < s.ids.length then s.scanned.getLast? else none

/-- A page that scans something, over keys that differ. -/
structure Sound (s : Scan κ) : Prop where
  limit_pos : 0 < s.limit
  nodup : s.keys.Nodup

/-- Everything behind the cursor, in order. -/
def behind (s : Scan κ) : List κ :=
  (s.keys.filter fun k => s.cursor.all fun c => decide (c < k)).insertionSort (· ≤ ·)

theorem mem_behind : k ∈ s.behind ↔ k ∈ s.keys ∧ ∀ c ∈ s.cursor, c < k := by
  simp [behind, Option.all_eq_true]

theorem ids_eq : s.ids = s.behind.take (s.limit + 1) := rfl

theorem scanned_eq : s.scanned = s.behind.take s.limit := by
  rw [scanned, ids_eq, List.take_take, Nat.min_eq_left (Nat.le_succ _)]

theorem behind_sorted (h : s.Sound) : s.behind.Pairwise (· < ·) := by
  have hnodup : s.behind.Nodup := by
    refine (List.perm_insertionSort _ _).nodup_iff.mpr ?_
    exact h.nodup.filter _
  have hle : s.behind.Pairwise (· ≤ ·) := List.pairwise_insertionSort _ _
  exact (hle.and hnodup).imp fun hpair => lt_of_le_of_ne hpair.1 hpair.2

theorem scanned_sorted (h : s.Sound) : s.scanned.Pairwise (· < ·) := by
  rw [scanned_eq]
  exact (behind_sorted h).sublist (List.take_sublist _ _)

theorem mem_of_scanned (hk : k ∈ s.scanned) : k ∈ s.keys ∧ ∀ c ∈ s.cursor, c < k := by
  rw [scanned_eq] at hk
  exact mem_behind.mp (List.mem_of_mem_take hk)

theorem behind_eq (s : Scan κ) : s.behind = s.scanned ++ s.behind.drop s.limit := by
  rw [scanned_eq, List.take_append_drop]

/-- The next cursor is the last key that was scanned. -/
theorem scanned_of_next (hnext : s.next = some n) : ∃ before, s.scanned = before ++ [n] := by
  rw [next] at hnext
  split at hnext
  · exact List.getLast?_eq_some_iff.mp hnext
  · cases hnext

/-- The next page starts behind every key that was scanned, the last of them included. -/
theorem le_next (h : s.Sound) (hnext : s.next = some n) (hk : k ∈ s.scanned) : k ≤ n := by
  obtain ⟨before, hbefore⟩ := scanned_of_next hnext
  have hsorted := scanned_sorted h
  rw [hbefore] at hsorted hk
  rcases List.mem_append.mp hk with hk | hk
  · exact ((List.pairwise_append.mp hsorted).2.2 k hk n (List.mem_singleton_self n)).le
  · exact (List.mem_singleton.mp hk).le

theorem next_mem (hnext : s.next = some n) : n ∈ s.scanned := by
  obtain ⟨before, hbefore⟩ := scanned_of_next hnext
  simp [hbefore]

/-- A key behind the cursor is scanned, or is behind the next cursor. -/
theorem scanned_or_behind (h : s.Sound) (hk : k ∈ s.keys) (hcursor : ∀ c ∈ s.cursor, c < k) :
    k ∈ s.scanned ∨ ∃ n, s.next = some n ∧ n < k := by
  have hbehind : k ∈ s.behind := mem_behind.mpr ⟨hk, hcursor⟩
  by_cases hmore : s.limit < s.behind.length
  · have hids : s.limit < s.ids.length := by
      rw [ids_eq, List.length_take]
      omega
    have hscanned : s.scanned ≠ [] := by
      intro hnil
      have hlength := congrArg List.length hnil
      rw [scanned_eq, List.length_take, List.length_nil] at hlength
      have := h.limit_pos
      omega
    have hnext : s.next = some (s.scanned.getLast hscanned) := by
      rw [next, if_pos hids, List.getLast?_eq_some_getLast hscanned]
    rw [behind_eq] at hbehind
    rcases List.mem_append.mp hbehind with hk' | hk'
    · exact .inl hk'
    · refine .inr ⟨_, hnext, ?_⟩
      have hsorted := behind_sorted h
      rw [behind_eq] at hsorted
      exact (List.pairwise_append.mp hsorted).2.2 _ (next_mem hnext) k hk'
  · refine .inl ?_
    rw [scanned_eq, List.take_of_length_le (by omega)]
    exact hbehind

end Scan

/-- The pages of a reader who starts behind a cursor and follows the next ones, and the cursor it
is left with. -/
inductive Following : Option κ → List (Scan κ) → Option κ → Prop
  | last {s : Scan κ} : s.Sound → Following s.cursor [s] s.next
  | more {s : Scan κ} {n : κ} {scans : List (Scan κ)} {final : Option κ} :
      s.Sound → s.next = some n → Following (some n) scans final →
      Following s.cursor (s :: scans) final

namespace Following

variable {cursor final : Option κ} {scans : List (Scan κ)} {k : κ}

/-- Everything that is scanned is behind the cursor the reader started at. -/
theorem behind_cursor (h : Following cursor scans final) (hk : k ∈ scans.flatMap Scan.scanned) :
    ∀ c ∈ cursor, c < k := by
  induction h with
  | last _ =>
    rw [List.flatMap_singleton] at hk
    exact (Scan.mem_of_scanned hk).2
  | more _ hnext _ ih =>
    rw [List.flatMap_cons] at hk
    rcases List.mem_append.mp hk with hk | hk
    · exact (Scan.mem_of_scanned hk).2
    · intro c hc
      have hn := (Scan.mem_of_scanned (Scan.next_mem hnext)).2 c hc
      exact hn.trans (ih hk _ rfl)

/-- Over all pages the scanned keys ascend: none is scanned twice. -/
theorem ascending (h : Following cursor scans final) :
    (scans.flatMap Scan.scanned).Pairwise (· < ·) := by
  induction h with
  | last hsound =>
    rw [List.flatMap_singleton]
    exact Scan.scanned_sorted hsound
  | more hsound hnext hrest ih =>
    rw [List.flatMap_cons]
    refine List.pairwise_append.mpr ⟨Scan.scanned_sorted hsound, ih, ?_⟩
    intro a ha b hb
    exact lt_of_le_of_lt (Scan.le_next hsound hnext ha) (hrest.behind_cursor hb _ rfl)

/-- A key that is there at every page is scanned, once the reader is told that no page follows. -/
theorem complete (h : Following cursor scans final) (hfinal : final = none)
    (hkeys : ∀ s ∈ scans, k ∈ s.keys) (hcursor : ∀ c ∈ cursor, c < k) :
    k ∈ scans.flatMap Scan.scanned := by
  induction h with
  | @last s hsound =>
    rw [List.flatMap_singleton]
    rcases Scan.scanned_or_behind hsound (hkeys s List.mem_cons_self) hcursor with hk | ⟨n, hn, -⟩
    · exact hk
    · rw [hfinal] at hn
      cases hn
  | @more s n scans final hsound hnext _ ih =>
    rw [List.flatMap_cons, List.mem_append]
    rcases Scan.scanned_or_behind hsound (hkeys s List.mem_cons_self) hcursor with hk | ⟨m, hm, hlt⟩
    · exact .inl hk
    · obtain rfl : n = m := Option.some_injective _ (hnext.symm.trans hm)
      refine .inr (ih hfinal (fun t ht => hkeys t (List.mem_cons_of_mem _ ht)) ?_)
      intro c hc
      cases hc
      exact hlt

/-- Every page but the last one scans a key, and so does the last one where another is to follow. -/
theorem length_le (h : Following cursor scans final) :
    scans.length ≤ (scans.flatMap Scan.scanned).length + if final = none then 1 else 0 := by
  have hpos : ∀ {s : Scan κ} {n : κ}, s.next = some n → 1 ≤ s.scanned.length :=
    fun hnext => List.length_pos_of_mem (Scan.next_mem hnext)
  induction h with
  | @last s _ =>
    rw [List.flatMap_singleton, List.length_singleton]
    cases hnext : s.next with
    | none => simp
    | some n => simpa using hpos hnext
  | more _ hnext _ ih =>
    have := hpos hnext
    rw [List.flatMap_cons, List.length_append, List.length_cons]
    omega

/-- A reader whose pages hold no other keys than so many is done after one page more. -/
theorem length_le_of_subset {all : List κ} (h : Following cursor scans final)
    (hall : ∀ s ∈ scans, s.keys ⊆ all) : scans.length ≤ all.length + if final = none then 1 else 0 := by
  have hsubset : scans.flatMap Scan.scanned ⊆ all := by
    intro k hk
    obtain ⟨s, hs, hk⟩ := List.mem_flatMap.mp hk
    exact hall s hs (Scan.mem_of_scanned hk).1
  have hnodup : (scans.flatMap Scan.scanned).Nodup := h.ascending.imp fun hlt => hlt.ne
  have hcount := (List.subperm_of_subset hnodup hsubset).length_le
  have := h.length_le
  omega

end Following

end Relational
