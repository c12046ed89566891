import Mathlib.Algebra.Group.Prod
import Mathlib.Algebra.BigOperators.Group.List.Basic
import Mathlib.Algebra.Order.Group.Nat
import Mathlib.Algebra.Ring.Nat
import Mathlib.Data.List.Basic

/-!
# Reading a text

A reader stands at a byte of a text and spends a budget. `Reads` says what a step can do from before
a text: it stops in a permitted way, or it consumes the front of the text. `Accepts` says that a step
does consume a given front. Both compose along the steps of a parser.
-/

namespace Parsing

/-- The number of bytes of a text in UTF-8. -/
def byteLength (text : List Char) : ℕ := (text.map Char.utf8Size).sum

section Slices

variable {text rest read : List Char}

@[simp] theorem byteLength_nil : byteLength [] = 0 := rfl

@[simp] theorem byteLength_cons (c : Char) (text : List Char) :
    byteLength (c :: text) = c.utf8Size + byteLength text := by
  simp [byteLength]

@[simp] theorem byteLength_append (text rest : List Char) :
    byteLength (text ++ rest) = byteLength text + byteLength rest := by
  simp [byteLength]

/-- A character takes one byte at least. -/
theorem length_le_byteLength (text : List Char) : text.length ≤ byteLength text := by
  induction text with
  | nil => exact le_rfl
  | cons c text ih =>
    have hpos := c.utf8Size_pos
    rw [byteLength_cons, List.length_cons]
    omega

theorem byteLength_ofList (text : List Char) :
    (String.ofList text).utf8ByteSize = byteLength text := by
  induction text with
  | nil => rfl
  | cons c text ih =>
    rw [String.ofList_cons, String.utf8ByteSize_append, String.utf8ByteSize_singleton, ih,
      byteLength_cons]

theorem byteLength_toList (s : String) : byteLength s.toList = s.utf8ByteSize := by
  rw [← byteLength_ofList, String.ofList_toList]

/-- The text from a byte on. There is none from within a character, and none from beyond the end. -/
def fromByte : List Char → ℕ → Option (List Char)
  | text, 0 => some text
  | [], _ + 1 => none
  | c :: text, n + 1 => if c.utf8Size ≤ n + 1 then fromByte text (n + 1 - c.utf8Size) else none

@[simp] theorem fromByte_zero (text : List Char) : fromByte text 0 = some text := by
  cases text <;> rfl

@[simp] theorem fromByte_nil_succ (n : ℕ) : fromByte [] (n + 1) = none := rfl

theorem fromByte_cons_succ (c : Char) (text : List Char) (n : ℕ) :
    fromByte (c :: text) (n + 1) =
      if c.utf8Size ≤ n + 1 then fromByte text (n + 1 - c.utf8Size) else none :=
  rfl

/-- What follows a front of the text is what starts at its end. -/
theorem fromByte_append (read rest : List Char) :
    fromByte (read ++ rest) (byteLength read) = some rest := by
  induction read with
  | nil => exact fromByte_zero rest
  | cons c read ih =>
    obtain ⟨n, hn⟩ : ∃ n, byteLength (c :: read) = n + 1 := by
      have hpos := c.utf8Size_pos
      rw [byteLength_cons]
      exact ⟨c.utf8Size + byteLength read - 1, by omega⟩
    have hle : c.utf8Size ≤ n + 1 := by
      rw [← hn, byteLength_cons]
      exact Nat.le_add_right _ _
    have hread : n + 1 - c.utf8Size = byteLength read := by
      rw [← hn, byteLength_cons]
      omega
    rw [hn, List.cons_append, fromByte_cons_succ, if_pos hle, hread, ih]

/-- A byte from which there is a text ends a front of the whole: it is on a character boundary. -/
theorem fromByte_eq_some {n : ℕ} :
    fromByte text n = some rest ↔ ∃ read, text = read ++ rest ∧ byteLength read = n := by
  constructor
  · intro h
    induction text, n using fromByte.induct with
    | case1 text =>
      rw [fromByte_zero] at h
      cases h
      exact ⟨[], rfl, rfl⟩
    | case2 n =>
      rw [fromByte_nil_succ] at h
      cases h
    | case3 c text n hle ih =>
      rw [fromByte_cons_succ, if_pos hle] at h
      obtain ⟨read, rfl, hread⟩ := ih h
      refine ⟨c :: read, rfl, ?_⟩
      rw [byteLength_cons]
      omega
    | case4 c text n hlt =>
      rw [fromByte_cons_succ, if_neg hlt] at h
      cases h
  · rintro ⟨read, rfl, rfl⟩
    exact fromByte_append read rest

/-- Behind the front that was read, what follows it is what is left. -/
theorem fromByte_add {n : ℕ} (h : fromByte text n = some (read ++ rest)) :
    fromByte text (n + byteLength read) = some rest := by
  obtain ⟨front, rfl, rfl⟩ := fromByte_eq_some.mp h
  rw [fromByte_eq_some]
  exact ⟨front ++ read, (List.append_assoc ..).symm, byteLength_append front read⟩

end Slices

/-- How a reader is observed: what it has not read, if it stands on a character boundary; what it
has spent; and what may be spent. -/
structure Gauge (σ κ : Type) [AddMonoid κ] where
  rest : σ → Option (List Char)
  spent : σ → κ
  within : κ → Prop
  within_left : ∀ x y, within (x + y) → within x

namespace Gauge

variable {σ κ ε α β : Type} [AddMonoid κ] (g : Gauge σ κ)

/-- From before the text the step stops as permitted, or it consumes a front of the text, spends
within the budget and returns what it should for that front. -/
def Reads (permitted : ε → Prop) (m : StateT σ (Except ε) α) (text : List Char)
    (P : List Char → κ → α → Prop) : Prop :=
  ∀ s, g.rest s = some text → g.within (g.spent s) →
    (∃ e, m s = .error e ∧ permitted e) ∨
      ∃ a s' read left cost, m s = .ok (a, s') ∧ text = read ++ left ∧ g.rest s' = some left ∧
        g.spent s' = g.spent s + cost ∧ g.within (g.spent s') ∧ P read cost a

/-- Before a text that starts like this and goes on as required, the step consumes just that front,
at this cost, and returns this value. -/
def Accepts (m : StateT σ (Except ε) α) (read : List Char) (cost : κ) (a : α)
    (follow : List Char → Prop) : Prop :=
  ∀ s left, g.rest s = some (read ++ left) → follow left → g.within (g.spent s + cost) →
    ∃ s', m s = .ok (a, s') ∧ g.rest s' = some left ∧ g.spent s' = g.spent s + cost

variable {g} {permitted : ε → Prop} {m : StateT σ (Except ε) α} {f : α → StateT σ (Except ε) β}

section Reads

variable {text : List Char} {P : List Char → κ → α → Prop} {Q : List Char → κ → β → Prop}

theorem Reads.pure {a : α} (h : P [] 0 a) :
    g.Reads permitted (pure a : StateT σ (Except ε) α) text P := by
  intro s hrest hwithin
  exact .inr ⟨a, s, [], text, 0, rfl, rfl, hrest, (add_zero _).symm, hwithin, h⟩

theorem Reads.mono {P' : List Char → κ → α → Prop} (h : g.Reads permitted m text P)
    (himp : ∀ read left cost a, text = read ++ left → P read cost a → P' read cost a) :
    g.Reads permitted m text P' := by
  intro s hrest hwithin
  rcases h s hrest hwithin with hstop | ⟨a, s', read, left, cost, hrun, htext, hleft, hspent, hin, ha⟩
  · exact .inl hstop
  · exact .inr ⟨a, s', read, left, cost, hrun, htext, hleft, hspent, hin,
      himp read left cost a htext ha⟩

/-- What two steps read is what the first reads and then the second, and the costs add up. -/
theorem Reads.bind (hm : g.Reads permitted m text P)
    (hf : ∀ a read left cost, text = read ++ left → P read cost a →
      g.Reads permitted (f a) left fun read' cost' b => Q (read ++ read') (cost + cost') b) :
    g.Reads permitted (m >>= f) text Q := by
  intro s hrest hwithin
  rcases hm s hrest hwithin with ⟨e, hrun, hpermitted⟩ |
    ⟨a, s', read, left, cost, hrun, htext, hleft, hspent, hin, ha⟩
  · refine .inl ⟨e, ?_, hpermitted⟩
    simp only [Bind.bind, StateT.bind, hrun, Except.bind]
  · have hgo : (m >>= f) s = f a s' := by
      simp only [Bind.bind, StateT.bind, hrun, Except.bind]
    rcases hf a read left cost htext ha s' hleft hin with ⟨e, hrun', hpermitted⟩ |
      ⟨b, s'', read', left', cost', hrun', htext', hleft', hspent', hin', hb⟩
    · exact .inl ⟨e, hgo.trans hrun', hpermitted⟩
    · refine .inr ⟨b, s'', read ++ read', left', cost + cost', hgo.trans hrun', ?_, hleft', ?_,
        hin', hb⟩
      · rw [htext, htext', List.append_assoc]
      · rw [hspent', hspent, add_assoc]

theorem Reads.ite {c : Prop} [Decidable c] {m' : StateT σ (Except ε) α}
    (h : c → g.Reads permitted m text P) (h' : ¬ c → g.Reads permitted m' text P) :
    g.Reads permitted (if c then m else m') text P := by
  split
  · exact h (by assumption)
  · exact h' (by assumption)

end Reads

section Accepts

variable {read read' : List Char} {cost cost' : κ} {a : α} {b : β} {follow follow' : List Char → Prop}

theorem Accepts.pure (a : α) (follow : List Char → Prop) :
    g.Accepts (pure a : StateT σ (Except ε) α) [] 0 a follow := by
  intro s left hrest _ _
  exact ⟨s, rfl, hrest, (add_zero _).symm⟩

/-- A step that consumes a front, and one that consumes the next, consume both. -/
theorem Accepts.bind (hm : g.Accepts m read cost a follow)
    (hf : g.Accepts (f a) read' cost' b follow')
    (hfollow : ∀ left, follow' left → follow (read' ++ left)) :
    g.Accepts (m >>= f) (read ++ read') (cost + cost') b follow' := by
  intro s left hrest hleft hwithin
  rw [List.append_assoc] at hrest
  rw [← add_assoc] at hwithin
  obtain ⟨s', hrun, hrest', hspent⟩ := hm s _ hrest (hfollow left hleft) (g.within_left _ _ hwithin)
  rw [← hspent] at hwithin
  obtain ⟨s'', hrun', hrest'', hspent'⟩ := hf s' left hrest' hleft hwithin
  refine ⟨s'', ?_, hrest'', ?_⟩
  · simp only [Bind.bind, StateT.bind, hrun, Except.bind]
    exact hrun'
  · rw [hspent', hspent, add_assoc]

/-- The same where the first step spends nothing. -/
theorem Accepts.free_bind (hm : g.Accepts m read 0 a follow)
    (hf : g.Accepts (f a) read' cost' b follow')
    (hfollow : ∀ left, follow' left → follow (read' ++ left)) :
    g.Accepts (m >>= f) (read ++ read') cost' b follow' := by
  have h := hm.bind hf hfollow
  rwa [zero_add] at h

/-- The same where the second step spends nothing. -/
theorem Accepts.bind_free (hm : g.Accepts m read cost a follow)
    (hf : g.Accepts (f a) read' 0 b follow')
    (hfollow : ∀ left, follow' left → follow (read' ++ left)) :
    g.Accepts (m >>= f) (read ++ read') cost b follow' := by
  have h := hm.bind hf hfollow
  rwa [add_zero] at h

/-- The same where the first step only spends. -/
theorem Accepts.spend_bind {total : κ} (hm : g.Accepts m [] cost a follow)
    (hf : g.Accepts (f a) read' cost' b follow') (htotal : cost + cost' = total)
    (hfollow : ∀ left, follow' left → follow (read' ++ left)) :
    g.Accepts (m >>= f) read' total b follow' := by
  subst htotal
  exact hm.bind hf hfollow

/-- The same where the second step consumes nothing and spends nothing. -/
theorem Accepts.bind_nil (hm : g.Accepts m read cost a follow)
    (hf : g.Accepts (f a) [] 0 b follow') (hfollow : ∀ left, follow' left → follow left) :
    g.Accepts (m >>= f) read cost b follow' := by
  have h := hm.bind hf hfollow
  rwa [List.append_nil, add_zero] at h

/-- The same where the first step consumes nothing and spends nothing. -/
theorem Accepts.nil_bind (hm : g.Accepts m [] 0 a follow)
    (hf : g.Accepts (f a) read' cost' b follow')
    (hfollow : ∀ left, follow' left → follow (read' ++ left)) :
    g.Accepts (m >>= f) read' cost' b follow' := by
  have h := hm.bind hf hfollow
  rwa [List.nil_append, zero_add] at h

theorem Accepts.mono (h : g.Accepts m read cost a follow) (himp : ∀ left, follow' left → follow left) :
    g.Accepts m read cost a follow' :=
  fun s left hrest hleft => h s left hrest (himp left hleft)

end Accepts

end Gauge

end Parsing
