import Mathlib.Tactic
import IdentityAuthority.Parsing.Reading

/-!
# Unpadded base64 in the URL-safe alphabet

Three bytes are four characters; one or two bytes at the end are two or three, whose last
bits must be zero. Every list of bytes has one text, and the text is read back.
-/

namespace Base64Url

open Parsing

/-- The character of six bits. -/
def digitChar (n : ℕ) : Char :=
  if n < 26 then Char.ofNat (n + 65)
  else if n < 52 then Char.ofNat (n + 71)
  else if n < 62 then Char.ofNat (n - 4)
  else if n = 62 then '-'
  else '_'

/-- The six bits of a character of the alphabet. -/
def digitValue (c : Char) : Option ℕ :=
  if 65 ≤ c.toNat ∧ c.toNat ≤ 90 then some (c.toNat - 65)
  else if 97 ≤ c.toNat ∧ c.toNat ≤ 122 then some (c.toNat - 71)
  else if 48 ≤ c.toNat ∧ c.toNat ≤ 57 then some (c.toNat + 4)
  else if c = '-' then some 62
  else if c = '_' then some 63
  else none

/-- The text of some bytes. -/
def encode : List UInt8 → List Char
  | [] => []
  | [a] => [digitChar (a.toNat / 4), digitChar (a.toNat % 4 * 16)]
  | [a, b] =>
    [digitChar (a.toNat / 4), digitChar (a.toNat % 4 * 16 + b.toNat / 16),
      digitChar (b.toNat % 16 * 4)]
  | a :: b :: c :: rest =>
    digitChar (a.toNat / 4) :: digitChar (a.toNat % 4 * 16 + b.toNat / 16) ::
      digitChar (b.toNat % 16 * 4 + c.toNat / 64) :: digitChar (c.toNat % 64) :: encode rest

/-- The bytes of a text, if it has only characters of the alphabet and no bits left over. -/
def decode : List Char → Option (List UInt8)
  | [] => some []
  | [_] => none
  | [w, x] => do
    let w ← digitValue w
    let x ← digitValue x
    if x % 16 = 0 then some [.ofNat (w * 4 + x / 16)] else none
  | [w, x, y] => do
    let w ← digitValue w
    let x ← digitValue x
    let y ← digitValue y
    if y % 4 = 0 then some [.ofNat (w * 4 + x / 16), .ofNat (x % 16 * 16 + y / 4)] else none
  | w :: x :: y :: z :: rest => do
    let w ← digitValue w
    let x ← digitValue x
    let y ← digitValue y
    let z ← digitValue z
    let bytes ← decode rest
    some (.ofNat (w * 4 + x / 16) :: .ofNat (x % 16 * 16 + y / 4) :: .ofNat (y % 4 * 64 + z) ::
      bytes)

theorem digitValue_digitChar {n : ℕ} (h : n < 64) : digitValue (digitChar n) = some n := by
  have hall : ∀ n < 64, digitValue (digitChar n) = some n := by decide
  exact hall n h

/-- Characters of the alphabet take one byte each. -/
theorem utf8Size_digitChar (n : ℕ) : (digitChar n).utf8Size = 1 := by
  have hsmall : ∀ n < 64, (digitChar n).utf8Size = 1 := by decide
  by_cases h : n < 64
  · exact hsmall n h
  · unfold digitChar
    rw [if_neg (by omega), if_neg (by omega), if_neg (by omega), if_neg (by omega)]
    decide

/-- A byte is put together from its number. -/
theorem ofNat_of_toNat {a : UInt8} {n : ℕ} (h : n = a.toNat) : UInt8.ofNat n = a := by
  rw [h, UInt8.ofNat_toNat]

/-- The text of bytes is read back. -/
theorem decode_encode (bytes : List UInt8) : decode (encode bytes) = some bytes := by
  fun_induction encode bytes with
  | case1 => rfl
  | case2 a =>
    have ha := a.toNat_lt
    simp only [decode, digitValue_digitChar (by omega : a.toNat / 4 < 64),
      digitValue_digitChar (by omega : a.toNat % 4 * 16 < 64), Option.bind_eq_bind,
      Option.bind_some]
    have hbyte : UInt8.ofNat (a.toNat / 4 * 4 + a.toNat % 4 * 16 / 16) = a :=
      ofNat_of_toNat (by omega)
    rw [if_pos (by omega), hbyte]
  | case3 a b =>
    have ha := a.toNat_lt
    have hb := b.toNat_lt
    simp only [decode, digitValue_digitChar (by omega : a.toNat / 4 < 64),
      digitValue_digitChar (by omega : a.toNat % 4 * 16 + b.toNat / 16 < 64),
      digitValue_digitChar (by omega : b.toNat % 16 * 4 < 64), Option.bind_eq_bind,
      Option.bind_some]
    have hfirst : UInt8.ofNat (a.toNat / 4 * 4 + (a.toNat % 4 * 16 + b.toNat / 16) / 16) = a :=
      ofNat_of_toNat (by omega)
    have hsecond : UInt8.ofNat ((a.toNat % 4 * 16 + b.toNat / 16) % 16 * 16 +
        b.toNat % 16 * 4 / 4) = b := ofNat_of_toNat (by omega)
    rw [if_pos (by omega), hfirst, hsecond]
  | case4 a b c rest ih =>
    have ha := a.toNat_lt
    have hb := b.toNat_lt
    have hc := c.toNat_lt
    simp only [decode, digitValue_digitChar (by omega : a.toNat / 4 < 64),
      digitValue_digitChar (by omega : a.toNat % 4 * 16 + b.toNat / 16 < 64),
      digitValue_digitChar (by omega : b.toNat % 16 * 4 + c.toNat / 64 < 64),
      digitValue_digitChar (by omega : c.toNat % 64 < 64), ih, Option.bind_eq_bind,
      Option.bind_some]
    have hfirst : UInt8.ofNat (a.toNat / 4 * 4 + (a.toNat % 4 * 16 + b.toNat / 16) / 16) = a :=
      ofNat_of_toNat (by omega)
    have hsecond : UInt8.ofNat ((a.toNat % 4 * 16 + b.toNat / 16) % 16 * 16 +
        (b.toNat % 16 * 4 + c.toNat / 64) / 4) = b := ofNat_of_toNat (by omega)
    have hthird : UInt8.ofNat ((b.toNat % 16 * 4 + c.toNat / 64) % 4 * 64 + c.toNat % 64) = c :=
      ofNat_of_toNat (by omega)
    rw [hfirst, hsecond, hthird]

theorem encode_injective : Function.Injective encode := by
  intro bytes bytes' h
  have hdecoded := decode_encode bytes
  rw [h, decode_encode] at hdecoded
  exact (Option.some.inj hdecoded).symm

/-- Every three bytes take four characters. -/
theorem length_encode (bytes : List UInt8) :
    (encode bytes).length = (4 * bytes.length + 2) / 3 := by
  fun_induction encode bytes with
  | case1 => simp
  | case2 a => simp
  | case3 a b => simp
  | case4 a b c rest ih =>
    simp only [List.length_cons, ih]
    omega

/-- Every character of a text takes one byte. -/
theorem utf8Size_of_mem_encode {bytes : List UInt8} {c : Char} (h : c ∈ encode bytes) :
    c.utf8Size = 1 := by
  fun_induction encode bytes with
  | case1 => cases h
  | case2 a =>
    simp only [List.mem_cons, List.not_mem_nil, or_false] at h
    rcases h with rfl | rfl <;> exact utf8Size_digitChar _
  | case3 a b =>
    simp only [List.mem_cons, List.not_mem_nil, or_false] at h
    rcases h with rfl | rfl | rfl <;> exact utf8Size_digitChar _
  | case4 a b c rest ih =>
    simp only [List.mem_cons] at h
    rcases h with rfl | rfl | rfl | rfl | h
    · exact utf8Size_digitChar _
    · exact utf8Size_digitChar _
    · exact utf8Size_digitChar _
    · exact utf8Size_digitChar _
    · exact ih h

/-- The text as a string. -/
def text (bytes : List UInt8) : String := String.ofList (encode bytes)

@[simp] theorem toList_text (bytes : List UInt8) : (text bytes).toList = encode bytes := by
  rw [text, String.toList_ofList]

/-- Every three bytes take four bytes of text. -/
theorem utf8ByteSize_text (bytes : List UInt8) :
    (text bytes).utf8ByteSize = (4 * bytes.length + 2) / 3 := by
  have hones : ∀ l : List Char, (∀ c ∈ l, c.utf8Size = 1) → byteLength l = l.length := by
    intro l hl
    induction l with
    | nil => rfl
    | cons c l ih =>
      rw [byteLength_cons, hl c (by simp), ih fun d hd => hl d (List.mem_cons_of_mem c hd),
        List.length_cons]
      omega
  rw [text, byteLength_ofList, hones _ fun _ hc => utf8Size_of_mem_encode hc, length_encode]

theorem text_injective : Function.Injective text := by
  intro bytes bytes' h
  have hlist := congrArg String.toList h
  rw [toList_text, toList_text] at hlist
  exact encode_injective hlist

example : text [104, 105, 33] = "aGkh" := by decide

end Base64Url
