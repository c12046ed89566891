import Mathlib.Tactic

/-!
# Identifiers, digests and 64-bit arithmetic

The values every table and operation shares. Times are seconds on the database clock;
`i64` values are integers, with the checked and saturating operations the code uses.
-/

namespace IdentityAuthority

/-- A UUID other than the nil one, which no column accepts. -/
structure Uuid where
  value : ℕ
  not_nil : value ≠ 0
deriving DecidableEq

/-- `Uuid::new_v4` over a drawn value; a version-4 UUID is never nil. -/
def Uuid.newV4 (draw : ℕ) : Uuid := ⟨draw + 1, draw.succ_ne_zero⟩

theorem Uuid.newV4_injective : Function.Injective Uuid.newV4 := by
  intro m n h
  simpa [Uuid.newV4] using h

/-- An account holder of the tenant. -/
structure PrincipalId where
  uuid : Uuid
deriving DecidableEq

/-- A session, stable over its credential refreshes. -/
structure SessionId where
  uuid : Uuid
deriving DecidableEq

/-- A configured upstream provider. -/
structure ProviderId where
  uuid : Uuid
deriving DecidableEq

/-- A secret the component hands out: a session secret, a state, a nonce, a handle. -/
structure Secret where
  value : ℕ
deriving DecidableEq

/-- The SHA-256 digest of a value. -/
structure Digest where
  value : ℕ
deriving DecidableEq

/-- SHA-256 over the values the component digests, assumed free of collisions. -/
structure Sha256 where
  secret : Secret → Digest
  text : String → Digest
  secret_injective : Function.Injective secret
  text_injective : Function.Injective text

/-- The ASCII letters and digits by their codes. -/
theorem toNat_of_isAlphanum {c : Char} (h : c.isAlphanum = true) :
    65 ≤ c.toNat ∧ c.toNat ≤ 90 ∨ 97 ≤ c.toNat ∧ c.toNat ≤ 122 ∨ 48 ≤ c.toNat ∧ c.toNat ≤ 57 := by
  have hspelled : ((decide ('A'.val ≤ c.val ∧ c.val ≤ 'Z'.val) ||
      (decide ('a'.val ≤ c.val) && decide (c.val ≤ 'z'.val))) ||
      (decide ('0'.val ≤ c.val) && decide (c.val ≤ '9'.val))) = true := h
  simp only [Bool.or_eq_true, Bool.and_eq_true, decide_eq_true_eq, UInt32.le_iff_toNat_le]
    at hspelled
  have hval : c.toNat = c.val.toNat := rfl
  have hupper : 'A'.val.toNat = 65 ∧ 'Z'.val.toNat = 90 := ⟨rfl, rfl⟩
  have hlower : 'a'.val.toNat = 97 ∧ 'z'.val.toNat = 122 := ⟨rfl, rfl⟩
  have hdigit : '0'.val.toNat = 48 ∧ '9'.val.toNat = 57 := ⟨rfl, rfl⟩
  omega

/-- `char::is_control`: the C0 and C1 control characters. -/
def isControl (c : Char) : Bool := c.toNat < 32 || (127 ≤ c.toNat && c.toNat < 160)

/-- The text has no control character. -/
def printable (s : String) : Bool := s.toList.all fun c => !isControl c

/-- `char::is_whitespace`: the Unicode white space. -/
def isWhitespace (c : Char) : Bool :=
  (9 ≤ c.toNat && c.toNat ≤ 13) || (0x2000 ≤ c.toNat && c.toNat ≤ 0x200a) ||
    [0x20, 0x85, 0xa0, 0x1680, 0x2028, 0x2029, 0x202f, 0x205f, 0x3000].contains c.toNat

/-- `s.trim() == s`: neither end of the text is white space. -/
def trimmed (s : String) : Bool :=
  s.toList.head?.all (!isWhitespace ·) && s.toList.getLast?.all (!isWhitespace ·)

/-- A text of bounded size that is trimmed and has no control character. -/
def boundedText (s : String) (limit : ℕ) : Bool :=
  decide (0 < s.utf8ByteSize ∧ s.utf8ByteSize ≤ limit) && trimmed s && printable s

/-- The largest `i64`. -/
def i64Max : ℤ := 2 ^ 63 - 1

/-- The smallest `i64`. -/
def i64Min : ℤ := -(2 ^ 63)

/-- Whether an integer is an `i64`. -/
def isI64 (n : ℤ) : Bool := decide (i64Min ≤ n ∧ n ≤ i64Max)

/-- `i64::checked_add`. -/
def checkedAdd (m n : ℤ) : Option ℤ := if isI64 (m + n) then some (m + n) else none

/-- `i64::checked_sub`. -/
def checkedSub (m n : ℤ) : Option ℤ := if isI64 (m - n) then some (m - n) else none

/-- `i64::saturating_add`. -/
def saturatingAdd (m n : ℤ) : ℤ := max i64Min (min i64Max (m + n))

/-- `i64::saturating_sub`. -/
def saturatingSub (m n : ℤ) : ℤ := max i64Min (min i64Max (m - n))

@[simp] theorem checkedAdd_eq_some {m n k : ℤ} :
    checkedAdd m n = some k ↔ isI64 (m + n) = true ∧ k = m + n := by
  unfold checkedAdd
  split <;> simp [*, eq_comm]

@[simp] theorem checkedSub_eq_some {m n k : ℤ} :
    checkedSub m n = some k ↔ isI64 (m - n) = true ∧ k = m - n := by
  unfold checkedSub
  split <;> simp [*, eq_comm]

/-- Whole seconds of a clock reading in microseconds
(`floor(extract(epoch FROM clock_timestamp()))`). -/
def seconds (micros : ℤ) : ℤ := micros / 1000000

theorem seconds_mono {s t : ℤ} (h : s ≤ t) : seconds s ≤ seconds t := by
  unfold seconds
  omega

end IdentityAuthority
