import IdentityAuthority.Parsing.Reading
import Mathlib.Tactic

/-!
# Bytes of texts and numbers

What is put through a cipher or a MAC is a list of bytes. A text has its UTF-8 bytes and a
number its big-endian ones; both are determined by them.
-/

namespace Encoding

open Parsing

/-- `u32::to_be_bytes`. -/
def bigEndian (n : ℕ) : List UInt8 :=
  [.ofNat (n / 16777216 % 256), .ofNat (n / 65536 % 256), .ofNat (n / 256 % 256), .ofNat (n % 256)]

/-- The UTF-8 bytes of a text. -/
def textBytes (s : String) : List UInt8 := s.toByteArray.data.toList

theorem length_textBytes (s : String) : (textBytes s).length = s.utf8ByteSize := rfl

theorem textBytes_injective : Function.Injective textBytes := by
  intro s t h
  apply String.toByteArray_inj.mp
  apply ByteArray.ext
  apply Array.toList_inj.mp
  exact h

/-- The bytes of the characters of a text. -/
theorem length_textBytes_ofList (text : List Char) :
    (textBytes (String.ofList text)).length = byteLength text := by
  rw [length_textBytes, byteLength_ofList]

theorem bigEndian_inj {m n : ℕ} (hm : m < 2 ^ 32) (hn : n < 2 ^ 32)
    (h : bigEndian m = bigEndian n) : m = n := by
  unfold bigEndian at h
  simp only [List.cons.injEq, and_true] at h
  obtain ⟨h3, h2, h1, h0⟩ := h
  have h3' := congrArg UInt8.toNat h3
  have h2' := congrArg UInt8.toNat h2
  have h1' := congrArg UInt8.toNat h1
  have h0' := congrArg UInt8.toNat h0
  simp only [UInt8.toNat_ofNat'] at h3' h2' h1' h0'
  omega

end Encoding
