/-
Module: FunctionBundler.Proofs.Digest.Hex
Purpose: The hexadecimal text of a byte string and of a digest.
Trusted boundary: none
Main exports:
  Bytes.mem_hexDigits_of_mem_hex, Bytes.length_hex, Bytes.hex_injective, Digest.length_hex,
  Digest.hex_injective
-/
import FunctionBundler.Digest.Sha256

namespace FunctionBundler

/-!
Two digits stand for each byte, so texts of byte strings of one length have one length.
Names and keys that end in such a text are therefore cut in one way.
-/

namespace Bytes

variable {bytes other : Bytes}

private theorem hexDigit_mem {digit : Nat} (small : digit < 16) :
    hexDigit digit ∈ "0123456789abcdef".toList := by
  have all : ∀ digit ∈ List.range 16, hexDigit digit ∈ "0123456789abcdef".toList := by
    decide +kernel
  exact all digit (List.mem_range.mpr small)

/-- Hexadecimal forms are written in lowercase digits. -/
theorem mem_hexDigits_of_mem_hex {digit : Char} (member : digit ∈ (hex bytes).toList) :
    digit ∈ "0123456789abcdef".toList := by
  rw [hex, String.toList_ofList, List.mem_flatMap] at member
  obtain ⟨byte, -, inPair⟩ := member
  have size : byte.toNat < 256 := byte.toNat_lt_size
  simp only [hexPair, List.mem_cons, List.not_mem_nil, or_false] at inPair
  rcases inPair with rfl | rfl
  · exact hexDigit_mem (by omega)
  · exact hexDigit_mem (by omega)

/-- Two digits are written for each byte. -/
theorem length_hex (bytes : Bytes) : (hex bytes).toList.length = 2 * bytes.length := by
  rw [hex, String.toList_ofList]
  induction bytes with
  | nil => rfl
  | cons byte rest ih =>
      rw [List.flatMap_cons, List.length_append, ih, List.length_cons]
      simp only [hexPair, List.length_cons, List.length_nil]
      omega

/-- Bytes are told apart by their hexadecimal form. -/
theorem hex_injective (same : hex bytes = hex other) : bytes = other := by
  apply Option.some.inj
  rw [← ofHex?_hex bytes, same, ofHex?_hex]

end Bytes

/-- The hexadecimal form of a digest has 64 digits. -/
theorem Digest.length_hex (digest : Digest) : digest.hex.toList.length = 64 := by
  rw [hex, Bytes.length_hex, digest.length_bytes]

/-- Digests are told apart by their hexadecimal form. -/
theorem Digest.hex_injective {digest other : Digest} (same : digest.hex = other.hex) :
    digest = other := by
  obtain ⟨bytes, length⟩ := digest
  obtain ⟨others, otherLength⟩ := other
  cases Bytes.hex_injective same
  rfl

end FunctionBundler
