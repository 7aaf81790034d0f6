/-
Module: FunctionBundler.Proofs.Text.Order
Purpose: Texts are ordered by their characters as they are by their bytes.
Trusted boundary: none
Main exports:
  Text.Form, Text.Form.append_lt, Text.flatMap_utf8EncodeChar_lt_iff, Bytes.ofText_lt_iff
-/
import FunctionBundler.Proofs.Codec.Fields
import Mathlib.Data.String.Basic

namespace FunctionBundler

/-!
The UTF-8 form of a character begins with a byte that grows with the length of the form,
and among the forms of one length the bytes are the digits of the character.  So of two
different characters the lesser one has the lesser form, whatever follows the two, and
comparing texts byte by byte compares them character by character.
-/

namespace Bytes

variable {rest others : Bytes}

/-- Of two byte strings of one length the one that writes the lesser number is less. -/
theorem append_lt_append_of_number {first second : Bytes} (lengths : first.length = second.length)
    (less : natOfBigEndian first < natOfBigEndian second) : first ++ rest < second ++ others := by
  induction first generalizing second with
  | nil =>
      rw [List.length_eq_zero_iff.mp lengths.symm] at less
      exact absurd less (Nat.lt_irrefl _)
  | cons byte first ih =>
      obtain ⟨byte', second, rfl⟩ := List.exists_cons_of_length_eq_add_one lengths.symm
      have same : first.length = second.length := Nat.succ.inj lengths
      have small := natOfBigEndian_lt first
      have otherSmall := natOfBigEndian_lt second
      rw [natOfBigEndian_cons, natOfBigEndian_cons, same] at less
      rw [same] at small
      rw [List.cons_append, List.cons_append, List.cons_lt_cons_iff, UInt8.lt_iff_toNat_lt]
      rcases Nat.lt_trichotomy byte.toNat byte'.toNat with before | equal | behind
      · exact Or.inl before
      · rw [equal] at less
        exact Or.inr ⟨UInt8.toNat_inj.mp equal, ih same (Nat.lt_of_add_lt_add_left less)⟩
      · have more := Nat.mul_le_mul_right (256 ^ second.length) behind
        rw [Nat.succ_mul] at more
        omega

end Bytes

namespace Text

/-- The UTF-8 form of a code: one to four bytes, the first of which tells how many, and which hold
the code's digits to the base 64. -/
inductive Form : Nat → Bytes → Prop where
  | one {code : Nat} (small : code ≤ 127) : Form code [.ofNat code]
  | two {code : Nat} (large : 127 < code) (small : code ≤ 2047) :
      Form code [.ofNat (code / 64 + 192), .ofNat (code % 64 + 128)]
  | three {code : Nat} (large : 2047 < code) (small : code ≤ 65535) :
      Form code [.ofNat (code / 64 / 64 + 224), .ofNat (code / 64 % 64 + 128),
        .ofNat (code % 64 + 128)]
  | four {code : Nat} (large : 65535 < code) (small : code < 0x110000) :
      Form code [.ofNat (code / 64 / 64 / 64 + 240), .ofNat (code / 64 / 64 % 64 + 128),
        .ofNat (code / 64 % 64 + 128), .ofNat (code % 64 + 128)]

private theorem form_utf8EncodeChar (c : Char) : Form c.val.toNat (String.utf8EncodeChar c) := by
  have bound : c.val.toNat < 0x110000 := by
    have valid := c.valid
    rw [UInt32.isValidChar, Nat.isValidChar] at valid
    omega
  rw [String.utf8EncodeChar]
  generalize c.val.toNat = code at *
  split
  case isTrue small => exact .one small
  case isFalse large =>
      split
      case isTrue small =>
          rw [Nat.mod_eq_of_lt (show code / 64 < 32 by omega)]
          exact .two (Nat.lt_of_not_le large) small
      case isFalse large =>
          split
          case isTrue small =>
              rw [Nat.mod_eq_of_lt (show code / 4096 < 16 by omega)]
              have form := Form.three (Nat.lt_of_not_le large) small
              rwa [Nat.div_div_eq_div_mul] at form
          case isFalse large =>
              rw [Nat.mod_eq_of_lt (show code / 262144 < 8 by omega)]
              have form := Form.four (Nat.lt_of_not_le large) bound
              rwa [Nat.div_div_eq_div_mul code 64 64, Nat.div_div_eq_div_mul] at form

private theorem toNat_continuing (code : Nat) :
    (UInt8.ofNat (code % 64 + 128)).toNat = code % 64 + 128 :=
  UInt8.toNat_ofNat_of_lt' (by rw [UInt8.size]; omega)

variable {low high : Nat} {first second rest others : Bytes}

/-- The form of a lesser code is less, whatever follows: by its first byte if it is shorter, and
else by the number that its bytes write. -/
theorem Form.append_lt (form : Form low first) (other : Form high second) (less : low < high) :
    first ++ rest < second ++ others := by
  have leading {byte byte' : UInt8} {bytes bytes' : Bytes} (before : byte.toNat < byte'.toNat) :
      byte :: bytes < byte' :: bytes' := by
    rw [List.cons_lt_cons_iff, UInt8.lt_iff_toNat_lt]
    exact Or.inl before
  have tens : low / 64 ≤ high / 64 := Nat.div_le_div_right (Nat.le_of_lt less)
  have hundreds : low / 64 / 64 ≤ high / 64 / 64 := Nat.div_le_div_right tens
  have thousands : low / 64 / 64 / 64 ≤ high / 64 / 64 / 64 := Nat.div_le_div_right hundreds
  cases form with
  | one small =>
      cases other with
      | one => exact Bytes.append_lt_append_of_number rfl (by simp [Bytes.natOfBigEndian]; omega)
      | two | three | four => exact leading (by simp; omega)
  | two large small =>
      cases other with
      | one => omega
      | two => exact Bytes.append_lt_append_of_number rfl (by simp [Bytes.natOfBigEndian]; omega)
      | three | four => exact leading (by simp; omega)
  | three large small =>
      cases other with
      | one | two => omega
      | three => exact Bytes.append_lt_append_of_number rfl (by simp [Bytes.natOfBigEndian]; omega)
      | four => exact leading (by simp; omega)
  | four large small =>
      cases other with
      | one | two | three => omega
      | four =>
          have lead : low / 64 / 64 / 64 + 240 < 256 := by omega
          have otherLead : high / 64 / 64 / 64 + 240 < 256 := by omega
          refine Bytes.append_lt_append_of_number rfl ?_
          simp only [Bytes.natOfBigEndian, List.foldl_cons, List.foldl_nil, toNat_continuing,
            UInt8.toNat_ofNat_of_lt' lead, UInt8.toNat_ofNat_of_lt' otherLead]
          omega

private theorem utf8EncodeChar_ne_nil (c : Char) : String.utf8EncodeChar c ≠ [] := by
  have form := form_utf8EncodeChar c
  generalize String.utf8EncodeChar c = bytes at form
  cases form <;> exact List.cons_ne_nil _ _

private theorem flatMap_utf8EncodeChar_lt {chars later : List Char} (before : chars < later) :
    chars.flatMap String.utf8EncodeChar < later.flatMap String.utf8EncodeChar := by
  induction chars generalizing later with
  | nil =>
      cases later with
      | nil => exact absurd before (List.not_lt_nil [])
      | cons c later =>
          obtain ⟨byte, bytes, form⟩ := List.exists_cons_of_ne_nil (utf8EncodeChar_ne_nil c)
          rw [List.flatMap_cons, form]
          exact List.nil_lt_cons _ _
  | cons c chars ih =>
      cases later with
      | nil => exact absurd before (List.not_lt_nil _)
      | cons d later =>
          rw [List.flatMap_cons, List.flatMap_cons]
          rcases List.cons_lt_cons_iff.mp before with less | ⟨rfl, behind⟩
          · exact (form_utf8EncodeChar c).append_lt (form_utf8EncodeChar d) less
          · exact List.append_left_lt (ih behind)

/-- Comparing the forms of two rows of characters compares the rows. -/
theorem flatMap_utf8EncodeChar_lt_iff {chars later : List Char} :
    chars.flatMap String.utf8EncodeChar < later.flatMap String.utf8EncodeChar ↔ chars < later := by
  refine ⟨fun before => ?_, flatMap_utf8EncodeChar_lt⟩
  rcases lt_trichotomy chars later with less | rfl | greater
  · exact less
  · exact absurd before (List.lt_irrefl _)
  · exact absurd before (List.lt_asymm (flatMap_utf8EncodeChar_lt greater))

end Text

namespace Bytes

private theorem ofText_ofList (chars : List Char) :
    ofText (String.ofList chars) = chars.flatMap String.utf8EncodeChar := by
  rw [ofText, String.toByteArray_ofList]
  induction chars with
  | nil => rfl
  | cons c chars ih =>
      rw [List.utf8Encode_cons, List.utf8Encode_singleton, List.flatMap_cons, ← ih]
      simp

/-- The order of texts by their characters is that of their bytes. -/
theorem ofText_lt_iff {first second : String} : ofText first < ofText second ↔ first < second := by
  rw [← String.ofList_toList (s := first), ← String.ofList_toList (s := second), ofText_ofList,
    ofText_ofList, Text.flatMap_utf8EncodeChar_lt_iff, String.lt_iff_toList_lt]
  simp

end Bytes

end FunctionBundler
