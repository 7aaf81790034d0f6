/-
Module: FunctionBundler.Bits
Purpose: Sequences of bits, the numbers they write, and the bytes they are packed into.
Trusted boundary: none
Main exports:
  Bits, Bits.ofNat, Bits.toNat, Bits.word, Bits.ofBytes, Bits.toBytes
-/
import FunctionBundler.Bytes

namespace FunctionBundler

/-!
A byte is packed from its lowest bit up.  Numbers are written lowest bit first,
and the words of a code highest bit first.
-/

/-- A sequence of bits. -/
abbrev Bits := List Bool

namespace Bits

/-- The lowest bits of a number, the lowest first. -/
def ofNat : (width number : Nat) → Bits
  | 0, _ => []
  | width + 1, number => (number % 2 = 1) :: ofNat width (number / 2)

/-- The number that bits write, the lowest first. -/
def toNat (bits : Bits) : Nat :=
  bits.foldr (fun bit number => bit.toNat + 2 * number) 0

/-- The lowest bits of a number, the highest first. -/
def word (width number : Nat) : Bits :=
  (ofNat width number).reverse

/-- A number is written in as many bits as are asked for. -/
theorem length_ofNat (width number : Nat) : (ofNat width number).length = width := by
  induction width generalizing number with
  | zero => rfl
  | succ width ih => simp [ofNat, ih]

/-- Bits give back the number that they were written for, as far as it fits into them. -/
theorem toNat_ofNat (width number : Nat) :
    toNat (ofNat width number) = number % Nat.pow 2 width := by
  induction width generalizing number with
  | zero => simp [ofNat, toNat, Nat.mod_one]
  | succ width ih =>
    have step : toNat (ofNat (width + 1) number) =
        (decide (number % 2 = 1)).toNat + 2 * toNat (ofNat width (number / 2)) := rfl
    have twice : Nat.pow 2 (width + 1) = 2 * Nat.pow 2 width := Nat.mul_comm _ _
    rw [step, ih, twice, Nat.mod_mul]
    rcases Nat.mod_two_eq_zero_or_one number with even | odd
    · simp [even]
    · simp [odd]

/-- The bits of bytes. -/
def ofBytes (bytes : Bytes) : Bits :=
  bytes.flatMap fun byte => ofNat 8 byte.toNat

/-- The byte that up to eight bits are packed into. -/
def packed (bits : Bits) : UInt8 :=
  UInt8.ofNat (toNat bits)

/-- The bytes that bits are packed into, put after `done`, which has its last byte first. -/
def packOnto (done : Bytes) : Bits → Bytes
  | [] => done.reverse
  | a :: b :: c :: d :: e :: f :: g :: h :: rest =>
    packOnto (packed [a, b, c, d, e, f, g, h] :: done) rest
  | last => (packed last :: done).reverse

/-- The bytes that bits are packed into; unused bits of the last byte are zero. -/
def toBytes (bits : Bits) : Bytes :=
  packOnto [] bits

end Bits

end FunctionBundler
