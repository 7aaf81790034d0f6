/-
Module: FunctionBundler.Text.Repair
Purpose: Reading bytes that may not be UTF-8, with a replacement character for what is not.
Trusted boundary: none
Main exports:
  Utf8Pending, feedByte, repairText
-/
import FunctionBundler.Bytes

namespace FunctionBundler.Text

/-!
What a program prints is shown as text even when it is not valid UTF-8.  Each
maximal part that could still have become a character, but did not, is replaced
by one U+FFFD; a byte that cannot start a character is such a part by itself.
The reader is a machine over single bytes: between two bytes it holds the
character begun so far together with the range its next byte has to lie in.
-/

/-- A character that has begun: the bits read, how many bytes are missing, and the range of the
next one. -/
structure Utf8Pending where
  bits : Nat
  missing : Nat
  low : UInt8
  high : UInt8
deriving DecidableEq, Inhabited

/-- The replacement character. -/
def replacement : Char := Char.ofNat 0xFFFD

/-- Start a character at a byte. -/
def beginByte (byte : UInt8) : List Char × Option Utf8Pending :=
  if byte < 0x80 then ([Char.ofNat byte.toNat], none)
  else if byte < 0xC2 then ([replacement], none)
  else if byte < 0xE0 then ([], some ⟨byte.toNat % 32, 1, 0x80, 0xBF⟩)
  else if byte < 0xF0 then
    let low := if byte = 0xE0 then 0xA0 else 0x80
    let high := if byte = 0xED then 0x9F else 0xBF
    ([], some ⟨byte.toNat % 16, 2, low, high⟩)
  else if byte < 0xF5 then
    let low := if byte = 0xF0 then 0x90 else 0x80
    let high := if byte = 0xF4 then 0x8F else 0xBF
    ([], some ⟨byte.toNat % 8, 3, low, high⟩)
  else ([replacement], none)

/-- The characters that a byte completes or gives up, and what is pending after it. -/
def feedByte (pending : Option Utf8Pending) (byte : UInt8) : List Char × Option Utf8Pending :=
  match pending with
  | none => beginByte byte
  | some begun =>
    if begun.low ≤ byte ∧ byte ≤ begun.high then
      let bits := begun.bits * 64 + byte.toNat % 64
      if begun.missing ≤ 1 then ([Char.ofNat bits], none)
      else ([], some ⟨bits, begun.missing - 1, 0x80, 0xBF⟩)
    else
      let (chars, next) := beginByte byte
      (replacement :: chars, next)

/-- The text of the remaining bytes after a pending character. -/
def repairFrom : Option Utf8Pending → Bytes → List Char
  | none, [] => []
  | some _, [] => [replacement]
  | pending, byte :: rest =>
    let (chars, next) := feedByte pending byte
    chars ++ repairFrom next rest

/-- The text of a byte string, each maximal invalid part replaced by U+FFFD. -/
def repairText (bytes : Bytes) : String :=
  String.ofList (repairFrom none bytes)

end FunctionBundler.Text
