/-
Module: FunctionBundler.Text.Quoted
Purpose: Texts in quotes for diagnostics, with escapes for what would not show.
Trusted boundary: none
Main exports:
  isShown, quoted
-/
import FunctionBundler.Bytes
import FunctionBundler.Text.Extending
import FunctionBundler.Text.Unassigned

namespace FunctionBundler.Text

/-!
A quoted text is on one line and shows every character as itself or as an escape.
Characters without a shape of their own (controls, blanks other than the space,
format characters, private and unassigned ones) are written by their number, and so
are those that would change the shape of the character before them.
-/

/-- Controls, blanks other than the space, format characters and private ones, and the code points
that are left for pairs, in ascending order. -/
def shapelessRanges : List (Nat × Nat) :=
  [(0x0, 0x1F), (0x7F, 0xA0), (0xAD, 0xAD), (0x600, 0x605), (0x61C, 0x61C), (0x6DD, 0x6DD),
   (0x70F, 0x70F), (0x890, 0x891), (0x8E2, 0x8E2), (0x1680, 0x1680), (0x180E, 0x180E),
   (0x2000, 0x200F), (0x2028, 0x202F), (0x205F, 0x2064), (0x2066, 0x206F), (0x3000, 0x3000),
   (0xD800, 0xF8FF), (0xFEFF, 0xFEFF), (0xFFF9, 0xFFFB), (0x110BD, 0x110BD), (0x110CD, 0x110CD),
   (0x13430, 0x1343F), (0x1BCA0, 0x1BCA3), (0x1D173, 0x1D17A), (0xE0001, 0xE0001),
   (0xE0020, 0xE007F), (0xF0000, 0xFFFFD), (0x100000, 0x10FFFD)]

/-- Whether a character lies in one of some ranges. -/
def isWithin (ranges : List (Nat × Nat)) (c : Char) : Bool :=
  ranges.any fun (first, last) => first ≤ c.toNat && c.toNat ≤ last

/-- Whether a character has a shape of its own. -/
def isShown (c : Char) : Bool :=
  !(isWithin shapelessRanges c || isWithin extendingRanges c || isWithin unassignedRanges c)

/-- A character inside quotes. -/
def quotedChar (c : Char) : List Char :=
  match c with
  | '"' => ['\\', '"']
  | '\\' => ['\\', '\\']
  | '\t' => ['\\', 't']
  | '\r' => ['\\', 'r']
  | '\n' => ['\\', 'n']
  | '\x00' => ['\\', '0']
  | _ => if isShown c then [c] else ['\\', 'u', '{'] ++ Nat.toDigits 16 c.toNat ++ ['}']

/-- A text in quotes. -/
def quoted (text : String) : String :=
  String.ofList ('"' :: text.toList.flatMap quotedChar ++ ['"'])

end FunctionBundler.Text
