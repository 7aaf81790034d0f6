/-
Module: FunctionBundler.JsonText.Number
Purpose: Reading JSON numbers, and which of them are too large.
Trusted boundary: the JSON library is assumed to take the numbers that are read here, and no larger
Main exports:
  JsonText.Fault, JsonText.Reader, JsonText.Number, JsonText.readNumber, JsonText.Number.inRange
-/
import FunctionBundler.Bytes
import FunctionBundler.Double

namespace FunctionBundler.JsonText

/-!
A manifest holds no numbers, but a number can stand where something else is
expected.  It is then of the wrong shape, unless it is malformed or too large.  Its
size is judged by its leading digits, as many as 64 bits hold, and a power of ten,
both of which are rounded to doubles before they are multiplied; near the largest
double that differs from the number as it is written.
-/

/-- Why a text is no document of the expected shape. -/
inductive Fault where
  | text
  | shape
  | ended
deriving Repr, DecidableEq

/-- A reader takes the remaining characters and returns what it read and what remains. -/
abbrev Reader (α : Type) := List Char → Except Fault (α × List Char)

/-- A number without its sign: its leading digits, read as one number, times a power of ten. -/
structure Number where
  leading : Nat
  exponent : Int
deriving Repr, DecidableEq

/-- The digits at the front of an input, and what follows them. -/
def spanDigits (input : List Char) : List Char × List Char :=
  (input.takeWhile Char.isDigit, input.dropWhile Char.isDigit)

/-- The number that a list of digits writes. -/
def natOfDigits (digits : List Char) : Nat :=
  digits.foldl (fun number c => number * 10 + (c.toNat - 48)) 0

/-- Append digits to a number as long as it stays below 2⁶⁴: the number, and the digits that are
left. -/
def appendDigits (number : Nat) : List Char → Nat × List Char
  | [] => (number, [])
  | c :: rest =>
    let longer := number * 10 + (c.toNat - 48)
    if longer < Nat.pow 2 64 then appendDigits longer rest else (number, c :: rest)

/-- The number with digits before and after its point.  A digit before the point that is left out
counts as a power of ten, and a digit after it does not count. -/
def Number.ofDigits (whole fraction : List Char) (exponent : Int) : Number :=
  let (start, dropped) := appendDigits 0 whole
  let (leading, ignored) := appendDigits start fraction
  ⟨leading, exponent + dropped.length - (fraction.length - ignored.length)⟩

/-- One or more digits; `atEnd` is the fault where the input ends instead. -/
def readDigits (atEnd : Fault) (input : List Char) : Except Fault (List Char × List Char) :=
  match spanDigits input with
  | ([], []) => .error atEnd
  | ([], _) => .error .text
  | found => .ok found

/-- The integer part: a single zero, or digits that do not begin with zero. -/
def readWhole (atEnd : Fault) (input : List Char) : Except Fault (List Char × List Char) :=
  match input with
  | '0' :: rest =>
    match rest with
    | c :: _ => if c.isDigit then .error .text else .ok (['0'], rest)
    | [] => .ok (['0'], rest)
  | _ => readDigits atEnd input

/-- The digits after a decimal point, if there is one. -/
def readFraction (atEnd : Fault) (input : List Char) : Except Fault (List Char × List Char) :=
  match input with
  | '.' :: rest => readDigits atEnd rest
  | _ => .ok ([], input)

/-- The exponent, if there is one. -/
def readExponent (atEnd : Fault) (input : List Char) : Except Fault (Int × List Char) :=
  match input with
  | c :: rest =>
    if c = 'e' ∨ c = 'E' then
      match rest with
      | '+' :: rest => (readDigits atEnd rest).map fun (ds, rest) => ((natOfDigits ds : Int), rest)
      | '-' :: rest => (readDigits atEnd rest).map fun (ds, rest) => (-(natOfDigits ds : Int), rest)
      | _ => (readDigits atEnd rest).map fun (ds, rest) => ((natOfDigits ds : Int), rest)
    else .ok (0, input)
  | [] => .ok (0, input)

/-- A number after its sign. -/
def readNumber (atEnd : Fault) (input : List Char) : Except Fault (Number × List Char) := do
  let (whole, rest) ← readWhole atEnd input
  let (fraction, rest) ← readFraction atEnd rest
  let (exponent, rest) ← readExponent atEnd rest
  return (.ofDigits whole fraction exponent, rest)

/-- Refuse a number that is too large. -/
def Number.inRange (number : Number) (rest : List Char) : Except Fault (Unit × List Char) :=
  if Double.productIsFinite number.leading number.exponent then .ok ((), rest) else .error .text

end FunctionBundler.JsonText
