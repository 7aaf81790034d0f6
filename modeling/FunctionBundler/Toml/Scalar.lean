/-
Module: FunctionBundler.Toml.Scalar
Purpose: The strings, numbers and dates of a TOML document.
Trusted boundary: the library that reads profile files is assumed to take these strings, numbers and
  dates
Main exports:
  Toml.Reader, Toml.readQuoted, Toml.skipNumber, Toml.skipDateTime
-/
import FunctionBundler.Bytes
import FunctionBundler.Double

namespace FunctionBundler.Toml

/-!
Only texts have a value that settings use.  Numbers and dates are read for their
form and their range, so that a document holding a malformed one is refused
wherever it stands.
-/

/-- A reader takes the remaining characters and returns what it read and what remains. -/
abbrev Reader (α : Type) := List Char → Option (α × List Char)

/-- White space inside a line. -/
def isSpace (c : Char) : Bool :=
  c = ' ' || c = '\t'

/-- The input after white space inside a line. -/
def skipSpaces (input : List Char) : List Char :=
  input.dropWhile isSpace

/-- Characters that comments and one-line texts may hold. -/
def isPrintable (c : Char) : Bool :=
  c = '\t' || (0x20 ≤ c.toNat && c.toNat ≠ 0x7F)

/-- A line break. -/
def newline? : List Char → Option (List Char)
  | '\n' :: rest => some rest
  | '\r' :: '\n' :: rest => some rest
  | _ => none

/-- The number of `count` hexadecimal digits after a number already read. -/
def readHex : (count : Nat) → (number : Nat) → Reader Nat
  | 0, number, input => some (number, input)
  | count + 1, number, c :: rest => do readHex count (number * 16 + (← Bytes.hexValue? c)) rest
  | _ + 1, _, [] => none

/-- The character of a code point, unless it is a surrogate or too large. -/
def scalar? (code : Nat) : Option Char :=
  if code.isValidChar then some (Char.ofNat code) else none

/-- The character of an escape, after its backslash. -/
def readEscape : Reader Char
  | 'b' :: rest => some ('\x08', rest)
  | 't' :: rest => some ('\t', rest)
  | 'n' :: rest => some ('\n', rest)
  | 'f' :: rest => some ('\x0c', rest)
  | 'r' :: rest => some ('\r', rest)
  | '"' :: rest => some ('"', rest)
  | '\\' :: rest => some ('\\', rest)
  | 'u' :: rest => do
    let (code, rest) ← readHex 4 0 rest
    return (← scalar? code, rest)
  | 'U' :: rest => do
    let (code, rest) ← readHex 8 0 rest
    return (← scalar? code, rest)
  | _ => none

/-- Put characters in front of a text that was read. -/
def prepend (chars : List Char) (result : Option (List Char × List Char)) :
    Option (List Char × List Char) :=
  result.map fun (text, rest) => (chars ++ text, rest)

/-- A one-line text with escapes, after its opening quote. -/
def readBasic : (budget : Nat) → Reader (List Char)
  | 0, _ => none
  | _ + 1, [] => none
  | _ + 1, '"' :: rest => some ([], rest)
  | budget + 1, '\\' :: rest => do
    let (c, rest) ← readEscape rest
    prepend [c] (readBasic budget rest)
  | budget + 1, c :: rest => if isPrintable c then prepend [c] (readBasic budget rest) else none

/-- A one-line text without escapes, after its opening quote. -/
def readLiteral : Reader (List Char)
  | [] => none
  | '\'' :: rest => some ([], rest)
  | c :: rest => if isPrintable c then prepend [c] (readLiteral rest) else none

/-- The input after blanks and line breaks. -/
def skipBlankLines (input : List Char) : List Char :=
  match input with
  | '\r' :: '\n' :: rest => skipBlankLines rest
  | c :: rest => if isSpace c || c = '\n' then skipBlankLines rest else c :: rest
  | [] => []

/-- The quotes that stand where a text over several lines may end: with three or more the text ends,
and those before the last three, at most two, belong to it. -/
def readQuotes (quote : Char) (input : List Char) : Option (List Char × Bool × List Char) :=
  let count := (input.takeWhile (· = quote)).length
  if count < 3 then some (List.replicate count quote, false, input.drop count)
  else if count ≤ 5 then some (List.replicate (count - 3) quote, true, input.drop count)
  else none

/-- A text over several lines, after its opening quotes and the line break that may follow them. -/
def readMultiline (quote : Char) : (budget : Nat) → Reader (List Char)
  | 0, _ => none
  | _ + 1, [] => none
  | budget + 1, c :: rest =>
    if c = quote then
      match readQuotes quote (c :: rest) with
      | some (chars, true, rest) => some (chars, rest)
      | some (chars, false, rest) => prepend chars (readMultiline quote budget rest)
      | none => none
    else if c = '\\' ∧ quote = '"' then
      match newline? (skipSpaces rest) with
      | some rest => readMultiline quote budget (skipBlankLines rest)
      | none => do
        let (c, rest) ← readEscape rest
        prepend [c] (readMultiline quote budget rest)
    else
      match newline? (c :: rest) with
      | some rest => prepend ['\n'] (readMultiline quote budget rest)
      | none => if isPrintable c then prepend [c] (readMultiline quote budget rest) else none

/-- A text value of any of the four forms. -/
def readQuoted (input : List Char) : Option (String × List Char) :=
  let budget := input.length + 1
  let body := match input with
    | '"' :: '"' :: '"' :: rest => readMultiline '"' budget ((newline? rest).getD rest)
    | '\'' :: '\'' :: '\'' :: rest => readMultiline '\'' budget ((newline? rest).getD rest)
    | '"' :: rest => readBasic budget rest
    | '\'' :: rest => readLiteral rest
    | _ => none
  body.map fun (text, rest) => (String.ofList text, rest)

/-- One or more digits, with single underscores between them. -/
def readDigits (isDigit : Char → Bool) : (started : Bool) → Reader (List Char)
  | started, '_' :: c :: rest =>
    if started && isDigit c then prepend [c] (readDigits isDigit true rest) else none
  | started, c :: rest =>
    if isDigit c then prepend [c] (readDigits isDigit true rest)
    else if started && c ≠ '_' then some ([], c :: rest)
    else none
  | started, [] => if started then some ([], []) else none

/-- The number that digits write in a base. -/
def natOfDigits (base : Nat) (digits : List Char) : Nat :=
  digits.foldl (fun number c => number * base + (Bytes.hexValue? c).getD 0) 0

/-- Skip an integer in base sixteen, eight or two, after its mark. -/
def skipBased (base : Nat) (input : List Char) : Option (List Char) := do
  let isDigit := fun c => (Bytes.hexValue? c).any (· < base)
  let (digits, rest) ← readDigits isDigit false input
  if natOfDigits base digits < Nat.pow 2 63 then some rest else none

/-- The whole part of a decimal number: a single zero, or digits that do not begin with zero. -/
def readWhole : Reader (List Char)
  | '0' :: rest => some (['0'], rest)
  | input => readDigits Char.isDigit false input

/-- The exponent of a float, if there is one. -/
def readExponent (input : List Char) : Option (Option Int × List Char) :=
  match input with
  | c :: rest =>
    if c = 'e' ∨ c = 'E' then
      let (negative, rest) := match rest with
        | '+' :: rest => (false, rest)
        | '-' :: rest => (true, rest)
        | _ => (false, rest)
      (readDigits Char.isDigit false rest).map fun (digits, rest) =>
        let size : Int := natOfDigits 10 digits
        (some (if negative then -size else size), rest)
    else some (none, input)
  | [] => some (none, input)

/-- Skip a decimal integer or float after its sign. -/
def skipDecimal (negative : Bool) (input : List Char) : Option (List Char) := do
  let (whole, rest) ← readWhole input
  let (fraction, rest) ← match rest with
    | '.' :: rest => readDigits Char.isDigit false rest
    | _ => some ([], rest)
  let (exponent, rest) ← readExponent rest
  let number := natOfDigits 10 (whole ++ fraction)
  if fraction = [] ∧ exponent.isNone then
    if number < Nat.pow 2 63 ∨ (negative ∧ number = Nat.pow 2 63) then some rest else none
  else
    if negative ∨ Double.isFinite number (exponent.getD 0 - fraction.length) then some rest
    else none

/-- The number of exactly `count` decimal digits. -/
def readFixed (count : Nat) (input : List Char) : Option (Nat × List Char) :=
  let digits := input.take count
  if digits.length = count ∧ digits.all Char.isDigit then
    some (natOfDigits 10 digits, input.drop count)
  else none

/-- The input after one character. -/
def skipChar (c : Char) : List Char → Option (List Char)
  | d :: rest => if d = c then some rest else none
  | [] => none

/-- How many days a month has. -/
def daysIn (year month : Nat) : Nat :=
  if month = 2 then
    if year % 4 = 0 ∧ (year % 100 ≠ 0 ∨ year % 400 = 0) then 29 else 28
  else if month = 4 ∨ month = 6 ∨ month = 9 ∨ month = 11 then 30
  else 31

/-- Skip a date. -/
def skipDate (input : List Char) : Option (List Char) := do
  let (year, rest) ← readFixed 4 input
  let (month, rest) ← readFixed 2 (← skipChar '-' rest)
  let (day, rest) ← readFixed 2 (← skipChar '-' rest)
  if 1 ≤ month ∧ month ≤ 12 ∧ 1 ≤ day ∧ day ≤ daysIn year month then some rest else none

/-- Skip hours and minutes. -/
def skipHourMinute (input : List Char) : Option (List Char) := do
  let (hour, rest) ← readFixed 2 input
  let (minute, rest) ← readFixed 2 (← skipChar ':' rest)
  if hour ≤ 23 ∧ minute ≤ 59 then some rest else none

/-- Skip a time of day. -/
def skipTime (input : List Char) : Option (List Char) := do
  let rest ← skipHourMinute input
  let (second, rest) ← readFixed 2 (← skipChar ':' rest)
  if second ≤ 60 then
    match rest with
    | '.' :: c :: more => if c.isDigit then some (more.dropWhile Char.isDigit) else none
    | _ => some rest
  else none

/-- Skip the offset of a time, if there is one. -/
def skipOffset (input : List Char) : Option (List Char) :=
  match input with
  | 'Z' :: rest => some rest
  | 'z' :: rest => some rest
  | '+' :: rest => skipHourMinute rest
  | '-' :: rest => skipHourMinute rest
  | _ => some input

/-- Skip a date, a time of day, or both. -/
def skipDateTime (input : List Char) : Option (List Char) :=
  match skipDate input with
  | none => skipTime input
  | some rest =>
    match rest with
    | c :: time =>
      if c = 'T' ∨ c = 't' ∨ c = ' ' then
        match skipTime time with
        | some rest => skipOffset rest
        | none => some (c :: time)
      else some (c :: time)
    | [] => some []

/-- The input after a word. -/
def skipWord (word : String) (input : List Char) : Option (List Char) :=
  if word.toList.isPrefixOf input then some (input.drop word.toList.length) else none

/-- Skip a number, signed or not, or a date or time. -/
def skipNumber (input : List Char) : Option (List Char) :=
  match skipDateTime input with
  | some rest => some rest
  | none =>
    match input with
    | '+' :: rest => skipWord "inf" rest <|> skipWord "nan" rest <|> skipDecimal false rest
    | '-' :: rest => skipWord "inf" rest <|> skipWord "nan" rest <|> skipDecimal true rest
    | '0' :: 'x' :: rest => skipBased 16 rest
    | '0' :: 'o' :: rest => skipBased 8 rest
    | '0' :: 'b' :: rest => skipBased 2 rest
    | _ => skipDecimal false input

end FunctionBundler.Toml
