/-
Module: FunctionBundler.JsonText
Purpose: Reading and writing JSON documents piece by piece.
Trusted boundary: the JSON library is assumed to read and write as here, with these faults
Main exports:
  JsonText.readString, JsonText.skipValue, JsonText.foldItems, JsonText.foldMembers,
  JsonText.wrongKind, JsonText.quote
-/
import FunctionBundler.JsonText.Number

namespace FunctionBundler.JsonText

/-!
A document is read from front to back by the type it should have, so the first
fault in the text decides what is reported: the text is no JSON, it is JSON of
another shape, or it ends too early.  Readers take the remaining characters and
return what they read with the characters after it.  Values of unknown members
are skipped; they have to be JSON, but the code units of their texts need not
form characters.
-/

/-- White space between tokens. -/
def isSpace (c : Char) : Bool :=
  c = ' ' || c = '\n' || c = '\t' || c = '\r'

/-- The input after white space. -/
def skipSpaces (input : List Char) : List Char :=
  input.dropWhile isSpace

/-- The UTF-16 code unit of four hexadecimal digits. -/
def unit? (a b c d : Char) : Option Nat := do
  return (((← Bytes.hexValue? a) * 16 + (← Bytes.hexValue? b)) * 16 +
    (← Bytes.hexValue? c)) * 16 + (← Bytes.hexValue? d)

/-- What is wrong where four digits are missing: fewer than four bytes are left, or they are no
digits. -/
def shortUnit (input : List Char) : Fault :=
  if (String.ofList input).utf8ByteSize < 4 then .ended else .text

/-- The character of a one-letter escape. -/
def plainEscape? : Char → Option Char
  | '"' => some '"'
  | '\\' => some '\\'
  | '/' => some '/'
  | 'b' => some '\x08'
  | 'f' => some '\x0c'
  | 'n' => some '\n'
  | 'r' => some '\r'
  | 't' => some '\t'
  | _ => none

/-- Put a character in front of what a reader of a text returned. -/
def prepend (c : Char) (result : Except Fault (List Char × List Char)) :
    Except Fault (List Char × List Char) :=
  result.map fun (text, rest) => (c :: text, rest)

/-- What is wrong where the second half of a surrogate pair is missing. -/
def missingLow : List Char → Fault
  | [] => .ended
  | '\\' :: [] => .ended
  | '\\' :: 'u' :: rest => shortUnit rest
  | _ => .text

/-- The characters of a text after its opening quote. -/
def readString : Reader (List Char)
  | [] => .error .ended
  | '"' :: rest => .ok ([], rest)
  | '\\' :: 'u' :: a :: b :: c :: d :: rest =>
    match unit? a b c d with
    | none => .error .text
    | some high =>
      if 0xDC00 ≤ high ∧ high ≤ 0xDFFF then .error .text
      else if 0xD800 ≤ high ∧ high ≤ 0xDBFF then
        match rest with
        | '\\' :: 'u' :: e :: f :: g :: h :: rest =>
          match unit? e f g h with
          | none => .error .text
          | some low =>
            if 0xDC00 ≤ low ∧ low ≤ 0xDFFF then
              prepend (Char.ofNat (0x10000 + (high - 0xD800) * 0x400 + (low - 0xDC00)))
                (readString rest)
            else .error .text
        | other => .error (missingLow other)
      else prepend (Char.ofNat high) (readString rest)
  | '\\' :: 'u' :: rest => .error (shortUnit rest)
  | ['\\'] => .error .ended
  | '\\' :: letter :: rest =>
    match plainEscape? letter with
    | some c => prepend c (readString rest)
    | none => .error .text
  | c :: rest => if c.toNat < 0x20 then .error .text else prepend c (readString rest)

/-- Skip the characters of a text after its opening quote. -/
def skipString : Reader Unit
  | [] => .error .ended
  | '"' :: rest => .ok ((), rest)
  | '\\' :: 'u' :: a :: b :: c :: d :: rest =>
    match unit? a b c d with
    | none => .error .text
    | some _ => skipString rest
  | '\\' :: 'u' :: rest => .error (shortUnit rest)
  | ['\\'] => .error .ended
  | '\\' :: letter :: rest =>
    match plainEscape? letter with
    | some _ => skipString rest
    | none => .error .text
  | c :: rest => if c.toNat < 0x20 then .error .text else skipString rest

/-- Skip the letters of a word. -/
def skipWord : (word : List Char) → Reader Unit
  | [], input => .ok ((), input)
  | _ :: _, [] => .error .ended
  | letter :: word, c :: rest => if c = letter then skipWord word rest else .error .text

/-- Inside an array: whether another item follows. -/
def nextItem (first : Bool) (input : List Char) : Except Fault (Bool × List Char) :=
  match skipSpaces input with
  | [] => .error .ended
  | ']' :: rest => .ok (false, ']' :: rest)
  | c :: rest =>
    if first then .ok (true, c :: rest)
    else if c = ',' then
      match skipSpaces rest with
      | [] => .error .ended
      | ']' :: _ => .error .text
      | next => .ok (true, next)
    else .error .text

/-- After the opening quote of a member's name, if one comes next. -/
def openName : List Char → Except Fault (Bool × List Char)
  | [] => .error .ended
  | '"' :: rest => .ok (true, rest)
  | _ => .error .text

/-- Inside an object: whether another member follows; if so, the rest begins after the opening
quote of its name. -/
def nextMember (first : Bool) (input : List Char) : Except Fault (Bool × List Char) :=
  match skipSpaces input with
  | [] => .error .ended
  | '}' :: rest => .ok (false, '}' :: rest)
  | c :: rest =>
    if first then openName (c :: rest)
    else if c = ',' then openName (skipSpaces rest)
    else .error .text

/-- The colon between a member's name and its value. -/
def colon (input : List Char) : Except Fault (Unit × List Char) :=
  match skipSpaces input with
  | [] => .error .ended
  | ':' :: rest => .ok ((), rest)
  | _ => .error .text

/-- The closing bracket of an array. -/
def closeArray (input : List Char) : Except Fault (Unit × List Char) :=
  match skipSpaces input with
  | [] => .error .ended
  | ']' :: rest => .ok ((), rest)
  | _ => .error .text

/-- The closing brace of an object. -/
def closeObject (input : List Char) : Except Fault (Unit × List Char) :=
  match skipSpaces input with
  | [] => .error .ended
  | '}' :: rest => .ok ((), rest)
  | _ => .error .text

/-- Read the items of an array up to its closing bracket, which stays; `budget` bounds how many
there may be. -/
def foldItems {σ : Type} (step : σ → Reader σ) : (budget : Nat) → (first : Bool) → σ → Reader σ
  | 0, _, _, _ => .error .text
  | budget + 1, first, state, input => do
    let (more, rest) ← nextItem first input
    if more then
      let (state, rest) ← step state rest
      foldItems step budget false state rest
    else
      return (state, rest)

/-- Read the members of an object up to its closing brace, which stays; `budget` bounds how many
there may be. -/
def foldMembers {σ κ : Type} (name : Reader κ) (step : σ → κ → Reader σ) :
    (budget : Nat) → (first : Bool) → σ → Reader σ
  | 0, _, _, _ => .error .text
  | budget + 1, first, state, input => do
    let (more, rest) ← nextMember first input
    if more then
      let (key, rest) ← name rest
      let (state, rest) ← step state key rest
      foldMembers name step budget false state rest
    else
      return (state, rest)

/-- What an open bracket opened. -/
inductive Bracket where
  | array
  | object
deriving Repr, DecidableEq

/-- The character that closes a bracket. -/
def Bracket.closing : Bracket → Char
  | .array => ']'
  | .object => '}'

/-- The bracket that opens at the front of an input, and what follows it. -/
def opening? : List Char → Option (Bracket × List Char)
  | '[' :: rest => some (.array, rest)
  | '{' :: rest => some (.object, rest)
  | _ => none

/-- Skip the name of a member and the colon after it. -/
def skipName (input : List Char) : Except Fault (Unit × List Char) := do
  let (more, rest) ← openName (skipSpaces input)
  if more then
    let (_, rest) ← skipString rest
    colon rest
  else .error .text

/-- Skip what comes before the next value inside a bracket. -/
def Bracket.skipLead : Bracket → Reader Unit
  | .array, input => .ok ((), input)
  | .object, input => skipName input

/-- Skip a value that is neither an array nor an object, with no white space before it. -/
def skipAtom (input : List Char) : Except Fault (Unit × List Char) :=
  match input with
  | [] => .error .ended
  | 'n' :: rest => skipWord "ull".toList rest
  | 't' :: rest => skipWord "rue".toList rest
  | 'f' :: rest => skipWord "alse".toList rest
  | '"' :: rest => skipString rest
  | '-' :: rest => (readNumber .text rest).map fun (_, rest) => ((), rest)
  | c :: rest =>
    if c.isDigit then (readNumber .text (c :: rest)).map fun (_, rest) => ((), rest)
    else .error .text

/-- Skip to the end of a value inside brackets that are open, the innermost first; `complete` says
that a part of it has just ended, so that no other value is due.  Each of the at most `budget` steps
skips a value, the start of one or its end. -/
def skipOpen : (budget : Nat) → (complete : Bool) → (opened : List Bracket) → Reader Unit
  | 0, _, _, _ => .error .text
  | _ + 1, true, [], input => .ok ((), input)
  | budget + 1, true, bracket :: opened, input =>
    match skipSpaces input with
    | [] => .error .ended
    | c :: rest =>
      if c = bracket.closing then skipOpen budget true opened rest
      else if c = ',' then do
        let (_, rest) ← bracket.skipLead rest
        skipOpen budget false (bracket :: opened) rest
      else .error .text
  | budget + 1, false, opened, input =>
    let start := skipSpaces input
    match opening? start with
    | none => do
      let (_, rest) ← skipAtom start
      skipOpen budget true opened rest
    | some (bracket, rest) =>
      match skipSpaces rest with
      | [] => .error .ended
      | c :: rest =>
        if c = bracket.closing then skipOpen budget true opened rest
        else do
          let (_, rest) ← bracket.skipLead (c :: rest)
          skipOpen budget false (bracket :: opened) rest

/-- Skip one value, however deep it nests. -/
def skipValue (input : List Char) : Except Fault (Unit × List Char) :=
  skipOpen (input.length + 2) false [] input

/-- What is wrong with a value that should have been of another kind: it is of the wrong shape,
unless its first token is no JSON or the input ends in it. -/
def wrongKind (input : List Char) : Fault :=
  let after (result : Except Fault (Unit × List Char)) : Fault :=
    match result with
    | .ok _ => .shape
    | .error fault => fault
  match input with
  | [] => .text
  | 'n' :: rest => after (skipWord "ull".toList rest)
  | 't' :: rest => after (skipWord "rue".toList rest)
  | 'f' :: rest => after (skipWord "alse".toList rest)
  | '"' :: rest => after ((readString rest).map fun (_, rest) => ((), rest))
  | '[' :: _ => .shape
  | '{' :: _ => .shape
  | c :: rest =>
    if c = '-' then after ((readNumber .ended rest).bind fun (number, rest) => number.inRange rest)
    else if c.isDigit then
      after ((readNumber .ended (c :: rest)).bind fun (number, rest) => number.inRange rest)
    else .text

/-- A text value. -/
def readText (input : List Char) : Except Fault (String × List Char) :=
  match skipSpaces input with
  | [] => .error .ended
  | '"' :: rest => (readString rest).map fun (text, rest) => (String.ofList text, rest)
  | other => .error (wrongKind other)

/-- A text value, or nothing where the value is null. -/
def readTextOrNull (input : List Char) : Except Fault (Option String × List Char) :=
  match skipSpaces input with
  | 'n' :: rest => (skipWord "ull".toList rest).map fun (_, rest) => (none, rest)
  | other => (readText other).map fun (text, rest) => (some text, rest)

/-- The written form of a character inside a text. -/
def escape (c : Char) : List Char :=
  match c with
  | '"' => ['\\', '"']
  | '\\' => ['\\', '\\']
  | '\x08' => ['\\', 'b']
  | '\t' => ['\\', 't']
  | '\n' => ['\\', 'n']
  | '\x0c' => ['\\', 'f']
  | '\r' => ['\\', 'r']
  | c =>
    if c.toNat < 0x20 then ['\\', 'u', '0', '0'] ++ Bytes.hexPair (UInt8.ofNat c.toNat) else [c]

/-- A text between quotes. -/
def quote (text : String) : List Char :=
  '"' :: text.toList.flatMap escape ++ ['"']

end FunctionBundler.JsonText
