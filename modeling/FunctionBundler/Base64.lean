/-
Module: FunctionBundler.Base64
Purpose: The standard base64 alphabet with required canonical padding.
Trusted boundary: the base64 library is assumed to write and read as here, with these faults in this
  order
Main exports:
  Base64.encode, Base64.decode, Base64.Fault, Base64.Fault.message
-/
import FunctionBundler.Bytes

namespace FunctionBundler.Base64

/-!
Three bytes become four symbols of six bits.  A last group of one or two bytes is
filled up with `=`, and the bits of its last symbol that belong to no byte are
zero, so each byte string has exactly one written form.  Decoding refuses every
other text and names the first fault in a fixed order: a stray byte after whole
groups, then the groups from left to right, then the last group.
-/

/-- What is wrong with a text that is not canonical base64.  Offsets count bytes. -/
inductive Fault where
  | symbol (byte : UInt8) (offset : Nat)
  | length (count : Nat)
  | padding
  | lastSymbol (byte : UInt8) (offset : Nat)
deriving Repr, DecidableEq

/-- The wording of a fault. -/
def Fault.message : Fault → String
  | .symbol byte offset => s!"Invalid symbol {byte.toNat}, offset {offset}."
  | .length count => s!"Invalid input length: {count}"
  | .padding => "Invalid padding"
  | .lastSymbol byte offset => s!"Invalid last symbol {byte.toNat}, offset {offset}."

/-- The symbol of a number below sixty-four. -/
def symbol (bits : Nat) : UInt8 :=
  if bits < 26 then UInt8.ofNat (65 + bits)
  else if bits < 52 then UInt8.ofNat (71 + bits)
  else if bits < 62 then UInt8.ofNat (bits - 4)
  else if bits = 62 then 43
  else 47

/-- The number of a symbol, for the bytes of the alphabet only. -/
def bits? (byte : UInt8) : Option Nat :=
  let code := byte.toNat
  if 65 ≤ code ∧ code ≤ 90 then some (code - 65)
  else if 97 ≤ code ∧ code ≤ 122 then some (code - 71)
  else if 48 ≤ code ∧ code ≤ 57 then some (code + 4)
  else if code = 43 then some 62
  else if code = 47 then some 63
  else none

/-- The byte that fills up a last group. -/
def pad : UInt8 := 61

/-- The symbols of a byte string. -/
def encodeBytes : Bytes → Bytes
  | [] => []
  | [a] => [symbol (a.toNat / 4), symbol (a.toNat % 4 * 16), pad, pad]
  | [a, b] =>
    [symbol (a.toNat / 4), symbol (a.toNat % 4 * 16 + b.toNat / 16),
      symbol (b.toNat % 16 * 4), pad]
  | a :: b :: c :: rest =>
    symbol (a.toNat / 4) :: symbol (a.toNat % 4 * 16 + b.toNat / 16) ::
      symbol (b.toNat % 16 * 4 + c.toNat / 64) :: symbol (c.toNat % 64) :: encodeBytes rest

/-- The base64 text of a byte string. -/
def encode (bytes : Bytes) : String :=
  String.ofList ((encodeBytes bytes).map fun byte => Char.ofNat byte.toNat)

/-- The number of the symbol at an offset. -/
def bitsAt (byte : UInt8) (offset : Nat) : Except Fault Nat :=
  match bits? byte with
  | some bits => .ok bits
  | none => .error (.symbol byte offset)

/-- The three bytes of four symbols. -/
def triple (a b c d : Nat) : Bytes :=
  [UInt8.ofNat (a * 4 + b / 16), UInt8.ofNat (b % 16 * 16 + c / 4), UInt8.ofNat (c % 4 * 64 + d)]

/-- What has been read of a last group: its symbols with their offsets, and its padding. -/
structure Tail where
  symbols : List (UInt8 × Nat × Nat)
  firstPad : Option Nat
  pads : Nat
deriving Repr

/-- Read the bytes of the last group, which begins at `start`, from position `index` on. -/
def readTail (start index : Nat) (tail : Tail) : Bytes → Except Fault Tail
  | [] => .ok tail
  | byte :: rest =>
    if byte = pad then
      if index < 2 then
        .error (.symbol pad (start + tail.firstPad.getD index))
      else
        readTail start (index + 1)
          { tail with firstPad := some (tail.firstPad.getD index), pads := tail.pads + 1 } rest
    else
      match tail.firstPad with
      | some first => .error (.symbol pad (start + first))
      | none => do
        let bits ← bitsAt byte (start + index)
        readTail start (index + 1)
          { tail with symbols := tail.symbols ++ [(byte, start + index, bits)] } rest

/-- The bytes of the last group, which has at most four bytes. -/
def decodeTail (start : Nat) (bytes : Bytes) : Except Fault Bytes := do
  let tail ← readTail start 0 ⟨[], none, 0⟩ bytes
  match tail.symbols with
  | [] => if bytes.isEmpty then .ok [] else .error (.length start)
  | [_] => .error (.length (start + 1))
  | [(_, _, a), (last, offset, b)] =>
    if tail.pads ≠ 2 then .error .padding
    else if b % 16 ≠ 0 then .error (.lastSymbol last offset)
    else .ok ((triple a b 0 0).take 1)
  | [(_, _, a), (_, _, b), (last, offset, c)] =>
    if tail.pads ≠ 1 then .error .padding
    else if c % 4 ≠ 0 then .error (.lastSymbol last offset)
    else .ok ((triple a b c 0).take 2)
  | (_, _, a) :: (_, _, b) :: (_, _, c) :: (_, _, d) :: _ => .ok (triple a b c d)

/-- The bytes of a text from offset `start` on: whole groups of four symbols, and a last group of
at most four bytes. -/
def decodeGroups (start : Nat) : Bytes → Except Fault Bytes
  | a :: b :: c :: d :: e :: rest => do
    let group := triple (← bitsAt a start) (← bitsAt b (start + 1)) (← bitsAt c (start + 2))
      (← bitsAt d (start + 3))
    return group ++ (← decodeGroups (start + 4) (e :: rest))
  | bytes => decodeTail start bytes

/-- A stray last byte: one byte beyond whole groups that is no symbol and no padding. -/
def strayByte? (bytes : Bytes) : Option UInt8 :=
  if bytes.length % 4 = 1 then
    bytes.getLast?.filter fun byte => byte ≠ pad ∧ (bits? byte).isNone
  else
    none

/-- The bytes whose base64 form is the given one. -/
def decodeBytes (bytes : Bytes) : Except Fault Bytes :=
  match strayByte? bytes with
  | some byte => .error (.symbol byte (bytes.length - 1))
  | none => decodeGroups 0 bytes

/-- The bytes whose base64 text is the given one. -/
def decode (text : String) : Except Fault Bytes :=
  decodeBytes (Bytes.ofText text)

end FunctionBundler.Base64
