/-
Module: FunctionBundler.Value.Codec
Purpose: The binary form of metadata values.
Trusted boundary: none
Main exports:
  Codec.encode, Codec.decode, Codec.Fault, Codec.Cursor, Codec.maxNesting, Codec.Encodable
-/
import FunctionBundler.Bytes
import FunctionBundler.Value

namespace FunctionBundler.Codec

/-!
Every value starts with one tag byte, followed by big-endian fields:

* tag 0, a 4-byte integer;
* tag 1, an 8-byte integer;
* tag 2, a text: its 4-byte length and its UTF-8 bytes;
* tag 3, an array: a 4-byte count and that many values;
* tag 4, a map: a 4-byte count and that many keys, each followed by its value.

Reading takes one value from the front and ignores what follows.  It merges the
repeated keys of each map, refuses more than 64 nested arrays and maps before it
reads their count, and reports each fault with the offset at which it lies.
-/

/-- How many arrays and maps may be open at once. -/
def maxNesting : Nat := 64

/-- Why a byte string does not start with a value. -/
inductive Fault where
  | unknownTag (tag : UInt8) (offset : Nat)
  | truncated (needed offset available : Nat)
  | invalidText (offset : Nat)
  | tooDeep
deriving Repr, DecidableEq

/-- The wording of a fault. -/
def Fault.message : Fault → String
  | .unknownTag tag offset =>
    s!"unknown tag byte 0x{String.ofList (Bytes.hexPair tag)} at offset {offset}"
  | .truncated needed offset available =>
    s!"truncated stream: needed {needed} bytes at offset {offset}, {available} available"
  | .invalidText offset => s!"string at offset {offset} is not valid UTF-8"
  | .tooDeep => s!"nesting deeper than {maxNesting} levels"

/-- The binary form of a value. -/
def encode : Value → Bytes
  | .word32 number => 0 :: Bytes.bigEndian 4 number.toNat
  | .word64 number => 1 :: Bytes.bigEndian 8 number.toNat
  | .text content =>
    2 :: (Bytes.bigEndian 4 (Bytes.ofText content).length ++ Bytes.ofText content)
  | .array items => 3 :: (Bytes.bigEndian 4 items.length ++ encodeItems items)
  | .map entries => 4 :: (Bytes.bigEndian 4 entries.length ++ encodeEntries entries)
where
  /-- The binary forms of a list of values, one after the other. -/
  encodeItems : List Value → Bytes
    | [] => []
    | item :: items => encode item ++ encodeItems items
  /-- The binary forms of the keys and values of a list of entries. -/
  encodeEntries : List (Value × Value) → Bytes
    | [] => []
    | (key, value) :: entries => encode key ++ encode value ++ encodeEntries entries

/-- Every length and every count of the value fits its 4-byte field. -/
def Encodable : Value → Prop
  | .text content => (Bytes.ofText content).length < Nat.pow 2 32
  | .array items => items.length < Nat.pow 2 32 ∧ EncodableItems items
  | .map entries => entries.length < Nat.pow 2 32 ∧ EncodableEntries entries
  | _ => True
where
  /-- Each value of a list is encodable. -/
  EncodableItems : List Value → Prop
    | [] => True
    | item :: items => Encodable item ∧ EncodableItems items
  /-- Each key and each value of a list of entries is encodable. -/
  EncodableEntries : List (Value × Value) → Prop
    | [] => True
    | (key, value) :: entries => Encodable key ∧ Encodable value ∧ EncodableEntries entries

/-- What is left to read, and how many bytes were read before it. -/
structure Cursor where
  offset : Nat
  rest : Bytes
deriving DecidableEq

/-- The next `count` bytes. -/
def take (count : Nat) (cursor : Cursor) : Except Fault (Bytes × Cursor) :=
  let field := cursor.rest.take count
  if field.length < count then
    .error (.truncated count cursor.offset cursor.rest.length)
  else
    .ok (field, ⟨cursor.offset + count, cursor.rest.drop count⟩)

/-- The next byte. -/
def takeByte (cursor : Cursor) : Except Fault (UInt8 × Cursor) :=
  match cursor.rest with
  | [] => .error (.truncated 1 cursor.offset 0)
  | byte :: rest => .ok (byte, ⟨cursor.offset + 1, rest⟩)

/-- The next integer of `width` bytes. -/
def takeNat (width : Nat) (cursor : Cursor) : Except Fault (Nat × Cursor) := do
  let (field, cursor) ← take width cursor
  return (Bytes.natOfBigEndian field, cursor)

/-- The next text: its length and its bytes. -/
def takeText (cursor : Cursor) : Except Fault (String × Cursor) := do
  let (length, cursor) ← takeNat 4 cursor
  let (field, rest) ← take length cursor
  match Bytes.text? field with
  | some content => return (content, rest)
  | none => .error (.invalidText cursor.offset)

/-- Read `count` things one after the other. -/
def takeMany {α : Type} (one : Cursor → Except Fault (α × Cursor)) :
    (count : Nat) → Cursor → Except Fault (List α × Cursor)
  | 0, cursor => .ok ([], cursor)
  | count + 1, cursor => do
    let (item, cursor) ← one cursor
    let (items, cursor) ← takeMany one count cursor
    return (item :: items, cursor)

/-- Read two things one after the other. -/
def takePair {α : Type} (one : Cursor → Except Fault (α × Cursor)) (cursor : Cursor) :
    Except Fault ((α × α) × Cursor) := do
  let (first, cursor) ← one cursor
  let (second, cursor) ← one cursor
  return ((first, second), cursor)

/-- Read the value after a tag that opens neither array nor map; `offset` is that of the tag. -/
def takeScalar (tag : UInt8) (offset : Nat) (cursor : Cursor) :
    Except Fault (Value × Cursor) := do
  if tag = 0 then
    let (number, cursor) ← takeNat 4 cursor
    return (.word32 (UInt32.ofNat number), cursor)
  else if tag = 1 then
    let (number, cursor) ← takeNat 8 cursor
    return (.word64 (UInt64.ofNat number), cursor)
  else if tag = 2 then
    let (content, cursor) ← takeText cursor
    return (.text content, cursor)
  else
    .error (.unknownTag tag offset)

/-- Read one value, with at most `levels` more arrays and maps open at once. -/
def takeValue : (levels : Nat) → Cursor → Except Fault (Value × Cursor)
  | 0, cursor => do
    let (tag, rest) ← takeByte cursor
    if tag = 3 ∨ tag = 4 then
      .error .tooDeep
    else
      takeScalar tag cursor.offset rest
  | levels + 1, cursor => do
    let (tag, rest) ← takeByte cursor
    if tag = 3 then
      let (count, rest) ← takeNat 4 rest
      let (items, rest) ← takeMany (takeValue levels) count rest
      return (.array items, rest)
    else if tag = 4 then
      let (count, rest) ← takeNat 4 rest
      let (entries, rest) ← takeMany (takePair (takeValue levels)) count rest
      return (.map (Value.mergeEntries entries), rest)
    else
      takeScalar tag cursor.offset rest

/-- The value at the front of a byte string; bytes after it are ignored. -/
def decode (bytes : Bytes) : Except Fault Value := do
  let (value, _) ← takeValue maxNesting ⟨0, bytes⟩
  return value

end FunctionBundler.Codec
