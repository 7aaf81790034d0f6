/-
Module: FunctionBundler.Bytes
Purpose: Byte strings, their UTF-8 reading and writing, and fixed-width integers.
Trusted boundary: none
Main exports:
  Bytes, Bytes.ofText, Bytes.text?, Bytes.bigEndian, Bytes.littleEndian,
  Bytes.natOfBigEndian, Bytes.hex, Bytes.ofHex?
-/

namespace FunctionBundler

/-!
A byte string is a list, so that readers recurse on it and laws about prefixes
and suffixes are laws about `++`.  Text enters and leaves through UTF-8 only:
`text?` succeeds exactly on the images of `ofText`.
-/

/-- A byte string. -/
abbrev Bytes := List UInt8

namespace Bytes

/-- The UTF-8 form of a text. -/
def ofText (text : String) : Bytes :=
  text.toByteArray.data.toList

/-- The text whose UTF-8 form is the given byte string, if there is one. -/
def text? (bytes : Bytes) : Option String :=
  String.fromUTF8? ⟨bytes.toArray⟩

/-- The low `width` bytes of a number, most significant first. -/
def bigEndian : (width : Nat) → (number : Nat) → Bytes
  | 0, _ => []
  | width + 1, number => UInt8.ofNat (number / Nat.pow 256 width) :: bigEndian width number

/-- The low `width` bytes of a number, least significant first. -/
def littleEndian : (width : Nat) → (number : Nat) → Bytes
  | 0, _ => []
  | width + 1, number => UInt8.ofNat number :: littleEndian width (number / 256)

/-- The number written by a byte string, most significant byte first. -/
def natOfBigEndian (bytes : Bytes) : Nat :=
  bytes.foldl (fun number byte => number * 256 + byte.toNat) 0

/-- The lowercase hexadecimal digit of a number below sixteen. -/
def hexDigit (digit : Nat) : Char :=
  if digit < 10 then Char.ofNat (48 + digit) else Char.ofNat (87 + digit)

/-- The two lowercase hexadecimal digits of a byte. -/
def hexPair (byte : UInt8) : List Char :=
  [hexDigit (byte.toNat / 16), hexDigit (byte.toNat % 16)]

/-- A byte string in lowercase hexadecimal digits, two for each byte. -/
def hex (bytes : Bytes) : String :=
  String.ofList (bytes.flatMap hexPair)

/-- The number of a hexadecimal digit. -/
def hexValue? (digit : Char) : Option Nat :=
  if '0' ≤ digit ∧ digit ≤ '9' then some (digit.toNat - 48)
  else if 'a' ≤ digit ∧ digit ≤ 'f' then some (digit.toNat - 87)
  else if 'A' ≤ digit ∧ digit ≤ 'F' then some (digit.toNat - 55)
  else none

/-- The byte string of hexadecimal digits, two for each byte. -/
def ofHexDigits? : List Char → Option Bytes
  | [] => some []
  | [_] => none
  | high :: low :: rest => do
    let byte := UInt8.ofNat (16 * (← hexValue? high) + (← hexValue? low))
    return byte :: (← ofHexDigits? rest)

/-- The byte string of a text in hexadecimal digits. -/
def ofHex? (text : String) : Option Bytes :=
  ofHexDigits? text.toList

/-- Each of the sixteen digits is read as what it was written for. -/
theorem hexValue?_hexDigit {digit : Nat} (small : digit < 16) :
    hexValue? (hexDigit digit) = some digit := by
  have all : ∀ n ∈ List.range 16, hexValue? (hexDigit n) = some n := by decide
  exact all digit (List.mem_range.mpr small)

/-- Bytes are read back from their hexadecimal digits. -/
theorem ofHexDigits?_flatMap_hexPair (bytes : Bytes) :
    ofHexDigits? (bytes.flatMap hexPair) = some bytes := by
  induction bytes with
  | nil => rfl
  | cons byte rest ih =>
    have size : byte.toNat < 256 := byte.toNat_lt_size
    have halves : 16 * (byte.toNat / 16) + byte.toNat % 16 = byte.toNat := Nat.div_add_mod _ _
    have first : hexValue? (hexDigit (byte.toNat / 16)) = some (byte.toNat / 16) :=
      hexValue?_hexDigit (by omega)
    have second : hexValue? (hexDigit (byte.toNat % 16)) = some (byte.toNat % 16) :=
      hexValue?_hexDigit (by omega)
    simp only [List.flatMap_cons, hexPair, List.cons_append, List.nil_append, ofHexDigits?, first,
      second, ih, halves, UInt8.ofNat_toNat, Option.bind_eq_bind, Option.bind_some, pure]

/-- The hexadecimal text of a byte string reads back. -/
@[simp] theorem ofHex?_hex (bytes : Bytes) : ofHex? (hex bytes) = some bytes := by
  simp [ofHex?, hex, ofHexDigits?_flatMap_hexPair]

/-- A text is read back from its bytes. -/
@[simp] theorem text?_ofText (text : String) : text? (ofText text) = some text := by
  show String.fromUTF8? text.toByteArray = some text
  simp [String.fromUTF8?, text.isValidUTF8, String.fromUTF8]

/-- Bytes that are read as a text are the bytes of that text. -/
theorem ofText_of_text? {bytes : Bytes} {text : String} (read : text? bytes = some text) :
    ofText text = bytes := by
  rw [text?, String.fromUTF8?] at read
  split at read
  · cases read
    simp [ofText, String.fromUTF8]
  · cases read

/-- Reading UTF-8 accepts exactly what writing it produces. -/
theorem text?_eq_some_iff {bytes : Bytes} {text : String} :
    text? bytes = some text ↔ ofText text = bytes :=
  ⟨ofText_of_text?, fun written => written ▸ text?_ofText text⟩

@[simp] theorem length_bigEndian (width number : Nat) :
    (bigEndian width number).length = width := by
  induction width with
  | zero => rfl
  | succ width ih => simp [bigEndian, ih]

end Bytes

end FunctionBundler
