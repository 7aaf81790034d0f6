/-
Module: FunctionBundler.Digest.Crc32
Purpose: The cyclic redundancy check that zip archives record for each entry.
Trusted boundary: the archive library is assumed to record the check sum that is computed here
Main exports:
  Crc32.checksum
-/
import FunctionBundler.Bytes

namespace FunctionBundler.Crc32

/-!
The check is the remainder of the message under the reflected polynomial
`0xEDB88320`, one bit at a time, with the register inverted before and after.
-/

/-- Shift one bit out of the register. -/
def shiftBit (register : UInt32) : UInt32 :=
  if register &&& 1 = 1 then (register >>> 1) ^^^ 3988292384 else register >>> 1

/-- Feed one byte into the register. -/
def feed (register : UInt32) (byte : UInt8) : UInt32 :=
  Nat.repeat shiftBit 8 (register ^^^ byte.toUInt32)

/-- The checksum of a byte string. -/
def checksum (bytes : Bytes) : UInt32 :=
  ~~~(bytes.foldl feed 4294967295)

end FunctionBundler.Crc32
