/-
Module: FunctionBundler.Archive.Zip
Purpose: The bytes of a zip archive, as a function of its list of entries.
Trusted boundary: the archive library is assumed to lay out headers and contents as here
Main exports:
  ArchiveEntry, Timestamp, Zip.Member, Zip.write
-/
import FunctionBundler.Deflate
import FunctionBundler.Digest.Crc32

namespace FunctionBundler

/-!
Each entry is a local header and the entry's content as a compressed stream; a
directory of all entries and an end record follow.  Nothing else
enters the bytes, so equal lists of entries give equal archives.
-/

/-- A time as archives record it. -/
structure Timestamp where
  year : Nat
  month : Nat
  day : Nat
  hour : Nat
  minute : Nat
  second : Nat
deriving Repr, DecidableEq

namespace Timestamp

/-- The earliest time that archives can record, at which all entries are dated. -/
def epoch : Timestamp := ⟨1980, 1, 1, 0, 0, 0⟩

/-- A number in decimal digits, at least `width` of them. -/
def padded (width number : Nat) : String :=
  let digits := Nat.toDigits 10 number
  String.ofList (List.replicate (width - digits.length) '0' ++ digits)

/-- The text of a time. -/
def text (t : Timestamp) : String :=
  s!"{padded 4 t.year}-{padded 2 t.month}-{padded 2 t.day} " ++
    s!"{padded 2 t.hour}:{padded 2 t.minute}:{padded 2 t.second}"

/-- The date field of a header. -/
def dateField (t : Timestamp) : Nat :=
  (t.year - 1980) * 512 + t.month * 32 + t.day

/-- The time field of a header, in steps of two seconds. -/
def timeField (t : Timestamp) : Nat :=
  t.hour * 2048 + t.minute * 32 + t.second / 2

end Timestamp

/-- An entry of an archive: its name, its permission bits, its time and its content. -/
structure ArchiveEntry where
  name : String
  mode : Nat
  modified : Timestamp
  data : Bytes
deriving Repr, DecidableEq

namespace Zip

/-- The name of the compression method that entries are recorded with. -/
def method : String := "deflated"

/-- The file type bits of a regular file. -/
def regularFile : Nat := 0o100000

/-- An entry with its content as it is put into an archive. -/
structure Member where
  entry : ArchiveEntry
  stream : Bytes
deriving Repr, DecidableEq

/-- An entry with its content compressed. -/
def Member.ofEntry (entry : ArchiveEntry) : Member :=
  ⟨entry, Deflate.compress entry.data⟩

/-- The fields that an entry's local header and its directory record share. -/
def sharedFields (member : Member) : Bytes :=
  let entry := member.entry
  let name := Bytes.ofText entry.name
  let flags := if name.all (· < 128) then 0 else 2048
  Bytes.littleEndian 2 20 ++ Bytes.littleEndian 2 flags ++ Bytes.littleEndian 2 8 ++
    Bytes.littleEndian 2 entry.modified.timeField ++
    Bytes.littleEndian 2 entry.modified.dateField ++
    Bytes.littleEndian 4 (Crc32.checksum entry.data).toNat ++
    Bytes.littleEndian 4 member.stream.length ++
    Bytes.littleEndian 4 entry.data.length ++
    Bytes.littleEndian 2 name.length ++ Bytes.littleEndian 2 0

/-- An entry's local header and content. -/
def localRecord (member : Member) : Bytes :=
  Bytes.littleEndian 4 67324752 ++ sharedFields member ++ Bytes.ofText member.entry.name ++
    member.stream

/-- An entry's record in the directory; its local record begins at `offset`. -/
def directoryRecord (offset : Nat) (member : Member) : Bytes :=
  Bytes.littleEndian 4 33639248 ++ Bytes.littleEndian 2 (3 * 256 + 20) ++ sharedFields member ++
    Bytes.littleEndian 2 0 ++ Bytes.littleEndian 2 0 ++ Bytes.littleEndian 2 0 ++
    Bytes.littleEndian 4 ((regularFile + member.entry.mode) * 65536) ++
    Bytes.littleEndian 4 offset ++ Bytes.ofText member.entry.name

/-- The directory records of entries whose local records begin at `offset`. -/
def directory (offset : Nat) : List Member → Bytes
  | [] => []
  | member :: rest =>
    directoryRecord offset member ++ directory (offset + (localRecord member).length) rest

/-- The record that ends an archive. -/
def endRecord (count size offset : Nat) : Bytes :=
  Bytes.littleEndian 4 101010256 ++ Bytes.littleEndian 4 0 ++ Bytes.littleEndian 2 count ++
    Bytes.littleEndian 2 count ++ Bytes.littleEndian 4 size ++ Bytes.littleEndian 4 offset ++
    Bytes.littleEndian 2 0

/-- The bytes of an archive with the given entries. -/
def write (entries : List ArchiveEntry) : Bytes :=
  let members := entries.map .ofEntry
  let contents := members.flatMap localRecord
  let listing := directory 0 members
  contents ++ listing ++ endRecord entries.length listing.length contents.length

end Zip

end FunctionBundler
