/-
Module: FunctionBundler.Archive.Zip.Read
Purpose: Reading back the entries of a zip archive.
Trusted boundary: archives are assumed to have the format that is read here
Main exports:
  Zip.read?
-/
import FunctionBundler.Archive.Zip

namespace FunctionBundler.Zip

/-!
Names and contents are read from the local records, one after the other, and the
permission bits from the directory that follows them.
-/

/-- A reader takes bytes off the front of the remaining ones, or fails. -/
abbrev Reader := StateT Bytes Option

/-- The number that bytes write, least significant first. -/
def natOfLittleEndian (bytes : Bytes) : Nat :=
  bytes.foldr (fun byte number => byte.toNat + 256 * number) 0

/-- Take bytes. -/
def take (count : Nat) : Reader Bytes := do
  let input ← get
  if count ≤ input.length then
    set (input.drop count)
    return input.take count
  else failure

/-- Take a number of a width. -/
def number (width : Nat) : Reader Nat :=
  return natOfLittleEndian (← take width)

/-- The time of two header fields. -/
def timestamp (time date : Nat) : Timestamp :=
  { year := 1980 + date / 512, month := date / 32 % 16, day := date % 32
    hour := time / 2048, minute := time / 32 % 64, second := time % 32 * 2 }

/-- The fields that a local header and a directory record share: the time, and the lengths of the
stream, the name and the extra field. -/
def shared : Reader (Timestamp × Nat × Nat × Nat) := do
  let _ ← take 6
  let time ← number 2
  let date ← number 2
  let _ ← take 4
  let stream ← number 4
  let _ ← take 4
  let name ← number 2
  let extra ← number 2
  return (timestamp time date, stream, name, extra)

/-- A local record after its signature, as an entry without permission bits. -/
def localEntry : Reader ArchiveEntry := do
  let (modified, stream, nameLength, extra) ← shared
  let name ← take nameLength
  let _ ← take extra
  let stream ← take stream
  match Bytes.text? name, Deflate.decompress? stream with
  | some name, some data => return { name, mode := 0, modified, data }
  | _, _ => failure

/-- The permission bits in a directory record after its signature. -/
def directoryMode : Reader Nat := do
  let _ ← take 2
  let (_, _, nameLength, extra) ← shared
  let comment ← number 2
  let _ ← take 4
  let attributes ← number 4
  let _ ← take (4 + nameLength + extra + comment)
  return attributes / 65536 - regularFile

/-- All records with a signature, `count` at most, and the signature that follows them. -/
def records {α : Type} (signature : Nat) (record : Reader α) :
    (count : Nat) → (next : Nat) → Reader (List α × Nat)
  | 0, _ => failure
  | count + 1, next => do
    if next = signature then
      let first ← record
      let next ← number 4
      let (rest, next) ← records signature record count next
      return (first :: rest, next)
    else
      return ([], next)

/-- The entries of an archive. -/
def read? (bytes : Bytes) : Option (List ArchiveEntry) := do
  let reader : Reader (List ArchiveEntry) := do
    let count := bytes.length
    let next ← number 4
    let (entries, next) ← records 67324752 localEntry count next
    let (modes, next) ← records 33639248 directoryMode count next
    if next = 101010256 ∧ modes.length = entries.length then
      return entries.zipWith (fun entry mode => { entry with mode }) modes
    else failure
  let (entries, _) ← reader.run bytes
  return entries

end FunctionBundler.Zip
