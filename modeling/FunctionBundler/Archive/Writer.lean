/-
Module: FunctionBundler.Archive.Writer
Purpose: The writer of an archive: it takes entries one after another, and then tells the bytes.
Trusted boundary: what a writer answers depends on the entries it was given only
Main exports:
  Zip.Writer, Zip.Writer.putAll, Zip.Writer.largest, Zip.Writer.standard
-/
import FunctionBundler.Archive.Zip
import FunctionBundler.Failure

namespace FunctionBundler.Zip

/-!
An archive is written entry by entry while its libraries are read, so a writer that refuses
an entry ends the build before later libraries are looked at.  Which writer it is is left
open; the one that is used takes contents up to a bound, and makes the bytes of the format.
-/

/-- A writer: whether it takes an entry behind others, and the bytes of the entries it took. -/
structure Writer where
  put : (taken : List ArchiveEntry) → (entry : ArchiveEntry) → Except ArchiveFault Unit
  finish : (entries : List ArchiveEntry) → Except ArchiveFault Bytes

namespace Writer

/-- Put entries behind others, up to the first that is not taken. -/
def putAll (writer : Writer) (taken : List ArchiveEntry) :
    List ArchiveEntry → Except ArchiveFault Unit
  | [] => .ok ()
  | entry :: rest => do
    writer.put taken entry
    writer.putAll (taken ++ [entry]) rest

/-- The longest content for which the fields of an entry have room. -/
def largest : Nat := 4294967295

/-- The writer that is used: it refuses a content that is too long for an entry's fields. -/
def standard : Writer where
  put _ entry :=
    if entry.data.length ≤ largest then .ok ()
    else .error (.content "Large file option has not been set")
  finish entries := .ok (Zip.write entries)

end Writer

end FunctionBundler.Zip
