/-
Module: FunctionBundler.Manifest
Purpose: The build manifest: the entry points of one build and their metadata.
Trusted boundary: none
Main exports:
  EntryPoint, EntryPoint.blob, EntryPoint.parameters, Manifest, Manifest.write, Manifest.read
-/
import FunctionBundler.JsonText
import FunctionBundler.Parameters
import FunctionBundler.Text.Blank

namespace FunctionBundler

/-!
A manifest lists the entry points of a build.  It is a JSON document: an object
with the one member `entry_points`, an array of objects with a file name, the
metadata blob in base64, and optionally the name of the source function.  Reading
ignores other members, refuses a repeated one, and takes an array of the members
in their order for an object.  Writing is compact and in that order, and leaves
out an absent source name.
-/

/-- One entry point: a binary beside the manifest, and its metadata blob in base64. -/
structure EntryPoint where
  fileName : String
  metadata : String
  sourceName : Option String
deriving Repr, DecidableEq, Inhabited

namespace EntryPoint

/-- The metadata blob. -/
def blob (entry : EntryPoint) : Except Base64.Fault Bytes :=
  Base64.decode (String.ofList (Text.trimBlank entry.metadata.toList))

/-- The deployment parameters in the metadata blob. -/
def parameters (entry : EntryPoint) : Except Parameters.Fault Parameters :=
  match entry.blob with
  | .error fault => .error (.base64 fault)
  | .ok blob => Parameters.ofBytes blob

end EntryPoint

/-- The entry points of one build, in build order. -/
structure Manifest where
  entries : List EntryPoint
deriving Repr, DecidableEq, Inhabited

namespace Manifest

open JsonText

/-- The members of an entry point that have been read. -/
structure Draft where
  fileName : Option String
  metadata : Option String
  sourceName : Option (Option String)
deriving DecidableEq

/-- The entry point of a draft, if nothing required is missing. -/
def Draft.finish (draft : Draft) : Except Fault EntryPoint :=
  match draft.fileName, draft.metadata with
  | some fileName, some metadata => .ok ⟨fileName, metadata, draft.sourceName.getD none⟩
  | _, _ => .error .shape

/-- The value of a member after its name. -/
def memberValue {α : Type} (value : Reader α) (known : Bool) (input : List Char) :
    Except Fault (α × List Char) := do
  if known then .error .shape
  else
    let (_, rest) ← colon input
    value rest

/-- Read one member of an entry point. -/
def readMember (draft : Draft) (name : List Char) (input : List Char) :
    Except Fault (Draft × List Char) := do
  if name = "filename".toList then
    let (text, rest) ← memberValue readText draft.fileName.isSome input
    return ({ draft with fileName := some text }, rest)
  else if name = "user_meta".toList then
    let (text, rest) ← memberValue readText draft.metadata.isSome input
    return ({ draft with metadata := some text }, rest)
  else if name = "original_function_name".toList then
    let (text, rest) ← memberValue readTextOrNull draft.sourceName.isSome input
    return ({ draft with sourceName := some text }, rest)
  else
    let (_, rest) ← memberValue skipValue false input
    return (draft, rest)

/-- The next item of an array that stands for an object, if there is one. -/
def readItem {α : Type} (first : Bool) (value : Reader α) (input : List Char) :
    Except Fault (Option α × List Char) := do
  let (more, rest) ← nextItem first input
  if more then
    let (item, rest) ← value rest
    return (some item, rest)
  else
    return (none, rest)

/-- An item that must be there. -/
def require {α : Type} : Option α → Except Fault α
  | some item => .ok item
  | none => .error .shape

/-- The items of an array that stands for an entry point. -/
def readEntryItems (input : List Char) : Except Fault (EntryPoint × List Char) := do
  let (fileName, rest) ← readItem true readText input
  let fileName ← require fileName
  let (metadata, rest) ← readItem false readText rest
  let metadata ← require metadata
  let (sourceName, rest) ← readItem false readTextOrNull rest
  return (⟨fileName, metadata, sourceName.getD none⟩, rest)

/-- An entry point. -/
def readEntry (input : List Char) : Except Fault (EntryPoint × List Char) :=
  match skipSpaces input with
  | [] => .error .ended
  | '[' :: rest => do
    let (entry, rest) ← readEntryItems rest
    let (_, rest) ← closeArray rest
    return (entry, rest)
  | '{' :: rest => do
    let (draft, rest) ←
      foldMembers readString readMember (rest.length + 1) true ⟨none, none, none⟩ rest
    let entry ← draft.finish
    let (_, rest) ← closeObject rest
    return (entry, rest)
  | other => .error (wrongKind other)

/-- An array of entry points. -/
def readEntries (input : List Char) : Except Fault (List EntryPoint × List Char) :=
  match skipSpaces input with
  | [] => .error .ended
  | '[' :: rest => do
    let step := fun entries input => do
      let (entry, rest) ← readEntry input
      return (entries ++ [entry], rest)
    let (entries, rest) ← foldItems step (rest.length + 1) true [] rest
    let (_, rest) ← closeArray rest
    return (entries, rest)
  | other => .error (wrongKind other)

/-- Read one member of a manifest. -/
def readManifestMember (entries : Option (List EntryPoint)) (name : List Char) (input : List Char) :
    Except Fault (Option (List EntryPoint) × List Char) := do
  if name = "entry_points".toList then
    let (list, rest) ← memberValue readEntries entries.isSome input
    return (some list, rest)
  else
    let (_, rest) ← memberValue skipValue false input
    return (entries, rest)

/-- A manifest, with what follows it. -/
def readManifest (input : List Char) : Except Fault (Manifest × List Char) :=
  match skipSpaces input with
  | [] => .error .ended
  | '[' :: rest => do
    let (entries, rest) ← readItem true readEntries rest
    let entries ← require entries
    let (_, rest) ← closeArray rest
    return (⟨entries⟩, rest)
  | '{' :: rest => do
    let (entries, rest) ← foldMembers readString readManifestMember (rest.length + 1) true none rest
    let entries ← require entries
    let (_, rest) ← closeObject rest
    return (⟨entries⟩, rest)
  | other => .error (wrongKind other)

/-- The manifest that a whole text is. -/
def read (text : String) : Except Fault Manifest := do
  let (manifest, rest) ← readManifest text.toList
  if (skipSpaces rest).isEmpty then return manifest else .error .text

/-- A member of an object in its written form. -/
def writeMember (name value : String) : List Char :=
  quote name ++ ':' :: quote value

/-- The written form of an entry point. -/
def writeEntry (entry : EntryPoint) : List Char :=
  '{' :: writeMember "filename" entry.fileName ++ ',' :: writeMember "user_meta" entry.metadata ++
    (match entry.sourceName with
      | none => []
      | some name => ',' :: writeMember "original_function_name" name) ++ ['}']

/-- The written form of a manifest. -/
def write (manifest : Manifest) : String :=
  String.ofList ('{' :: quote "entry_points" ++ [':', '['] ++
    List.intercalate [','] (manifest.entries.map writeEntry) ++ [']', '}'])

/-- Where the manifest of a built binary lies: its path with the extension replaced. -/
def extension : String := "json"

end Manifest

end FunctionBundler
