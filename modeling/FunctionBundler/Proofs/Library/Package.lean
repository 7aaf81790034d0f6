/-
Module: FunctionBundler.Proofs.Library.Package
Purpose: What is read from a package listing: the paths of shared objects, as they are listed.
Trusted boundary: none
Main exports:
  IsVersion, IsObjectName, isSharedObject_iff, PackageTool.Names, PackageTool.IsObject,
  PackageTool.Lists, PackageTool.contents_eq_iff, PackageTool.contents_exact
-/
import FunctionBundler.Library.Package
import FunctionBundler.Path.Normal
import FunctionBundler.Proofs.Text.Lines

namespace FunctionBundler

/-!
A name can be split before `.so` in several places, so all of them are tried; that some
split leaves version groups is then a matter of the name alone.  Tools differ in which
lines are paths and how a path is written, and in nothing else: each filled line is either
a path to a shared object, which is kept where it stands, or passed over.
-/

/-! ### Names -/

/-- Version groups: dots with ASCII digits after each. -/
def IsVersion (text : List Char) : Prop :=
  ∃ groups : List (List Char), (∀ group ∈ groups, group ≠ [] ∧ ∀ c ∈ group, c.isDigit = true) ∧
    text = groups.flatMap ('.' :: ·)

/-- Names of shared objects: something, `.so`, and version groups. -/
def IsObjectName (name : List Char) : Prop :=
  '/' ∉ name ∧
    ∃ base version, base ≠ [] ∧ IsVersion version ∧ name = base ++ (".so".toList ++ version)

variable {text : List Char}

private theorem isVersion_iff : isVersion text = true ↔ IsVersion text := by
  constructor
  · intro holds
    rw [isVersion] at holds
    split at holds
    case h_1 groups cut =>
        refine ⟨groups, fun group member => ?_, ?_⟩
        · have digits := List.all_eq_true.mp holds group member
          rwa [Bool.and_eq_true, decide_eq_true_iff, List.all_eq_true] at digits
        · rw [← Text.intercalate_pieces '.' text, cut, Text.intercalate_cons]
          rfl
    case h_2 => cases holds
  · rintro ⟨groups, digits, rfl⟩
    have bare : ∀ group ∈ [] :: groups, '.' ∉ group := by
      refine List.forall_mem_cons.mpr ⟨List.not_mem_nil, fun group member inGroup => ?_⟩
      exact absurd ((digits group member).2 '.' inGroup) (by decide)
    have cut := Text.pieces_intercalate (List.cons_ne_nil _ _) bare
    rw [Text.intercalate_cons, List.nil_append] at cut
    rw [isVersion, cut]
    refine List.all_eq_true.mpr fun group member => ?_
    rw [Bool.and_eq_true, decide_eq_true_iff, List.all_eq_true]
    exact digits group member

private theorem isObjectEnding_iff :
    isObjectEnding text = true ↔ ∃ version, IsVersion version ∧ text = ".so".toList ++ version := by
  rw [isObjectEnding, Bool.and_eq_true, List.isPrefixOf_iff_prefix, isVersion_iff]
  constructor
  · rintro ⟨⟨version, rfl⟩, isVersion⟩
    exact ⟨version, isVersion, rfl⟩
  · rintro ⟨version, isVersion, rfl⟩
    exact ⟨List.prefix_append _ _, isVersion⟩

/-- Every ending is tried. -/
theorem endsAsObject_iff :
    endsAsObject text = true ↔
      ∃ before after, isObjectEnding after = true ∧ text = before ++ after := by
  induction text with
  | nil =>
      refine iff_of_false Bool.false_ne_true ?_
      rintro ⟨before, after, ends, split⟩
      rw [(List.append_eq_nil_iff.mp split.symm).2] at ends
      cases ends
  | cons c rest ih =>
      rw [endsAsObject, Bool.or_eq_true, ih]
      constructor
      · rintro (ends | ⟨before, after, ends, rfl⟩)
        · exact ⟨[], c :: rest, ends, rfl⟩
        · exact ⟨c :: before, after, ends, rfl⟩
      · rintro ⟨before, after, ends, split⟩
        rcases List.cons_eq_append_iff.mp split with ⟨rfl, rfl⟩ | ⟨before, rfl, rfl⟩
        · exact Or.inl ends
        · exact Or.inr ⟨before, after, ends, rfl⟩

/-- Shared objects are recognized by their names. -/
theorem isSharedObject_iff {name : String} :
    isSharedObject name = true ↔ IsObjectName name.toList := by
  rw [isSharedObject, IsObjectName]
  split
  case h_1 empty =>
      refine iff_of_false Bool.false_ne_true ?_
      rintro ⟨-, base, version, something, -, split⟩
      exact something (List.append_eq_nil_iff.mp (split.symm.trans empty)).1
  case h_2 c rest given =>
      have bare : (c :: rest).all (· ≠ '/') = true ↔ '/' ∉ c :: rest := by
        simp only [List.all_eq_true, decide_eq_true_iff]
        constructor
        · exact fun each member => each _ member rfl
        · exact fun absent d member same => absent (same ▸ member)
      rw [Bool.and_eq_true, bare, given, endsAsObject_iff]
      refine and_congr_right' ⟨?_, ?_⟩
      · rintro ⟨before, after, ends, rfl⟩
        obtain ⟨version, isVersion, rfl⟩ := isObjectEnding_iff.mp ends
        exact ⟨c :: before, version, List.cons_ne_nil _ _, isVersion, rfl⟩
      · rintro ⟨base, version, something, isVersion, split⟩
        obtain ⟨before, rfl, rfl⟩ := (List.cons_eq_append_iff.mp split).resolve_left
          fun empty => something empty.1
        exact ⟨before, _, isObjectEnding_iff.mpr ⟨version, isVersion, rfl⟩, rfl⟩

/-- Only the last `.so` has version groups behind it, and a name is more than `.so`. -/
example : ["a.so.1.so.2", "libc.so.6", ".so.6", "x.so.", "libc.so.6.debug"].map isSharedObject =
    [true, true, false, false, false] := by
  decide +kernel

namespace PackageTool

/-! ### Lines -/

/-- The path on a filled line.  Two tools write paths from the root on, which is where other lines
do not begin; the third writes what comes below the root. -/
inductive Names : PackageTool → List Char → Path → Prop
  | absolute {tool rest} (different : tool ≠ .apk) :
    Names tool ('/' :: rest) ⟨String.ofList ('/' :: rest)⟩
  | relative {separators rest} (all : ∀ c ∈ separators, c = '/') (below : rest.head? ≠ some '/') :
    Names .apk (separators ++ rest) ⟨String.ofList ('/' :: rest)⟩

/-- A path to a shared object: its last component is the name of one. -/
def IsObject (path : Path) : Prop :=
  ∃ name, path.fileName? = some name ∧ IsObjectName name.toList

/-- The shared objects on filled lines, line by line. -/
inductive Lists (tool : PackageTool) : List (List Char) → List Path → Prop
  | done : Lists tool [] []
  | object {line path lines paths} (named : Names tool line path) (isObject : IsObject path)
      (others : Lists tool lines paths) : Lists tool (line :: lines) (path :: paths)
  | other {line lines paths} (passed : ∀ path, Names tool line path → ¬IsObject path)
      (others : Lists tool lines paths) : Lists tool (line :: lines) paths

/-- The lines after the header, for the tool that writes one. -/
def body : PackageTool → List (List Char) → List (List Char)
  | .apk, lines => lines.drop 1
  | _, lines => lines

/-- The path that is read from a filled line. -/
def pathOn? (tool : PackageTool) (line : List Char) : Option Path :=
  match tool with
  | .apk => some ⟨String.ofList ('/' :: line.dropWhile (· = '/'))⟩
  | _ => if line.head? = some '/' then some ⟨String.ofList line⟩ else none

/-- The path to a shared object that is read from a filled line. -/
def objectOn? (tool : PackageTool) (line : List Char) : Option Path :=
  (tool.pathOn? line).filter fun path => path.fileName?.any isSharedObject

variable {tool : PackageTool} {line : List Char} {path : Path} {paths : List Path}
  {lines : List (List Char)}

private theorem names_iff : Names tool line path ↔ tool.pathOn? line = some path := by
  constructor
  · intro named
    cases named with
    | absolute different =>
        cases tool with
        | dpkg => rfl
        | rpm => rfl
        | apk => exact absurd rfl different
    | @relative separators rest all below =>
        have dropped : (separators ++ rest).dropWhile (· = '/') = rest := by
          rw [List.dropWhile_append_of_pos fun c member => decide_eq_true (all c member)]
          exact Text.dropWhile_eq_self fun c head =>
            decide_eq_false fun same => below (same ▸ head)
        rw [pathOn?, dropped]
  · intro read
    have absolute (different : tool ≠ .apk)
        (read : (if line.head? = some '/' then some ⟨String.ofList line⟩ else none) = some path) :
        Names tool line path := by
      split at read
      case isTrue starts =>
          obtain ⟨rest, rfl⟩ := List.head?_eq_some_iff.mp starts
          cases read
          exact .absolute different
      case isFalse => cases read
    cases tool with
    | dpkg => exact absolute nofun read
    | rpm => exact absolute nofun read
    | apk =>
        cases read
        have below : (line.dropWhile (· = '/')).head? ≠ some '/' := by
          intro head
          have differs := List.head?_dropWhile_not (· = '/') line
          rw [head] at differs
          cases differs
        have all : ∀ c ∈ line.takeWhile (· = '/'), c = '/' := fun c member =>
          of_decide_eq_true (Text.holds_of_mem_takeWhile member)
        have named := Names.relative all below
        rwa [List.takeWhile_append_dropWhile] at named

private theorem isObject_iff : path.fileName?.any isSharedObject = true ↔ IsObject path := by
  rw [IsObject]
  cases path.fileName? with
  | none => exact iff_of_false Bool.false_ne_true nofun
  | some name =>
      rw [Option.any_some, isSharedObject_iff]
      simp

private theorem objectOn?_eq_some_iff :
    tool.objectOn? line = some path ↔ Names tool line path ∧ IsObject path := by
  rw [objectOn?, Option.filter_eq_some_iff, isObject_iff, names_iff]

private theorem objectOn?_eq_none_iff :
    tool.objectOn? line = none ↔ ∀ path, Names tool line path → ¬IsObject path := by
  simp only [Option.eq_none_iff_forall_not_mem, Option.mem_def, objectOn?_eq_some_iff, not_and]

instance : DecidablePred IsObject :=
  fun _ => decidable_of_iff _ isObject_iff

/-- A listing is read line by line. -/
theorem contents_eq (tool : PackageTool) (text : String) :
    tool.contents text =
      (tool.body (Text.filled (Text.lines text.toList))).filterMap tool.objectOn? := by
  have absolute (lines : List (List Char)) :
      ((lines.filter (·.head? = some '/')).map fun line => (⟨String.ofList line⟩ : Path)) =
        lines.filterMap fun line =>
          if line.head? = some '/' then some ⟨String.ofList line⟩ else none := by
    rw [← List.filterMap_eq_map, List.filterMap_filter]
    simp
  have listed : tool.listedPaths text =
      (tool.body (Text.filled (Text.lines text.toList))).filterMap tool.pathOn? := by
    cases tool with
    | dpkg => exact absolute _
    | rpm => exact absolute _
    | apk => exact (congrFun List.filterMap_eq_map _).symm
  rw [contents, listed, List.filter_filterMap]
  rfl

private theorem lists_iff : Lists tool lines paths ↔ lines.filterMap tool.objectOn? = paths := by
  constructor
  · intro lists
    induction lists with
    | done => rfl
    | object named isObject _ ih =>
        rw [List.filterMap_cons_some (objectOn?_eq_some_iff.mpr ⟨named, isObject⟩), ih]
    | other passed _ ih => rw [List.filterMap_cons_none (objectOn?_eq_none_iff.mpr passed), ih]
  · rintro rfl
    induction lines with
    | nil => exact .done
    | cons line lines ih =>
        cases read : tool.objectOn? line with
        | none =>
            rw [List.filterMap_cons_none read]
            exact .other (objectOn?_eq_none_iff.mp read) ih
        | some path =>
            rw [List.filterMap_cons_some read]
            obtain ⟨named, isObject⟩ := objectOn?_eq_some_iff.mp read
            exact .object named isObject ih

/-- What is read from a listing is what it lists. -/
theorem contents_eq_iff {text : String} :
    tool.contents text = paths ↔
      Lists tool (tool.body (Text.filled (Text.lines text.toList))) paths := by
  rw [contents_eq, lists_iff]

/-! ### Written listings -/

/-- Paths of shared objects that survive being written: absolute ones in plain spelling, without
blanks. -/
structure Writable (path : Path) : Prop where
  absolute : path.isAbsolute = true
  plain : path.normalize = path
  isObject : IsObject path
  solid : ∀ c ∈ path.chars, Text.isBlank c = false

namespace Writable

variable (writable : Writable path)
include writable

private theorem exists_below : ∃ rest, path.chars = '/' :: rest ∧ rest.head? ≠ some '/' := by
  have shape := Path.chars_normalize_of_isAbsolute writable.absolute
  rwa [writable.plain] at shape

private theorem objectOn?_absolute (different : tool ≠ .apk) :
    tool.objectOn? (Text.trimBlank path.chars) = some path := by
  rw [Text.trimBlank_of_solid writable.solid]
  obtain ⟨rest, spelled, -⟩ := writable.exists_below
  have named := @Names.absolute tool rest different
  rw [← spelled, Path.chars, String.ofList_toList] at named
  exact objectOn?_eq_some_iff.mpr ⟨named, writable.isObject⟩

private theorem objectOn?_relative :
    PackageTool.apk.objectOn? (Text.trimBlank (path.chars.drop 1)) = some path := by
  obtain ⟨rest, spelled, below⟩ := writable.exists_below
  have named := Names.relative (List.forall_mem_nil _) below
  rw [List.nil_append, ← spelled, Path.chars, String.ofList_toList] at named
  rw [Text.trimBlank_of_solid fun c member => writable.solid c (List.mem_of_mem_drop member),
    spelled]
  exact objectOn?_eq_some_iff.mpr ⟨named, writable.isObject⟩

end Writable

/-- Paths that are read from their own lines are read from a listing of these lines. -/
theorem filterMap_spelling {spelling : Path → String}
    (reads : ∀ path ∈ paths, tool.objectOn? (Text.trimBlank (spelling path).toList) = some path) :
    (((paths.map spelling).map String.toList).map Text.trimBlank).filterMap tool.objectOn? =
      paths := by
  induction paths with
  | nil => rfl
  | cons path paths ih =>
      obtain ⟨first, others⟩ := List.forall_mem_cons.mp reads
      rw [List.map_cons, List.map_cons, List.map_cons, List.filterMap_cons_some first, ih others]

/-- A written listing with blank lines anywhere is read back. -/
theorem contents_render {header : String} (writable : ∀ path ∈ paths, Writable path)
    (single : ∀ line ∈ lines, '\n' ∉ line)
    (written : (lines.filter fun line => Text.trimBlank line ≠ []) =
      (tool.render header paths).map String.toList) :
    tool.contents (String.ofList (List.intercalate ['\n'] lines)) = paths := by
  rw [contents_eq, String.toList_ofList, Text.filled_lines_intercalate single,
    Text.filled_eq_map, written]
  cases tool with
  | dpkg =>
      exact filterMap_spelling fun path member => (writable path member).objectOn?_absolute nofun
  | rpm =>
      exact filterMap_spelling fun path member => (writable path member).objectOn?_absolute nofun
  | apk =>
      apply filterMap_spelling
      intro path member
      rw [String.toList_ofList]
      exact (writable path member).objectOn?_relative

/-- Listings are filtered exactly.  A name is that of a shared object if it can be split into
something, `.so` and version groups; what is read from a listing is, line by line, the paths with
such names; and a written listing is read back, whatever blank lines there are in it. -/
theorem contents_exact :
    (∀ name, isSharedObject name = true ↔ IsObjectName name.toList) ∧
    (∀ (tool : PackageTool) text paths, tool.contents text = paths ↔
      Lists tool (tool.body (Text.filled (Text.lines text.toList))) paths) ∧
    ∀ (tool : PackageTool) header paths lines, (∀ path ∈ paths, Writable path) →
      (∀ line ∈ lines, '\n' ∉ line) →
      (lines.filter fun line => Text.trimBlank line ≠ []) =
        (tool.render header paths).map String.toList →
      tool.contents (String.ofList (List.intercalate ['\n'] lines)) = paths :=
  ⟨fun _ => isSharedObject_iff, fun _ _ _ => contents_eq_iff, fun _ _ _ _ => contents_render⟩

private theorem contents_exact_apk :
    let paths : List Path := [⟨"/lib/ld-musl-x86_64.so.1"⟩, ⟨"/lib/a.so.1.so"⟩]
    let lines := ["", "musl-1.2.4-r2 contains:", " \t", "lib/ld-musl-x86_64.so.1", "lib/a.so.1.so",
      "\r", ""].map String.toList
    (∀ path ∈ paths, Writable path) ∧ (∀ line ∈ lines, '\n' ∉ line) ∧
      (lines.filter fun line => Text.trimBlank line ≠ []) =
        (apk.render "musl-1.2.4-r2 contains:" paths).map String.toList ∧
      apk.contents (String.ofList (List.intercalate ['\n'] lines)) = paths := by
  intro paths lines
  have writable : ∀ path ∈ paths, Writable path := by
    refine List.forall_mem_cons.mpr ⟨?_, List.forall_mem_singleton.mpr ?_⟩
    · exact ⟨rfl, by decide +kernel, by decide +kernel, Text.solid_of_all (by decide +kernel)⟩
    · exact ⟨rfl, by decide +kernel, by decide +kernel, Text.solid_of_all (by decide +kernel)⟩
  have single : ∀ line ∈ lines, '\n' ∉ line := by decide +kernel
  have written : (lines.filter fun line => Text.trimBlank line ≠ []) =
      (apk.render "musl-1.2.4-r2 contains:" paths).map String.toList := by
    decide +kernel
  exact ⟨writable, single, written, contents_exact.2.2 _ _ _ _ writable single written⟩

end PackageTool

end FunctionBundler
