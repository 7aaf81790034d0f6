/-
Module: FunctionBundler.Proofs.Library.Sysroot
Purpose: Where the libraries of a listing are read under a sysroot, and when it is their place
  there.
Trusted boundary: none
Main exports:
  LibraryPath.components_under, LibraryPath.steps_under, LibraryPath.read_under,
  Archive.source_beneath, Archive.source_escapes
-/
import FunctionBundler.Archive
import FunctionBundler.Proofs.Files.Rooted
import FunctionBundler.Proofs.Library.Listing

namespace FunctionBundler

/-!
Under a sysroot a library has the components of the sysroot and, behind them, those of its own
path without the root.  Read in the sysroot as a file system of its own, that is the same path
with one difference: the root is its own parent there, while the sysroot has a parent
like every other directory.  So a path whose `..` never lead above the root is read where it
means, and every other one takes directories of the sysroot away.
-/

namespace LibraryPath

open FunctionBundler.Path Files

variable {library : LibraryPath} {sysroot : Path} {files : Files}

private theorem stepsOnly_below : (ofComponents library.path.body).StepsOnly := by
  have steps : ∀ c ∈ library.path.body, c.IsStep := fun c member => isStep_of_mem_body member
  rw [StepsOnly, components_ofComponents_steps steps]
  exact steps

section

variable (rooted : library.path.isAbsolute = true)
include rooted

private theorem filter_components :
    library.path.components.filter (· ≠ .root) = library.path.body := by
  rw [components_of_isAbsolute rooted, List.filter_cons_of_neg (by simp), List.filter_eq_self]
  exact fun c member => decide_eq_true (isStep_of_mem_body member).ne_root

/-- The text of a library's path is a separator and the text of the path below the root. -/
theorem chars_path : library.path.chars = '/' :: (ofComponents library.path.body).chars := by
  have spelled : library.path = ofComponents (.root :: library.path.body) := by
    conv => lhs; rw [← library.plain, Path.normalize, components_of_isAbsolute rooted]
  have below : ofComponents library.path.body =
      ofPieces (library.path.body.map fun c => c.text.toList) := by
    cases steps : library.path.body with
    | nil => rfl
    | cons c others =>
        have step : c.IsStep := isStep_of_mem_body (steps ▸ List.mem_cons_self)
        cases c with
        | root => exact absurd rfl step.ne_root
        | current | parent | name => rfl
  rw [below]
  conv => lhs; rw [spelled, ofComponents, chars, String.toList_ofList]
  rw [ofPieces, chars, String.toList_ofList]

private theorem under_eq (sysroot : Path) :
    library.under sysroot = sysroot.join (ofComponents library.path.body) := by
  rw [under, filter_components rooted]

/-- Under a sysroot, the body of a library's path follows the sysroot. -/
theorem components_under (absolute : sysroot.isAbsolute = true) :
    (library.under sysroot).components = sysroot.components ++ library.path.body := by
  have steps : ∀ c ∈ library.path.body, c.IsStep := fun c member => isStep_of_mem_body member
  rw [under_eq rooted, components_join_of_stepsOnly absolute stepsOnly_below,
    components_ofComponents_steps steps]

/-- The text under a sysroot ends with the text of the library's path. -/
theorem exists_chars_under (absolute : sysroot.isAbsolute = true) :
    ∃ before, (library.under sysroot).chars = before ++ library.path.chars := by
  have nonempty : sysroot.text ≠ "" := by
    intro empty
    rw [isAbsolute, chars, empty, decide_eq_true_iff] at absolute
    cases absolute
  rw [under_eq rooted, join, stepsOnly_below.isAbsolute_eq_false,
    if_neg Bool.false_ne_true, chars_path rooted]
  split
  case isTrue ends =>
      obtain ⟨before, same⟩ := List.getLast?_eq_some_iff.mp (ends.resolve_left nonempty)
      refine ⟨before, ?_⟩
      rw [chars, String.toList_append, ← chars, same, List.append_assoc]
      rfl
  case isFalse =>
      refine ⟨sysroot.chars, ?_⟩
      rw [chars, String.toList_append, String.toList_append, List.append_assoc]
      rfl

/-- Under a sysroot, the library's path is walked behind the sysroot. -/
theorem steps_under (absolute : sysroot.isAbsolute = true) :
    steps (library.under sysroot) = pieceNames sysroot ++ steps library.path := by
  obtain ⟨before, ends⟩ := exists_chars_under rooted absolute
  have separated : endsInSeparator (library.under sysroot) = endsInSeparator library.path := by
    have filled : library.path.chars ≠ [] := by
      rw [chars_path rooted]
      exact List.cons_ne_nil _ _
    rw [endsInSeparator, endsInSeparator, ends, List.getLast?_append_of_ne_nil _ filled]
  have below : pieceNames library.path = pieceNames (ofComponents library.path.body) := by
    have cut : library.path.piecesOf = [] :: (ofComponents library.path.body).piecesOf := by
      rw [piecesOf, chars_path rooted, Text.pieces, if_pos rfl]
      rfl
    rw [pieceNames, cut]
    rfl
  have names : pieceNames (library.under sysroot) =
      pieceNames sysroot ++ pieceNames library.path := by
    rw [below, pieceNames_eq_directoryPieces sysroot, under_eq rooted, pieceNames, pieceNames,
      piecesOf_join_of_relative sysroot stepsOnly_below.isAbsolute_eq_false, List.filter_append,
      List.map_append]
  rw [steps, steps, separated, names]
  split
  case isTrue => exact List.append_assoc ..
  case isFalse => rfl

/-- A text that is accepted under a sysroot is accepted by itself. -/
theorem checkText_of_under (absolute : sysroot.isAbsolute = true)
    (accepted : checkText (library.under sysroot) = .ok ()) : checkText library.path = .ok () := by
  obtain ⟨before, ends⟩ := exists_chars_under rooted absolute
  have text : (library.under sysroot).text = String.ofList before ++ library.path.text := by
    rw [← String.toList_inj, String.toList_append, String.toList_ofList]
    exact ends
  have filled : library.path.text ≠ "" := by
    intro empty
    have shape := chars_path rooted
    rw [chars, empty] at shape
    cases shape
  obtain ⟨clean, -, short⟩ := checkText_eq_ok_iff.mp accepted
  rw [ends, List.mem_append, not_or] at clean
  rw [text, String.utf8ByteSize_append] at short
  exact checkText_eq_ok_iff.mpr ⟨clean.2, filled, by omega⟩

/-- A path that stays below the root is read under a sysroot as in the sysroot as a file system of
its own, faults included. -/
theorem read_under (absolute : sysroot.isAbsolute = true)
    (directory : files.status sysroot = .ok ⟨false, 0⟩)
    (accepted : checkText (library.under sysroot) = .ok ())
    (stays : StaysWithin sysroot.place library.path.body) :
    files.read (library.under sysroot) = (files.rootedAt sysroot.place).read library.path := by
  obtain ⟨reached, stored⟩ := walk_of_status absolute directory
  obtain ⟨parts, walked, meaning⟩ := exists_parts_of_steps library.path
  rw [← meaning] at stays
  have above : (library.under sysroot).isAbsolute = true := by
    rw [under_eq rooted]
    exact isAbsolute_join_of_isAbsolute absolute _
  have located : files.locate (library.under sysroot) =
      ((files.rootedAt sysroot.place).locate library.path).map (sysroot.place ++ ·) := by
    rw [locate_eq_walk accepted, locate_eq_walk (checkText_of_under rooted absolute accepted),
      origin, origin, if_pos above, if_pos rooted, steps_under rooted absolute, walk_append,
      reached, walked]
    exact walk_rootedAt stored stays
  unfold Files.read
  rw [located]
  cases (files.rootedAt sysroot.place).locate library.path with
  | error fault => rfl
  | ok below =>
      dsimp only [Except.map, bind, Except.bind]
      rw [node?_rootedAt stored]

end

end LibraryPath

namespace Archive

open FunctionBundler.Path

/-- What a listing names is read under an absolute sysroot as follows.  By its text the place of the
source lies under the sysroot exactly if the names that the library's path leads to begin with the
directories of the sysroot that its `..` take away; it is the library's own place there exactly if
no beginning of the path has more `..` than names, unless the sysroot is the root of all.  A
file that is read lies at the place of the source; and in the second case the source is read as
the library's path is in the file system of which the sysroot is the root, faults included. -/
theorem source_beneath {sysroot : Path} {text : String} {library : LibraryPath}
    (absolute : sysroot.isAbsolute = true) (listed : library ∈ Listing.libraries text) :
    (sysroot.place <+: (source (some sysroot) library).place ↔
      sysroot.place.rtake (Trail.of library.path.body).up <+: library.path.place) ∧
    ((source (some sysroot) library).place = sysroot.place ++ library.path.place ↔
      StaysWithin sysroot.place library.path.body) ∧
    (∀ files content, Files.read files (source (some sysroot) library) = .ok content →
      files.node? (source (some sysroot) library).place = some (.file content)) ∧
    ∀ files : Files, files.status sysroot = .ok ⟨false, 0⟩ →
      Files.checkText (source (some sysroot) library) = .ok () →
      StaysWithin sysroot.place library.path.body →
      files.read (source (some sysroot) library) =
        (files.rootedAt sysroot.place).read library.path := by
  have rooted := Listing.isAbsolute_of_mem_libraries listed
  have rootless : Component.root ∉ library.path.body := root_not_mem_filterMap
  have outer : (source (some sysroot) library).place = placeFrom sysroot.place library.path.body :=
    place_of_components (library.components_under rooted absolute)
  have inner : library.path.place = placeFrom [] library.path.body := place_of_isAbsolute rooted
  refine ⟨?_, ?_, fun files content found => ?_, fun files directory accepted stays => ?_⟩
  · rw [outer, prefix_placeFrom_iff rootless, inner, placeFrom_nil rootless]
  · rw [outer, inner, placeFrom_eq_append_iff rootless, StaysWithin]
  · have above : (source (some sysroot) library).isAbsolute = true := by
      rw [source, LibraryPath.under_eq rooted]
      exact isAbsolute_join_of_isAbsolute absolute _
    exact Files.node?_of_read above found
  · exact LibraryPath.read_under rooted absolute directory accepted stays

/-- A file system with a library in a sysroot, and another one of the same path beside it. -/
def besideSysroot : Files where
  working := []
  nodes :=
    [(["opt"], .directory), (["opt", "lib"], .directory), (["opt", "sysroot"], .directory),
      (["opt", "sysroot", "lib"], .directory), (["opt", "sysroot", "usr"], .directory),
      (["opt", "lib", "libx.so"], .file (Bytes.ofText "outside")),
      (["opt", "sysroot", "lib", "libx.so"], .file (Bytes.ofText "inside"))]

/-- A run path relative to the binary stays in the sysroot. -/
theorem source_beneath_runPath :
    let sysroot : Path := ⟨"/opt/sysroot/"⟩
    let library := LibraryPath.ofPath ⟨"/usr/./../lib/libx.so"⟩
    library ∈ Listing.libraries "\t/usr/./../lib/libx.so (0x7f00)\n" ∧
      sysroot.isAbsolute = true ∧ besideSysroot.status sysroot = .ok ⟨false, 0⟩ ∧
      Files.checkText (source (some sysroot) library) = .ok () ∧
      StaysWithin sysroot.place library.path.body ∧
      (source (some sysroot) library).place = ["opt", "sysroot"] ++ ["lib", "libx.so"] ∧
      besideSysroot.read (source (some sysroot) library) =
        (besideSysroot.rootedAt ["opt", "sysroot"]).read library.path := by
  intro sysroot library
  have listed : library ∈ Listing.libraries "\t/usr/./../lib/libx.so (0x7f00)\n" := by
    rw [LibrarySet.mem_iff]
    decide +kernel
  have absolute : sysroot.isAbsolute = true := by decide +kernel
  have directory : besideSysroot.status sysroot = .ok ⟨false, 0⟩ := by decide +kernel
  have accepted : Files.checkText (source (some sysroot) library) = .ok () := by decide +kernel
  have stays : StaysWithin sysroot.place library.path.body := Or.inl (by decide +kernel)
  have sysrootPlace : sysroot.place = ["opt", "sysroot"] := by decide +kernel
  have libraryPlace : library.path.place = ["lib", "libx.so"] := by decide +kernel
  obtain ⟨-, below, -, same⟩ := source_beneath absolute listed
  have place := below.mpr stays
  have read := same besideSysroot directory accepted stays
  rw [sysrootPlace] at place read
  rw [libraryPlace] at place
  exact ⟨listed, absolute, directory, accepted, stays, place, read⟩

/-- A `..` that leads above the root leads out of the sysroot, and another file is read than the
library's path means there. -/
theorem source_escapes :
    let sysroot : Path := ⟨"/opt/sysroot"⟩
    let library := LibraryPath.ofPath ⟨"/../lib/libx.so"⟩
    library ∈ Listing.libraries "\t/../lib/libx.so (0x7f00)\n" ∧
      sysroot.isAbsolute = true ∧ .parent ∉ sysroot.components ∧
      (source (some sysroot) library).place = ["opt", "lib", "libx.so"] ∧
      ¬sysroot.place <+: (source (some sysroot) library).place ∧
      besideSysroot.read (source (some sysroot) library) = .ok (Bytes.ofText "outside") ∧
      (besideSysroot.rootedAt sysroot.place).read library.path = .ok (Bytes.ofText "inside") := by
  intro sysroot library
  refine ⟨?_, by decide +kernel, by decide +kernel, by decide +kernel, by decide +kernel,
    by decide +kernel, by decide +kernel⟩
  rw [LibrarySet.mem_iff]
  decide +kernel

end Archive

end FunctionBundler
