/-
Module: FunctionBundler.Proofs.Archive.Order
Purpose: In which order libraries are listed and bundled, and when it is that of their texts.
Trusted boundary: none
Main exports:
  LibraryPath.TextBefore, LibraryPath.text_inj, LibrarySet.pairwise_textBefore_iff,
  Archive.BundlesBy, LibraryPath.ordered_by_components, LibraryPath.order_not_by_text
-/
import FunctionBundler.Proofs.Archive.Layout
import FunctionBundler.Proofs.Path.Order

namespace FunctionBundler

/-!
A library is its plain text, as far as equality goes.  Sets and archives are in the order of
components, and so is the choice between libraries of one file name.  Where the texts of no
two libraries cross, that is the order of the texts; a directory whose name continues that
of another one with a character below the separator makes them cross.
-/

namespace LibraryPath

variable {first second : LibraryPath}

/-- The order of libraries by the components of their paths. -/
def PathBefore (first second : LibraryPath) : Prop :=
  Path.Precedes first.path.components second.path.components

/-- The order of libraries by the bytes of their texts. -/
def TextBefore (first second : LibraryPath) : Prop :=
  Bytes.ofText first.text < Bytes.ofText second.text

instance : DecidableRel TextBefore :=
  fun _ _ => inferInstanceAs (Decidable (_ < _))

/-- The texts of two libraries are not in the order of their paths. -/
def Crosses (first second : LibraryPath) : Prop :=
  Path.Crosses first.path.components second.path.components

/-- The plain text of a path names the library that the path names. -/
theorem ofPath_text (path : Path) : ofPath ⟨(ofPath path).text⟩ = ofPath path :=
  components_injective (by
    change path.normalize.normalize.components = path.normalize.components
    rw [Path.normalize_normalize])

/-- Libraries are told apart by their texts. -/
theorem text_inj : first.text = second.text ↔ first = second := by
  refine ⟨fun same => components_injective (congrArg (fun text => Path.components ⟨text⟩) same), ?_⟩
  exact congrArg text

/-- Libraries are ordered as their paths are. -/
theorem compare_eq_lt_iff : first.compare second = .lt ↔ PathBefore first second :=
  Path.compare_eq_lt_iff

private theorem textBefore_iff (before : PathBefore first second) :
    TextBefore first second ↔ ¬Crosses first second := by
  have ordered := Path.text_lt_iff (compare_eq_lt_iff.mpr before)
  rw [first.plain, second.plain] at ordered
  exact Bytes.ofText_lt_iff.trans ordered

private theorem pathBefore_trichotomy (first second : LibraryPath) :
    PathBefore first second ∨ first = second ∨ PathBefore second first := by
  rw [← compare_eq_lt_iff, ← compare_eq_lt_iff, ← compare_eq_iff, compare_swap first second]
  cases first.compare second with
  | lt => exact Or.inl rfl
  | eq => exact Or.inr (Or.inl rfl)
  | gt => exact Or.inr (Or.inr rfl)

private theorem not_pathBefore_swap (before : PathBefore first second) :
    ¬PathBefore second first := by
  rw [← compare_eq_lt_iff] at before ⊢
  exact LibrarySet.not_below_swap before

private theorem not_textBefore_swap (before : TextBefore first second) : ¬TextBefore second first :=
  List.lt_asymm before

end LibraryPath

open LibraryPath

namespace LibrarySet

variable {set : LibrarySet}

/-- The texts of all members are in the order of their paths. -/
def Straight (set : LibrarySet) : Prop :=
  ∀ first ∈ set, ∀ second ∈ set, PathBefore first second → ¬Crosses first second

private theorem pairwise_pathBefore (set : LibrarySet) : set.paths.Pairwise PathBefore :=
  set.sorted.imp compare_eq_lt_iff.mp

/-- A set is listed in the order of texts exactly if no two members cross. -/
theorem pairwise_textBefore_iff : set.paths.Pairwise TextBefore ↔ set.Straight := by
  have sorted := set.pairwise_pathBefore
  constructor
  · intro byText first inSet second inSet' before
    rw [List.pairwise_iff_getElem] at sorted byText
    obtain ⟨i, inside, rfl⟩ := List.getElem_of_mem inSet
    obtain ⟨j, inside', rfl⟩ := List.getElem_of_mem inSet'
    rcases Nat.lt_trichotomy i j with earlier | rfl | later
    · exact (textBefore_iff before).mp (byText i j inside inside' earlier)
    · exact absurd before (not_pathBefore_swap before)
    · exact absurd before (not_pathBefore_swap (sorted j i inside' inside later))
  · intro straight
    refine sorted.imp_of_mem fun inSet inSet' before => ?_
    exact (textBefore_iff before).mpr (straight _ inSet _ inSet' before)

/-- Without crossings the two orders are one on the members. -/
theorem Straight.pathBefore_iff (straight : set.Straight) {first second : LibraryPath}
    (inSet : first ∈ set) (inSet' : second ∈ set) :
    PathBefore first second ↔ TextBefore first second := by
  refine ⟨fun before => (textBefore_iff before).mpr (straight _ inSet _ inSet' before), ?_⟩
  intro byText
  rcases pathBefore_trichotomy first second with before | rfl | behind
  · exact before
  · exact absurd byText (not_textBefore_swap byText)
  · have other := (textBefore_iff behind).mpr (straight _ inSet' _ inSet behind)
    exact absurd byText (not_textBefore_swap other)

end LibrarySet

namespace Archive

/-- An archive bundles by an order: before its executable and its script it lists, in that order,
the first library of each file name. -/
def BundlesBy (before : LibraryPath → LibraryPath → Prop) (files : Files) (root : Option Path)
    (libraries : LibrarySet) (archive : Archive) : Prop :=
  ∃ kept bundled others, archive.entries = bundled ++ others ∧ others.length = 2 ∧
    List.Forall₂ (Carries files root) kept bundled ∧ kept.Pairwise before ∧
    ∀ library, library ∈ kept ↔ library ∈ libraries ∧
      ∀ other ∈ libraries, other.fileName = library.fileName →
        other = library ∨ before library other

variable {writer : Zip.Writer} {files : Files} {executable : Path} {libraries : LibrarySet}
  {root : Option Path} {withLibc : Bool} {archive : Archive}

private theorem bundlesBy_path
    (built : build writer files executable libraries root withLibc = .ok archive) :
    BundlesBy PathBefore files root libraries archive := by
  obtain ⟨name, program, text, kept, bundled, -, -, keeps, carries, entries⟩ :=
    (laidOut_of_build built).entries
  refine ⟨kept, bundled, _, entries, rfl, carries, keeps.sorted.imp compare_eq_lt_iff.mp, ?_⟩
  intro library
  rw [keeps.mem_iff, IsFirst]
  simp only [compare_eq_lt_iff]

private theorem bundlesBy_text
    (built : build writer files executable libraries root withLibc = .ok archive)
    (straight : libraries.Straight) : BundlesBy TextBefore files root libraries archive := by
  obtain ⟨kept, bundled, others, entries, two, carries, sorted, first⟩ := bundlesBy_path built
  refine ⟨kept, bundled, others, entries, two, carries, ?_, fun library => ?_⟩
  · refine sorted.imp_of_mem fun inKept inKept' before => ?_
    exact (straight.pathBefore_iff ((first _).mp inKept).1 ((first _).mp inKept').1).mp before
  · rw [first]
    refine and_congr_right fun inSet => forall₂_congr fun other inSet' => ?_
    exact imp_congr_right fun _ => or_congr_right (straight.pathBefore_iff inSet inSet')

end Archive

namespace LibraryPath

/-- Libraries are told apart by their plain texts, but ordered by the components of their paths, and
so are the members of a set, the libraries in an archive, and those of one file name, of which the
first is bundled.  Two libraries are in the order of their texts exactly if these do not cross, a
set exactly if no two members do, and then its archives are so in everything. -/
theorem ordered_by_components (path : Path) (first second : LibraryPath)
    (libraries : LibrarySet) :
    ofPath ⟨(ofPath path).text⟩ = ofPath path ∧
    (first = second ↔ first.text = second.text) ∧
    (first.compare second = .lt ↔ PathBefore first second) ∧
    (PathBefore first second → (TextBefore first second ↔ ¬Crosses first second)) ∧
    libraries.paths.Pairwise PathBefore ∧
    (libraries.paths.Pairwise TextBefore ↔ libraries.Straight) ∧
    ∀ (writer : Zip.Writer) (files : Files) (executable : Path) (root : Option Path)
      (withLibc : Bool) (archive : Archive),
      Archive.build writer files executable libraries root withLibc = .ok archive →
        Archive.BundlesBy PathBefore files root libraries archive ∧
        (libraries.Straight → Archive.BundlesBy TextBefore files root libraries archive) :=
  ⟨ofPath_text path, text_inj.symm, compare_eq_lt_iff, textBefore_iff,
    libraries.pairwise_pathBefore, LibrarySet.pairwise_textBefore_iff,
    fun _ _ _ _ _ _ built => ⟨Archive.bundlesBy_path built, Archive.bundlesBy_text built⟩⟩

/-- Two directories whose names differ in a letter are in the order of their texts, and so is what
an archive bundles of the copies in them. -/
theorem ordered_by_components_letter :
    let first : LibraryPath := .ofPath ⟨"/lib/a/libx.so"⟩
    let second : LibraryPath := .ofPath ⟨"/lib/b//./libx.so"⟩
    let libraries : LibrarySet := .ofList [second, first]
    let files : Files := ⟨[], [(["app"], .file [7]), (["lib"], .directory),
      (["lib", "a"], .directory), (["lib", "a", "libx.so"], .file [1]),
      (["lib", "b"], .directory), (["lib", "b", "libx.so"], .file [2])]⟩
    PathBefore first second ∧ TextBefore first second ∧ ¬Crosses first second ∧
      libraries.Straight ∧
      ∃ archive, Archive.build .standard files ⟨"/app"⟩ libraries none false = .ok archive ∧
        Archive.BundlesBy TextBefore files none libraries archive := by
  intro first second libraries files
  obtain ⟨-, -, byPath, byText, -, listed, bundled⟩ :=
    ordered_by_components first.path first second libraries
  have before : PathBefore first second := byPath.mp (by decide +kernel)
  have textBefore : TextBefore first second := by decide +kernel
  have notCrossed : ¬Crosses first second := (byText before).mp textBefore
  have straight : libraries.Straight := listed.mp (by decide +kernel)
  have succeeds : (Archive.build .standard files ⟨"/app"⟩ libraries none false).isOk = true := by
    decide +kernel
  refine ⟨before, textBefore, notCrossed, straight, ?_⟩
  cases built : Archive.build .standard files ⟨"/app"⟩ libraries none false with
  | error failure =>
      rw [built] at succeeds
      cases succeeds
  | ok archive => exact ⟨archive, rfl, (bundled _ _ _ _ _ _ built).2 straight⟩

/-- A directory whose name goes on with a hyphen comes after the shorter one, but its text comes
before; so of two copies the one is bundled whose text is the greater. -/
theorem order_not_by_text :
    let first : LibraryPath := .ofPath ⟨"/lib/a/libx.so"⟩
    let second : LibraryPath := .ofPath ⟨"/lib/a-b/libx.so"⟩
    let libraries : LibrarySet := .ofList [second, first]
    let files : Files := ⟨[], [(["app"], .file [7]), (["lib"], .directory),
      (["lib", "a"], .directory), (["lib", "a", "libx.so"], .file [1]),
      (["lib", "a-b"], .directory), (["lib", "a-b", "libx.so"], .file [2])]⟩
    TextBefore second first ∧ first.compare second = .lt ∧ libraries.paths = [first, second] ∧
      ∃ archive, Archive.build .standard files ⟨"/app"⟩ libraries none false = .ok archive ∧
        Archive.named "lib/libx.so" archive.entries = [Archive.libraryEntry first [1]] := by
  intro first second libraries files
  refine ⟨by decide +kernel, by decide +kernel, by decide +kernel, ?_⟩
  have bundled : (Archive.build .standard files ⟨"/app"⟩ libraries none false).toOption.map
      (fun archive => Archive.named "lib/libx.so" archive.entries) =
        some [Archive.libraryEntry first [1]] := by
    decide +kernel
  cases built : Archive.build .standard files ⟨"/app"⟩ libraries none false with
  | error failure =>
      rw [built] at bundled
      cases bundled
  | ok archive =>
      rw [built] at bundled
      exact ⟨archive, rfl, Option.some.inj bundled⟩

end LibraryPath

end FunctionBundler
