/-
Module: FunctionBundler.Library
Purpose: Shared libraries by their path inside a build environment, and sets of them.
Trusted boundary: none
Main exports:
  LibraryPath, LibraryPath.ofPath, LibraryPath.fileName, LibraryPath.isLoader, LibraryPath.under,
  LibrarySet, LibrarySet.insert, LibrarySet.ofList, LibrarySet.loaders
-/
import FunctionBundler.Path.Normal

namespace FunctionBundler

/-!
A library is known by its path inside the build environment, in plain spelling,
so that two spellings of one path are one library.  A set of libraries is a list
in path order without repetition; that order decides which of two libraries of
one file name is bundled, and in which order archives list them.
-/

/-- The path of a library inside the build environment, in plain spelling. -/
structure LibraryPath where
  path : Path
  plain : path.normalize = path
deriving DecidableEq

namespace LibraryPath

/-- The library that a path names. -/
def ofPath (path : Path) : LibraryPath :=
  ⟨path.normalize, path.normalize_normalize⟩

/-- The text of the path. -/
def text (library : LibraryPath) : String :=
  library.path.text

/-- The last component of the path, or nothing for the root and after `..`. -/
def fileName (library : LibraryPath) : String :=
  library.path.fileName?.getD ""

/-- Whether a file name marks a dynamic loader. -/
def isLoaderName (name : String) : Bool :=
  "ld-".toList.isPrefixOf name.toList

/-- Whether the library is a dynamic loader, by its file name. -/
def isLoader (library : LibraryPath) : Bool :=
  isLoaderName library.fileName

/-- Where the library lies when the environment's file system is copied under a directory. -/
def under (library : LibraryPath) (directory : Path) : Path :=
  directory.join (Path.ofComponents (library.path.components.filter (· ≠ .root)))

/-- The order of component lists. -/
abbrev order : List Component → List Component → Ordering :=
  List.compareLex Component.compare

/-- Libraries are ordered by their paths. -/
def compare (first second : LibraryPath) : Ordering :=
  first.path.compare second.path

/-- Libraries are told apart by the components of their paths. -/
theorem components_injective {first second : LibraryPath}
    (same : first.path.components = second.path.components) : first = second := by
  have : first.path = second.path := by
    rw [← first.plain, ← second.plain]
    exact Path.normalize_eq_iff.2 same
  cases first
  cases second
  simp_all

/-- Only a library itself compares equal to it. -/
theorem compare_eq_iff {first second : LibraryPath} :
    first.compare second = .eq ↔ first = second := by
  constructor
  · intro same
    exact components_injective (@Std.LawfulEqCmp.eq_of_compare _ order _ _ _ same)
  · rintro rfl
    exact @Std.ReflCmp.compare_self _ order _ _

theorem compare_trans {first second third : LibraryPath} (one : first.compare second = .lt)
    (two : second.compare third = .lt) : first.compare third = .lt :=
  @Std.TransCmp.lt_trans _ order _ _ _ _ one two

theorem compare_swap (first second : LibraryPath) :
    second.compare first = (first.compare second).swap :=
  @Std.OrientedCmp.eq_swap _ order _ _ _

end LibraryPath

/-- A set of libraries, listed in path order. -/
structure LibrarySet where
  paths : List LibraryPath
  sorted : paths.Pairwise fun first second => first.compare second = .lt
deriving DecidableEq

namespace LibrarySet

instance : Membership LibraryPath LibrarySet where
  mem set library := library ∈ set.paths

theorem mem_iff {library : LibraryPath} {set : LibrarySet} : library ∈ set ↔ library ∈ set.paths :=
  Iff.rfl

/-- The set without members. -/
def empty : LibrarySet := ⟨[], .nil⟩

instance : Inhabited LibrarySet := ⟨empty⟩

/-- Insert a library into a list in path order. -/
def insertPath (library : LibraryPath) : List LibraryPath → List LibraryPath
  | [] => [library]
  | first :: rest =>
    match library.compare first with
    | .lt => library :: first :: rest
    | .eq => first :: rest
    | .gt => first :: insertPath library rest

/-- Inserting a library adds it and nothing else. -/
theorem mem_insertPath {library member : LibraryPath} {paths : List LibraryPath} :
    member ∈ insertPath library paths ↔ member = library ∨ member ∈ paths := by
  induction paths with
  | nil => simp [insertPath]
  | cons first rest ih =>
    simp only [insertPath]
    split
    · simp
    · rename_i same
      rw [LibraryPath.compare_eq_iff.1 same]
      simp
    · simp only [List.mem_cons, ih]
      exact or_left_comm

/-- Inserting keeps the order. -/
theorem sorted_insertPath {library : LibraryPath} {paths : List LibraryPath}
    (sorted : paths.Pairwise fun first second => first.compare second = .lt) :
    (insertPath library paths).Pairwise fun first second => first.compare second = .lt := by
  induction paths with
  | nil => simp [insertPath]
  | cons first rest ih =>
    have ⟨below, rest_sorted⟩ := List.pairwise_cons.1 sorted
    simp only [insertPath]
    split
    · rename_i less
      refine List.pairwise_cons.2 ⟨?_, sorted⟩
      intro member mem
      rcases List.mem_cons.1 mem with rfl | mem
      · exact less
      · exact LibraryPath.compare_trans less (below member mem)
    · exact sorted
    · rename_i greater
      refine List.pairwise_cons.2 ⟨?_, ih rest_sorted⟩
      intro member mem
      rcases mem_insertPath.1 mem with rfl | mem
      · rw [LibraryPath.compare_swap, greater]
        rfl
      · exact below member mem

/-- The set with one more member. -/
def insert (library : LibraryPath) (set : LibrarySet) : LibrarySet :=
  ⟨insertPath library set.paths, sorted_insertPath set.sorted⟩

@[simp] theorem mem_insert {library member : LibraryPath} {set : LibrarySet} :
    member ∈ set.insert library ↔ member = library ∨ member ∈ set :=
  mem_insertPath

@[simp] theorem not_mem_empty {member : LibraryPath} : ¬ member ∈ empty := by
  simp [mem_iff, empty]

/-- The set with the members of a list added one after the other. -/
def insertAll (set : LibrarySet) (libraries : List LibraryPath) : LibrarySet :=
  libraries.foldl (fun set library => set.insert library) set

@[simp] theorem mem_insertAll {member : LibraryPath} {set : LibrarySet}
    {libraries : List LibraryPath} :
    member ∈ set.insertAll libraries ↔ member ∈ set ∨ member ∈ libraries := by
  induction libraries generalizing set with
  | nil => simp [insertAll]
  | cons library rest ih =>
    have rest_mem : member ∈ (set.insert library).insertAll rest ↔
        member ∈ set.insert library ∨ member ∈ rest := ih
    simp only [insertAll, List.foldl_cons, mem_insert, List.mem_cons] at rest_mem ⊢
    rw [rest_mem]
    constructor
    · rintro ((same | mem) | mem) <;> simp_all
    · rintro (mem | same | mem) <;> simp_all

/-- The set of the members of a list. -/
def ofList (libraries : List LibraryPath) : LibrarySet :=
  empty.insertAll libraries

@[simp] theorem mem_ofList {member : LibraryPath} {libraries : List LibraryPath} :
    member ∈ ofList libraries ↔ member ∈ libraries := by
  simp [ofList]

/-- The loaders of a set, in path order. -/
def loaders (set : LibrarySet) : List LibraryPath :=
  set.paths.filter LibraryPath.isLoader

end LibrarySet

end FunctionBundler
