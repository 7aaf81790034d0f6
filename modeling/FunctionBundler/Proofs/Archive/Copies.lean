/-
Module: FunctionBundler.Proofs.Archive.Copies
Purpose: How many libraries of one file name a closure with the C library holds.
Trusted boundary: none
Main exports:
  LibrarySet.copies, LibrarySet.DistinctNames, Closure.copies_of_completes,
  Closure.distinctNames_iff_of_completes, Closure.resolve_base_copies,
  Closure.resolve_base_two_directories
-/
import FunctionBundler.Proofs.Archive.Libraries

namespace FunctionBundler

/-!
What the C library lists is compared with the loaded libraries only, and not with what
of it was taken before.  So a file name that is loaded keeps its loaded libraries, and any
other name comes with as many libraries as the C library lists under it, one for each
directory.  A set in which no name occurs twice needs a C library that lists the names
that are not loaded in one directory each.  A loader that it lists in two directories,
for an executable that loads none, makes the closure fail.
-/

namespace LibrarySet

/-- The libraries of a file name, in path order. -/
def copies (set : LibrarySet) (name : String) : List LibraryPath :=
  set.paths.filter fun library => library.fileName = name

/-- No two libraries of a set have one file name. -/
def DistinctNames (set : LibrarySet) : Prop :=
  (set.paths.map LibraryPath.fileName).Nodup

instance (set : LibrarySet) : Decidable set.DistinctNames :=
  inferInstanceAs (Decidable (List.Nodup _))

@[simp] private theorem mem_copies {set : LibrarySet} {name : String} {library : LibraryPath} :
    library ∈ set.copies name ↔ library ∈ set ∧ library.fileName = name := by
  rw [copies, List.mem_filter, decide_eq_true_iff, mem_iff]

private theorem sorted_copies (set : LibrarySet) (name : String) :
    (set.copies name).Pairwise Below :=
  set.sorted.filter _

private theorem copies_eq_nil_iff {set : LibrarySet} {name : String} :
    set.copies name = [] ↔ ∀ library ∈ set, library.fileName ≠ name := by
  rw [List.eq_nil_iff_forall_not_mem]
  simp only [mem_copies, not_and, ne_eq]

private theorem distinctNames_iff {set : LibrarySet} :
    set.DistinctNames ↔ ∀ name, (set.copies name).length ≤ 1 := by
  rw [DistinctNames, List.nodup_iff_count_le_one]
  refine forall_congr' fun name => ?_
  rw [List.count, List.countP_map, List.countP_eq_length_filter, copies]
  rfl

end LibrarySet

namespace Closure

variable {loaded base libraries : LibrarySet}

/-- Of each file name a closure has what is loaded, or else all that the C library lists. -/
theorem copies_of_completes (completes : Completes loaded base libraries) (name : String) :
    libraries.copies name =
      if loaded.copies name = [] then base.copies name else loaded.copies name := by
  split
  case isTrue unloaded =>
      rw [LibrarySet.copies_eq_nil_iff] at unloaded
      apply (libraries.sorted_copies name).eq_of_mem_iff (base.sorted_copies name)
      intro library
      rw [LibrarySet.mem_copies, LibrarySet.mem_copies, completes library]
      constructor
      · rintro ⟨isLoaded | fromBase, named⟩
        · exact absurd named (unloaded library isLoaded)
        · exact ⟨fromBase.1, named⟩
      · rintro ⟨fromBase, rfl⟩
        exact ⟨Or.inr ⟨fromBase, unloaded⟩, rfl⟩
  case isFalse isLoaded =>
      obtain ⟨own, found⟩ := List.exists_mem_of_ne_nil _ isLoaded
      obtain ⟨ownLoaded, ownName⟩ := LibrarySet.mem_copies.mp found
      apply (libraries.sorted_copies name).eq_of_mem_iff (loaded.sorted_copies name)
      intro library
      rw [LibrarySet.mem_copies, LibrarySet.mem_copies, completes library]
      constructor
      · rintro ⟨isLoaded | fromBase, named⟩
        · exact ⟨isLoaded, named⟩
        · exact absurd (ownName.trans named.symm) (fromBase.2 own ownLoaded)
      · rintro ⟨isLoaded, named⟩
        exact ⟨Or.inl isLoaded, named⟩

/-- Completing a closure keeps its names distinct exactly if the base has at most one copy of each
name that the closure lacks. -/
theorem distinctNames_iff_of_completes (completes : Completes loaded base libraries)
    (distinct : loaded.DistinctNames) :
    libraries.DistinctNames ↔
      ∀ name, loaded.copies name = [] → (base.copies name).length ≤ 1 := by
  rw [LibrarySet.distinctNames_iff] at distinct ⊢
  refine forall_congr' fun name => ?_
  rw [copies_of_completes completes]
  split
  case isTrue unloaded => exact ⟨fun single _ => single, fun single => single unloaded⟩
  case isFalse isLoaded =>
      exact ⟨fun _ unloaded => absurd unloaded isLoaded, fun _ => distinct name⟩

/-- What loads no loader gets those of the C library, all of them. -/
theorem loaders_of_completes (completes : Completes loaded base libraries)
    (none : loaded.loaders = []) : libraries.loaders = base.loaders := by
  have notLoader (own : LibraryPath) (isLoaded : own ∈ loaded) : ¬own.isLoader = true := by
    intro isLoader
    have found := LibrarySet.mem_loaders.mpr ⟨isLoaded, isLoader⟩
    rw [none] at found
    cases found
  apply libraries.sorted_loaders.eq_of_mem_iff base.sorted_loaders
  intro library
  rw [LibrarySet.mem_loaders, LibrarySet.mem_loaders, completes library]
  constructor
  · rintro ⟨isLoaded | fromBase, isLoader⟩
    · exact absurd isLoader (notLoader library isLoaded)
    · exact ⟨fromBase.1, isLoader⟩
  · rintro ⟨fromBase, isLoader⟩
    refine ⟨Or.inr ⟨fromBase, fun own isLoaded same => notLoader own isLoaded ?_⟩, isLoader⟩
    rw [LibraryPath.isLoader, same]
    exact isLoader

private theorem ofLibraries_eq_iff {result : Except Failure Closure} :
    result = ofLibraries libraries ↔
      (∃ loader, libraries.loaders = [loader] ∧ result = .ok ⟨libraries, loader⟩) ∨
        libraries.loaders.length ≠ 1 ∧ result = .error (.ambiguousLoader libraries.loaders) := by
  rw [ofLibraries, Archive.soleLoader]
  split
  case h_1 loader only => simp [only, Except.map]
  case h_2 several =>
      have length : libraries.loaders.length ≠ 1 := by
        intro single
        obtain ⟨loader, only⟩ := List.length_eq_one_iff.mp single
        exact several loader only
      have none : ¬∃ loader, libraries.loaders = [loader] ∧ result = .ok ⟨libraries, loader⟩ := by
        rintro ⟨loader, only, -⟩
        exact several loader only
      simp only [none, length, false_or, ne_eq, not_false_eq_true, true_and]
      rfl

/-- Where an executable loads libraries of different file names, the set that its closure with the C
library is formed of has, of each file name, the loaded library, or else every library that the C
library lists under that name.  So its file names differ exactly if the C library lists each name
that is not loaded in one directory only.  If no loader is loaded, the closure is found exactly if
the C library lists one. -/
theorem resolve_base_copies (executable : Path) (base : LibrarySet)
    (distinct : loaded.DistinctNames) :
    ∃ libraries : LibrarySet,
      (∀ result, Program.Trace (resolve executable true)
        [⟨.dependencies executable, .ok loaded⟩, ⟨.baseLibraries, .ok base⟩] result ↔
          Judges libraries result) ∧
      (∀ name, libraries.copies name =
        if loaded.copies name = [] then base.copies name else loaded.copies name) ∧
      (libraries.DistinctNames ↔
        ∀ name, loaded.copies name = [] → (base.copies name).length ≤ 1) ∧
      (loaded.loaders = [] → ∀ result, Judges libraries result ↔
        (∃ loader, base.loaders = [loader] ∧ result = .ok ⟨libraries, loader⟩) ∨
          base.loaders.length ≠ 1 ∧ result = .error (.ambiguousLoader base.loaders)) := by
  have completes := completes_merge loaded base
  refine ⟨merge loaded base, fun result => ?_, copies_of_completes completes,
    distinctNames_iff_of_completes completes distinct, fun none result => ?_⟩
  · rw [trace_resolve_base_iff]
    constructor
    · intro resolves
      cases resolves with
      | listed formed judges =>
          cases formed.eq_merge
          exact judges
    · exact .listed completes
  · rw [judges_iff, ofLibraries_eq_iff, loaders_of_completes completes none]

/-- Two copies of a loaded library are left out, and the only loader is taken. -/
theorem resolve_base_copies_loaded :
    let own : LibraryPath := .ofPath ⟨"/z/libc.so"⟩
    let loader : LibraryPath := .ofPath ⟨"/b/ld-x.so"⟩
    let loaded : LibrarySet := .ofList [own]
    let base : LibrarySet := .ofList [.ofPath ⟨"/a/libc.so"⟩, loader, .ofPath ⟨"/c/libc.so"⟩]
    loaded.DistinctNames ∧ loaded.loaders = [] ∧
      ∃ libraries : LibrarySet, libraries.copies "libc.so" = [own] ∧
        Program.Trace (resolve ⟨"/a"⟩ true)
          [⟨.dependencies ⟨"/a"⟩, .ok loaded⟩, ⟨.baseLibraries, .ok base⟩]
          (.ok ⟨libraries, loader⟩) := by
  intro own loader loaded base
  have distinct : loaded.DistinctNames := by decide +kernel
  have none : loaded.loaders = [] := by decide +kernel
  obtain ⟨libraries, resolved, copies, -, judged⟩ := resolve_base_copies ⟨"/a"⟩ base distinct
  have only : base.loaders = [loader] := by decide +kernel
  refine ⟨distinct, none, libraries, ?_, ?_⟩
  · have kept : loaded.copies "libc.so" = [own] := by decide +kernel
    rw [copies, kept]
    rfl
  · exact (resolved _).mpr ((judged none _).mpr (Or.inl ⟨loader, only, rfl⟩))

/-- A loader that the C library lists in two directories comes twice, and the closure fails. -/
theorem resolve_base_two_directories :
    let loader : LibraryPath := .ofPath ⟨"/lib64/ld-linux-x86-64.so.2"⟩
    let copy : LibraryPath := .ofPath ⟨"/usr/lib/x86_64-linux-gnu/ld-linux-x86-64.so.2"⟩
    let loaded : LibrarySet := .ofList [.ofPath ⟨"/lib/libc.so.6"⟩]
    let base : LibrarySet := .ofList [loader, copy]
    loaded.DistinctNames ∧ loaded.loaders = [] ∧ loader.fileName = copy.fileName ∧
      ¬(merge loaded base).DistinctNames ∧
      ∀ result, Program.Trace (resolve ⟨"/app"⟩ true)
        [⟨.dependencies ⟨"/app"⟩, .ok loaded⟩, ⟨.baseLibraries, .ok base⟩] result →
          result = .error (.ambiguousLoader [loader, copy]) := by
  intro loader copy loaded base
  have both : (merge loaded base).loaders = [loader, copy] := by decide +kernel
  refine ⟨by decide +kernel, by decide +kernel, by decide +kernel, by decide +kernel,
    fun result resolved => ?_⟩
  have resolves := trace_resolve_base_iff.mp resolved
  cases resolves with
  | listed completes judges =>
      cases completes.eq_merge
      rw [judges_iff.mp judges, ofLibraries, Archive.soleLoader, both]
      rfl

end Closure

end FunctionBundler
