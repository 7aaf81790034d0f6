/-
Module: FunctionBundler.Proofs.Archive.Libraries
Purpose: Which libraries a closure holds, and whose copy of a file name its archive bundles.
Trusted boundary: none
Main exports:
  Closure.Completes, Closure.Judges, Closure.ResolvesWithBase, Closure.trace_resolve_base_iff,
  Archive.exists_least_mem_distinctNames, Closure.resolve_base_never_shadows
-/
import FunctionBundler.Proofs.Archive.Loader
import FunctionBundler.Proofs.Library.Members

namespace FunctionBundler

/-!
Two separate pieces decide which copy of a library is shipped: the closure leaves out
what the C library lists under a file name that the executable loads, and the archive
bundles the first library of a file name in path order.  The second would let a copy of
the C library win that sorts before the loaded one, so the first must not let any
through.  Where it does not, the first library of a loaded name is a loaded library,
whatever directories the others lie in.
-/

namespace Archive

/-! ### The first of a name -/

/-- Of the libraries of a name that was not seen before, the first in path order is kept. -/
theorem exists_least_mem_distinctNames {seen : List String} {libraries : List LibraryPath}
    {library : LibraryPath} (sorted : libraries.Pairwise LibrarySet.Below)
    (member : library ∈ libraries) (fresh : library.fileName ∉ seen) :
    ∃ least ∈ distinctNames seen libraries, least.fileName = library.fileName ∧
      ∀ other ∈ libraries, other.fileName = library.fileName →
        other = least ∨ LibrarySet.Below least other := by
  induction libraries generalizing seen with
  | nil => cases member
  | cons first rest ih =>
      obtain ⟨below, sortedRest⟩ := List.pairwise_cons.mp sorted
      by_cases named : first.fileName = library.fileName
      · rw [distinctNames, named, if_neg fresh]
        refine ⟨first, List.mem_cons_self, named, fun other inList sameName => ?_⟩
        exact (List.mem_cons.mp inList).imp id (below other)
      · have later : library ∈ rest :=
          (List.mem_cons.mp member).resolve_left fun same => named (congrArg _ same.symm)
        have others {kept : List LibraryPath} {least : LibraryPath}
            (found : least ∈ kept ∧ least.fileName = library.fileName ∧
              ∀ other ∈ rest, other.fileName = library.fileName →
                other = least ∨ LibrarySet.Below least other) :
            ∀ other ∈ first :: rest, other.fileName = library.fileName →
              other = least ∨ LibrarySet.Below least other := by
          intro other inList sameName
          rcases List.mem_cons.mp inList with rfl | inRest
          · exact absurd sameName named
          · exact found.2.2 other inRest sameName
        rw [distinctNames]
        split
        case isTrue =>
            obtain ⟨least, found⟩ := ih sortedRest later fresh
            exact ⟨least, found.1, found.2.1, others found⟩
        case isFalse =>
            obtain ⟨least, found⟩ := ih sortedRest later
              (List.not_mem_cons_of_ne_of_not_mem (Ne.symm named) fresh)
            exact ⟨least, List.mem_cons_of_mem first found.1, found.2.1, others found⟩

/-- The entry of a library's name holds the first library of that name in path order. -/
theorem Assembles.exists_least {writer : Zip.Writer} {executable : Path} {libraries : LibrarySet}
    {root : Option Path} {withLibc : Bool} {readings : List Reading} {archive : Archive}
    {library : LibraryPath}
    (assembles : Assembles writer executable libraries root withLibc readings (.ok archive))
    (member : library ∈ libraries) :
    ∃ least ∈ libraries, least.fileName = library.fileName ∧
      (∀ other ∈ libraries, other.fileName = library.fileName →
        other = least ∨ LibrarySet.Below least other) ∧
      ∃ data, (source root least, .ok data) ∈ readings ∧
        named ("lib/" ++ library.fileName) archive.entries = [libraryEntry least data] := by
  obtain ⟨program, binary, text, bundled, entries, -, -, -, rfl, bundles, closes⟩ :=
    assembles.of_ok
  obtain ⟨least, kept, sameName, first⟩ :=
    exists_least_mem_distinctNames libraries.sorted member List.not_mem_nil
  obtain ⟨data, reading, only⟩ :=
    bundles.named_eq (nodup_fileName_distinctNames [] libraries.paths) kept
  have inSet := (notMem_seen_of_mem_distinctNames kept).1
  refine ⟨least, inSet, sameName, first, data, List.mem_cons_of_mem _ reading, ?_⟩
  have others : named ("lib/" ++ library.fileName)
      [executableEntry binary program, bootstrapEntry text] = [] := by
    rw [named_cons_of_ne (lib_ne_bin library.fileName binary).symm,
      named_cons_of_ne (lib_ne_bootstrap library.fileName).symm]
    rfl
  rw [closes.entries, named_append, others, List.append_nil, ← sameName, only]

private theorem Assembles.finish_eq {writer : Zip.Writer} {executable : Path}
    {libraries : LibrarySet}
    {root : Option Path} {withLibc : Bool} {readings : List Reading} {archive : Archive}
    (assembles : Assembles writer executable libraries root withLibc readings (.ok archive)) :
    writer.finish archive.entries = .ok archive.bytes := by
  obtain ⟨_, _, _, _, _, -, -, -, -, -, closes⟩ := assembles.of_ok
  exact closes.bytes

end Archive

namespace Closure

/-! ### What a closure holds -/

/-- A set holds what an executable loads, and of the C library what has a file name that none of
these has. -/
def Completes (loaded base libraries : LibrarySet) : Prop :=
  ∀ library, library ∈ libraries ↔
    library ∈ loaded ∨ library ∈ base ∧ ∀ own ∈ loaded, own.fileName ≠ library.fileName

/-- What becomes of a set of libraries: a closure, if exactly one of them is a loader, and otherwise
a failure that lists the loaders among them in path order. -/
inductive Judges (libraries : LibrarySet) : Except Failure Closure → Prop where
  | sole {loader : LibraryPath} (member : loader ∈ libraries) (isLoader : loader.isLoader = true)
      (only : ∀ other ∈ libraries, other.isLoader = true → other = loader) :
      Judges libraries (.ok ⟨libraries, loader⟩)
  | ambiguous {candidates : List LibraryPath}
      (several : ¬∃! loader, loader ∈ libraries ∧ loader.isLoader = true)
      (sorted : candidates.Pairwise fun first second => first.compare second = .lt)
      (loaders : ∀ library, library ∈ candidates ↔ library ∈ libraries ∧ library.isLoader = true) :
      Judges libraries (.error (.ambiguousLoader candidates))

/-- What is asked for a closure with the C library, and what comes of it. -/
inductive ResolvesWithBase (executable : Path) :
    List (Program.Exchange Operation Operation.Answer) → Except Failure Closure → Prop where
  | unlisted (failure : Failure) :
      ResolvesWithBase executable [⟨.dependencies executable, .error failure⟩] (.error failure)
  | baseless (loaded : LibrarySet) (failure : Failure) :
      ResolvesWithBase executable
        [⟨.dependencies executable, .ok loaded⟩, ⟨.baseLibraries, .error failure⟩] (.error failure)
  | listed {loaded base libraries : LibrarySet} {result : Except Failure Closure}
      (completes : Completes loaded base libraries) (judges : Judges libraries result) :
      ResolvesWithBase executable
        [⟨.dependencies executable, .ok loaded⟩, ⟨.baseLibraries, .ok base⟩] result

/-- Merging completes a closure from the base. -/
theorem completes_merge (loaded base : LibrarySet) :
    Completes loaded base (merge loaded base) := by
  intro library
  rw [merge, LibrarySet.mem_insertAll, List.mem_filter, decide_eq_true_iff, List.mem_map]
  simp only [not_exists, not_and, LibrarySet.mem_iff, ne_eq]

/-- Only merging completes a closure from the base. -/
theorem Completes.eq_merge {loaded base libraries : LibrarySet}
    (completes : Completes loaded base libraries) : libraries = merge loaded base :=
  LibrarySet.ext fun library =>
    (completes library).trans (completes_merge loaded base library).symm

/-- A loader is the only one listed exactly if it is the only one in the set. -/
theorem loaders_eq_singleton_iff {libraries : LibrarySet} {loader : LibraryPath} :
    libraries.loaders = [loader] ↔ (loader ∈ libraries ∧ loader.isLoader = true) ∧
      ∀ other, other ∈ libraries ∧ other.isLoader = true → other = loader := by
  constructor
  · intro only
    exact ⟨Archive.mem_of_loaders_eq only, fun other found =>
      Archive.eq_of_loaders_eq only found.1 found.2⟩
  · rintro ⟨found, only⟩
    apply libraries.sorted_loaders.eq_of_mem_iff (List.pairwise_singleton _ _)
    intro library
    rw [LibrarySet.mem_loaders, List.mem_singleton]
    constructor
    · exact only library
    · rintro rfl
      exact found

/-- What becomes of a set of libraries is what the closure over them comes to. -/
theorem judges_iff {libraries : LibrarySet} {result : Except Failure Closure} :
    Judges libraries result ↔ result = ofLibraries libraries := by
  rw [ofLibraries, Archive.soleLoader]
  constructor
  · intro judges
    cases judges with
    | sole member isLoader only =>
        have alone := loaders_eq_singleton_iff.mpr
          ⟨⟨member, isLoader⟩, fun other found => only other found.1 found.2⟩
        rw [alone]
        rfl
    | @ambiguous candidates several sorted loaders =>
        have same : libraries.loaders = candidates :=
          libraries.sorted_loaders.eq_of_mem_iff sorted fun library =>
            LibrarySet.mem_loaders.trans (loaders library).symm
        rw [← same]
        split
        case h_1 loader only => exact absurd ⟨loader, loaders_eq_singleton_iff.mp only⟩ several
        case h_2 => rfl
  · rintro rfl
    split
    case h_1 loader only =>
        obtain ⟨⟨member, isLoader⟩, only⟩ := loaders_eq_singleton_iff.mp only
        exact .sole member isLoader fun other inSet isLoader => only other ⟨inSet, isLoader⟩
    case h_2 several =>
        refine .ambiguous ?_ libraries.sorted_loaders fun _ => LibrarySet.mem_loaders
        rintro ⟨loader, only⟩
        exact several loader (loaders_eq_singleton_iff.mpr only)

/-- What resolving with the base asks, and what comes of it. -/
theorem trace_resolve_base_iff {executable : Path}
    {said : List (Program.Exchange Operation Operation.Answer)} {result : Except Failure Closure} :
    Program.Trace (resolve executable true) said result ↔
      ResolvesWithBase executable said result := by
  rw [resolve, Program.trace_query_bind_iff]
  constructor
  · rintro ⟨listed, later, rfl, resolved⟩
    cases listed with
    | error failure =>
        obtain ⟨rfl, rfl⟩ := Program.trace_done_iff.mp resolved
        exact .unlisted failure
    | ok loaded =>
        dsimp only at resolved
        rw [if_pos rfl, Program.trace_query_bind_iff] at resolved
        obtain ⟨listed, last, rfl, resolved⟩ := resolved
        cases listed with
        | error failure =>
            obtain ⟨rfl, rfl⟩ := Program.trace_done_iff.mp resolved
            exact .baseless loaded failure
        | ok base =>
            obtain ⟨rfl, rfl⟩ := Program.trace_done_iff.mp resolved
            exact .listed (completes_merge loaded base) (judges_iff.mpr rfl)
  · intro resolves
    cases resolves with
    | unlisted failure => exact ⟨.error failure, [], rfl, .done _⟩
    | baseless loaded failure =>
        exact ⟨.ok loaded, [_], rfl,
          Program.trace_query_bind_iff.mpr ⟨.error failure, [], rfl, .done _⟩⟩
    | @listed loaded base libraries result completes judges =>
        refine ⟨.ok loaded, [_], rfl,
          Program.trace_query_bind_iff.mpr ⟨.ok base, [], rfl, ?_⟩⟩
        rw [judges_iff.mp judges, completes.eq_merge]
        exact .done _

/-- A closure with the C library consists of what the executable loads and of those libraries of the
C library whose file name the executable does not load; it is found exactly if both listings succeed
and one member is the only loader.  In an archive of such a set the entry of each loaded file name
holds the loaded library that comes first in path order under this name, wherever the C library's
copies lie. -/
theorem resolve_base_never_shadows (executable : Path) :
    (∀ said result, Program.Trace (resolve executable true) said result ↔
      ResolvesWithBase executable said result) ∧
    ∀ loaded base libraries : LibrarySet, Completes loaded base libraries →
      ∀ (writer : Zip.Writer) (files : Files) (root : Option Path) (withLibc : Bool)
        (archive : Archive),
        Archive.build writer files executable libraries root withLibc = .ok archive →
        writer.finish archive.entries = .ok archive.bytes ∧
        ∀ library ∈ loaded, ∃ least ∈ loaded, least.fileName = library.fileName ∧
          (∀ other ∈ loaded, other.fileName = library.fileName →
            other = least ∨ least.compare other = .lt) ∧
          ∃ data, files.read (Archive.source root least) = .ok data ∧
            Archive.named ("lib/" ++ library.fileName) archive.entries =
              [Archive.libraryEntry least data] := by
  refine ⟨fun said result => trace_resolve_base_iff, ?_⟩
  intro loaded base libraries completes writer files root withLibc archive built
  obtain ⟨readings, honest, assembles⟩ := Archive.exists_assembles_build
  rw [built] at assembles
  refine ⟨assembles.finish_eq, fun library isLoaded => ?_⟩
  have ofLoaded (own : LibraryPath) (inLoaded : own ∈ loaded) : own ∈ libraries :=
    (completes own).mpr (Or.inl inLoaded)
  obtain ⟨least, member, sameName, first, data, reading, only⟩ :=
    assembles.exists_least (ofLoaded library isLoaded)
  -- A copy of the C library has another file name, so the first of this name is a loaded one.
  have leastLoaded : least ∈ loaded :=
    ((completes least).mp member).resolve_right fun fromBase =>
      fromBase.2 library isLoaded sameName.symm
  exact ⟨least, leastLoaded, sameName, fun other inLoaded => first other (ofLoaded other inLoaded),
    data, (honest _ reading).symm, only⟩

/-- A copy of a loaded library that sorts before it. -/
theorem resolve_base_never_shadows_copy :
    let own : LibraryPath := .ofPath ⟨"/z/libc.so"⟩
    let loader : LibraryPath := .ofPath ⟨"/z/ld-x.so"⟩
    let copy : LibraryPath := .ofPath ⟨"/b/libc.so"⟩
    let other : LibraryPath := .ofPath ⟨"/b/libm.so"⟩
    let loaded : LibrarySet := .ofList [own, loader]
    let base : LibrarySet := .ofList [copy, other]
    let libraries : LibrarySet := .ofList [own, loader, other]
    let files : Files := ⟨[],
      [(["a"], .file [1]), (["b"], .directory), (["b", "libc.so"], .file [2]),
        (["b", "libm.so"], .file [3]), (["z"], .directory), (["z", "ld-x.so"], .file [4]),
        (["z", "libc.so"], .file [5])]⟩
    copy.compare own = .lt ∧
      Program.Trace (resolve ⟨"/a"⟩ true)
        [⟨.dependencies ⟨"/a"⟩, .ok loaded⟩, ⟨.baseLibraries, .ok base⟩]
        (.ok ⟨libraries, loader⟩) ∧
      ∃ archive, Archive.build .standard files ⟨"/a"⟩ libraries none true = .ok archive ∧
        Archive.named "lib/libc.so" archive.entries = [Archive.libraryEntry own [5]] := by
  intro own loader copy other loaded base libraries files
  have merged : libraries = merge loaded base := by decide +kernel
  have completes : Completes loaded base libraries := by
    rw [merged]
    exact completes_merge loaded base
  have only : libraries.loaders = [loader] := by decide +kernel
  have judges : Judges libraries (.ok ⟨libraries, loader⟩) := by
    rw [judges_iff, ofLibraries, Archive.soleLoader_eq_ok_iff.mpr only]
    rfl
  obtain ⟨resolved, bundled⟩ := resolve_base_never_shadows ⟨"/a"⟩
  refine ⟨by decide +kernel, (resolved _ _).mpr (.listed completes judges), ?_⟩
  have succeeds : (Archive.build .standard files ⟨"/a"⟩ libraries none true).isOk = true := by
    decide +kernel
  cases built : Archive.build .standard files ⟨"/a"⟩ libraries none true with
  | error failure =>
      rw [built] at succeeds
      cases succeeds
  | ok archive =>
      have ownName : own.fileName = "libc.so" := by decide +kernel
      obtain ⟨least, inLoaded, sameName, -, data, read, only⟩ :=
        (bundled loaded base libraries completes .standard files none true archive built).2 own
          (LibrarySet.mem_ofList.mpr List.mem_cons_self)
      have isOwn : least = own := by
        have alone : ∀ library ∈ loaded.paths, library.fileName = own.fileName → library = own := by
          decide +kernel
        exact alone least inLoaded sameName
      have content : files.read (Archive.source none own) = .ok [5] := by decide +kernel
      subst isOwn
      rw [content] at read
      cases read
      rw [ownName] at only
      exact ⟨archive, rfl, only⟩

end Closure

end FunctionBundler
