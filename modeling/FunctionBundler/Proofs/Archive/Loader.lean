/-
Module: FunctionBundler.Proofs.Archive.Loader
Purpose: The loader that a closure names is the one that its archive starts with.
Trusted boundary: none
Main exports:
  Archive.StartsBy, Archive.mem_distinctNames, Archive.Bundles.named_eq, Archive.Assembles.startsBy,
  Closure.loaders_eq_of_trace_resolve, Closure.build_of_trace_resolve
-/
import FunctionBundler.Closure
import FunctionBundler.Proofs.Archive.Assembly
import FunctionBundler.Proofs.Archive.Script

namespace FunctionBundler

/-!
A closure has exactly one loader among its libraries, and a loader is known by its
file name.  So no other library of the closure has the loader's file name, leaving
out libraries of a name that came before never leaves out the loader, and the entry
of its name in the archive holds its own bytes.
-/

namespace Archive

/-! ### The only loader -/

/-- A loader is accepted exactly if no other is listed. -/
theorem soleLoader_eq_ok_iff {libraries : LibrarySet} {loader : LibraryPath} :
    soleLoader libraries = .ok loader ↔ libraries.loaders = [loader] := by
  rw [soleLoader]
  constructor
  · intro sole
    split at sole
    case h_1 only found => rw [found, Except.ok.inj sole]
    case h_2 => cases sole
  · intro only
    rw [only]

/-- If one loader is listed, every loader of the set is that one. -/
theorem eq_of_loaders_eq {libraries : LibrarySet} {loader other : LibraryPath}
    (only : libraries.loaders = [loader]) (member : other ∈ libraries)
    (isLoader : other.isLoader = true) : other = loader := by
  have found : other ∈ libraries.loaders := List.mem_filter.mpr ⟨member, isLoader⟩
  rwa [only, List.mem_singleton] at found

/-- A loader that is listed is in the set. -/
theorem mem_of_loaders_eq {libraries : LibrarySet} {loader : LibraryPath}
    (only : libraries.loaders = [loader]) : loader ∈ libraries ∧ loader.isLoader = true := by
  have found : loader ∈ libraries.loaders := by
    rw [only]
    exact List.mem_singleton_self loader
  exact List.mem_filter.mp found

/-- What is a loader is a matter of the file name. -/
theorem eq_of_fileName_eq {libraries : LibrarySet} {loader other : LibraryPath}
    (only : libraries.loaders = [loader]) (member : other ∈ libraries)
    (same : other.fileName = loader.fileName) : other = loader := by
  have isLoader := (mem_of_loaders_eq only).2
  rw [LibraryPath.isLoader, ← same] at isLoader
  exact eq_of_loaders_eq only member isLoader

/-! ### Libraries of different names -/

/-- No two libraries that are kept have one file name. -/
theorem nodup_fileName_distinctNames (seen : List String) (libraries : List LibraryPath) :
    ((distinctNames seen libraries).map LibraryPath.fileName).Nodup := by
  induction libraries generalizing seen with
  | nil => exact List.nodup_nil
  | cons first rest ih =>
      rw [distinctNames]
      split
      case isTrue => exact ih seen
      case isFalse =>
          rw [List.map_cons, List.nodup_cons]
          refine ⟨fun again => ?_, ih _⟩
          obtain ⟨library, later, same⟩ := List.mem_map.mp again
          apply (notMem_seen_of_mem_distinctNames later).2
          rw [same]
          exact List.mem_cons_self

/-- A library that shares its name with no other one is kept. -/
theorem mem_distinctNames {seen : List String} {libraries : List LibraryPath}
    {library : LibraryPath} (member : library ∈ libraries) (fresh : library.fileName ∉ seen)
    (alone : ∀ other ∈ libraries, other.fileName = library.fileName → other = library) :
    library ∈ distinctNames seen libraries := by
  induction libraries generalizing seen with
  | nil => cases member
  | cons first rest ih =>
      obtain ⟨aloneFirst, aloneRest⟩ := List.forall_mem_cons.mp alone
      rw [distinctNames]
      by_cases same : first = library
      · subst same
        rw [if_neg fresh]
        exact List.mem_cons_self
      · have later := (List.mem_cons.mp member).resolve_left fun equal => same equal.symm
        have otherName : first.fileName ≠ library.fileName := fun equal => same (aloneFirst equal)
        split
        case isTrue => exact ih later fresh aloneRest
        case isFalse =>
            apply List.mem_cons_of_mem
            apply ih later _ aloneRest
            exact List.not_mem_cons_of_ne_of_not_mem otherName.symm fresh

/-! ### The entries of a name -/

/-- The entries that have a name. -/
def named (name : String) (entries : List ArchiveEntry) : List ArchiveEntry :=
  entries.filter fun entry => entry.name = name

private theorem named_cons_of_eq {name : String} {entry : ArchiveEntry} (same : entry.name = name)
    (entries : List ArchiveEntry) : named name (entry :: entries) = entry :: named name entries :=
  List.filter_cons_of_pos (decide_eq_true same)

/-- An entry of another name is not found under a name. -/
theorem named_cons_of_ne {name : String} {entry : ArchiveEntry} (other : entry.name ≠ name)
    (entries : List ArchiveEntry) : named name (entry :: entries) = named name entries :=
  List.filter_cons_of_neg fun same => other (of_decide_eq_true same)

/-- What is found under a name in two lists is found in the first and then in the second. -/
theorem named_append (name : String) (before after : List ArchiveEntry) :
    named name (before ++ after) = named name before ++ named name after :=
  List.filter_append before after

private theorem named_eq_nil {name : String} {entries : List ArchiveEntry}
    (others : ∀ entry ∈ entries, entry.name ≠ name) : named name entries = [] := by
  induction entries with
  | nil => rfl
  | cons entry rest ih =>
      obtain ⟨other, others⟩ := List.forall_mem_cons.mp others
      rw [named_cons_of_ne other, ih others]

namespace Bundles

variable {writer : Zip.Writer} {root : Option Path} {taken : List ArchiveEntry}
  {library : LibraryPath} {libraries : List LibraryPath} {readings : List Reading}
  {entries : List ArchiveEntry}

private theorem of_cons_ok
    (bundles : Bundles writer root taken (library :: libraries) readings (.ok entries)) :
    ∃ data laterReadings laterEntries,
      readings = (source root library, .ok data) :: laterReadings ∧
        entries = libraryEntry library data :: laterEntries ∧
        Bundles writer root (taken ++ [libraryEntry library data]) libraries laterReadings
          (.ok laterEntries) := by
  generalize ended : (Except.ok entries : Except Failure (List ArchiveEntry)) = result at bundles
  cases bundles with
  | missing | untaken => cases ended
  | @bundled _ _ _ later result data _ rest =>
      cases result with
      | error failure => cases ended
      | ok laterEntries =>
          cases ended
          exact ⟨data, later, laterEntries, rfl, rfl, rest⟩

/-- Libraries are not bundled if one is missing or the writer refuses one, for no other reason. -/
theorem blames_of_error {failure : Failure}
    (bundles : Bundles writer root taken libraries readings (.error failure)) :
    (∃ library fault, failure = .missingLibrary library (source root library) fault) ∨
      ∃ fault, failure = .archive fault := by
  generalize ended : (Except.error failure : Except Failure (List ArchiveEntry)) = result at bundles
  induction bundles with
  | done => cases ended
  | @missing _ library _ fault =>
      cases ended
      exact Or.inl ⟨library, fault, rfl⟩
  | @untaken _ _ _ _ fault =>
      cases ended
      exact Or.inr ⟨fault, rfl⟩
  | @bundled _ _ _ _ result _ _ _ ih =>
      cases result with
      | error first =>
          cases ended
          exact ih rfl
      | ok entries => cases ended

/-- Each entry belongs to a library. -/
theorem name_eq (bundles : Bundles writer root taken libraries readings (.ok entries)) :
    ∀ entry ∈ entries, ∃ library ∈ libraries, entry.name = "lib/" ++ library.fileName := by
  induction libraries generalizing taken readings entries with
  | nil =>
      cases bundles
      exact nofun
  | cons library later ih =>
      obtain ⟨data, laterReadings, laterEntries, rfl, rfl, rest⟩ := bundles.of_cons_ok
      intro entry member
      rcases List.mem_cons.mp member with rfl | inLater
      · exact ⟨library, List.mem_cons_self, rfl⟩
      · obtain ⟨owner, ownerInLater, same⟩ := ih rest entry inLater
        exact ⟨owner, List.mem_cons_of_mem library ownerInLater, same⟩

/-- The entry of a library's name is its own, if the names of the libraries differ. -/
theorem named_eq (bundles : Bundles writer root taken libraries readings (.ok entries))
    (distinct : (libraries.map LibraryPath.fileName).Nodup) (member : library ∈ libraries) :
    ∃ data, (source root library, .ok data) ∈ readings ∧
      named ("lib/" ++ library.fileName) entries = [libraryEntry library data] := by
  induction libraries generalizing taken readings entries with
  | nil => cases member
  | cons first later ih =>
      obtain ⟨data, laterReadings, laterEntries, rfl, rfl, rest⟩ := bundles.of_cons_ok
      rw [List.map_cons, List.nodup_cons] at distinct
      have differs {other : LibraryPath} (inLater : other ∈ later) :
          "lib/" ++ first.fileName ≠ "lib/" ++ other.fileName := by
        rw [Ne, String.append_right_inj]
        exact fun same => distinct.1 (List.mem_map.mpr ⟨other, inLater, same.symm⟩)
      rcases List.mem_cons.mp member with rfl | inLater
      · refine ⟨data, List.mem_cons_self, ?_⟩
        have own : (libraryEntry library data).name = "lib/" ++ library.fileName := rfl
        rw [named_cons_of_eq own, named_eq_nil]
        intro entry member
        obtain ⟨other, inLater, own⟩ := rest.name_eq entry member
        rw [own]
        exact (differs inLater).symm
      · obtain ⟨found, reading, only⟩ := ih rest distinct.2 inLater
        refine ⟨found, List.mem_cons_of_mem _ reading, ?_⟩
        rw [named_cons_of_ne (differs inLater), only]

end Bundles

/-! ### What an archive starts with -/

/-- An archive that a writer made, whose script hands a bundled binary to a bundled loader: the
script names both by the entries that hold them, and no other entry has one of these names. -/
structure StartsBy (archive : Archive) (writer : Zip.Writer) (loader binary : String)
    (code program : Bytes) : Prop where
  written : writer.finish archive.entries = .ok archive.bytes
  loaderEntry : named ("lib/" ++ loader) archive.entries = [⟨"lib/" ++ loader, 0o755, .epoch, code⟩]
  binaryEntry : named ("bin/" ++ binary) archive.entries =
    [⟨"bin/" ++ binary, 0o755, .epoch, program⟩]
  scriptEntry : named "bootstrap" archive.entries = [⟨"bootstrap", 0o755, .epoch, Bytes.ofText
    (Bootstrap.preamble ++ " ".intercalate (Bootstrap.command (some loader) binary) ++ "\n")⟩]
  command : Bootstrap.command (some loader) binary =
    ["exec", "$LAMBDA_TASK_ROOT/" ++ ("lib/" ++ loader), "--library-path", "$LAMBDA_TASK_ROOT/lib",
      "$LAMBDA_TASK_ROOT/" ++ ("bin/" ++ binary), Bootstrap.handler]
  words : Bootstrap.Unbroken loader.toList → Bootstrap.Unbroken binary.toList →
    Bootstrap.words (" ".intercalate (Bootstrap.command (some loader) binary)).toList =
      (Bootstrap.command (some loader) binary).map String.toList

/-- Texts that begin differently differ. -/
theorem append_ne_append {first second : String} (length : Nat)
    (one : length ≤ first.toList.length) (two : length ≤ second.toList.length)
    (differ : first.toList.take length ≠ second.toList.take length) (rest other : String) :
    first ++ rest ≠ second ++ other := by
  intro same
  have beginnings := congrArg (fun text => text.toList.take length) same
  simp only [String.toList_append, List.take_append_of_le_length one,
    List.take_append_of_le_length two] at beginnings
  exact differ beginnings

/-- No entry is a library and the executable at once. -/
theorem lib_ne_bin (library binary : String) : "lib/" ++ library ≠ "bin/" ++ binary :=
  append_ne_append 2 (by decide) (by decide) (by decide) library binary

theorem lib_ne_bootstrap (library : String) : "lib/" ++ library ≠ "bootstrap" := by
  have differ : "lib/" ++ library ≠ "bootstrap" ++ "" :=
    append_ne_append 2 (by decide) (by decide) (by decide) library ""
  rwa [String.append_empty] at differ

theorem bin_ne_bootstrap (binary : String) : "bin/" ++ binary ≠ "bootstrap" := by
  have differ : "bin/" ++ binary ≠ "bootstrap" ++ "" :=
    append_ne_append 2 (by decide) (by decide) (by decide) binary ""
  rwa [String.append_empty] at differ

private theorem loaderPath_eq (loader : String) :
    Bootstrap.loaderPath loader = "$LAMBDA_TASK_ROOT/" ++ ("lib/" ++ loader) := by
  have cut : "$LAMBDA_TASK_ROOT/lib/" = "$LAMBDA_TASK_ROOT/" ++ "lib/" := by decide +kernel
  exact (congrArg (· ++ loader) cut).trans String.append_assoc

private theorem binaryPath_eq (binary : String) :
    Bootstrap.binaryPath binary = "$LAMBDA_TASK_ROOT/" ++ ("bin/" ++ binary) := by
  have cut : "$LAMBDA_TASK_ROOT/bin/" = "$LAMBDA_TASK_ROOT/" ++ "bin/" := by decide +kernel
  exact (congrArg (· ++ binary) cut).trans String.append_assoc

/-- An archive of a binary and of libraries with different names starts by any loader among them. -/
theorem Bundles.startsBy {writer : Zip.Writer} {root : Option Path}
    {libraries : List LibraryPath} {readings : List Reading} {entries : List ArchiveEntry}
    {loader : LibraryPath} {binary : String} {program : Bytes} {archive : Archive}
    (bundles : Bundles writer root [] libraries readings (.ok entries))
    (distinct : (libraries.map LibraryPath.fileName).Nodup) (member : loader ∈ libraries)
    (isLoader : loader.isLoader = true)
    (closes : Closes writer (entries ++ [executableEntry binary program,
      bootstrapEntry (Bootstrap.withLoader loader.fileName binary)]) archive) :
    ∃ code, (source root loader, .ok code) ∈ readings ∧
      archive.StartsBy writer loader.fileName binary code program := by
  obtain ⟨code, reading, only⟩ := bundles.named_eq distinct member
  have others {name : String} (differs : ∀ library, "lib/" ++ library ≠ name) :
      named name entries = [] := by
    apply named_eq_nil
    intro entry member
    obtain ⟨library, -, own⟩ := bundles.name_eq entry member
    rw [own]
    exact differs library.fileName
  have scriptName :
      (bootstrapEntry (Bootstrap.withLoader loader.fileName binary)).name = "bootstrap" := rfl
  have binaryName : (executableEntry binary program).name = "bin/" ++ binary := rfl
  refine ⟨code, reading, closes.bytes, ?_, ?_, ?_, ?_, Bootstrap.words_command⟩
  · have mode : libraryEntry loader code = ⟨"lib/" ++ loader.fileName, 0o755, .epoch, code⟩ := by
      rw [libraryEntry, if_pos isLoader]
      rfl
    rw [closes.entries, named_append, only, named_cons_of_ne (lib_ne_bin _ _).symm,
      named_cons_of_ne (lib_ne_bootstrap _).symm, mode]
    rfl
  · rw [closes.entries, named_append, others fun library => lib_ne_bin library binary,
      named_cons_of_eq binaryName, named_cons_of_ne (bin_ne_bootstrap _).symm]
    rfl
  · rw [closes.entries, named_append, others lib_ne_bootstrap,
      named_cons_of_ne (bin_ne_bootstrap _), named_cons_of_eq scriptName]
    rfl
  · rw [Bootstrap.command, loaderPath_eq, binaryPath_eq]

section Assembling

variable {writer : Zip.Writer} {executable : Path} {libraries : LibrarySet} {root : Option Path}
  {withLibc : Bool} {readings : List Reading} {archive : Archive} {loader : LibraryPath}

/-- An archive for a sole loader starts by that loader. -/
theorem Assembles.startsBy (only : libraries.loaders = [loader])
    (assembles : Assembles writer executable libraries root true readings (.ok archive)) :
    ∃ name code program, executable.fileName? = some name ∧
      (executable, .ok program) ∈ readings ∧ (source root loader, .ok code) ∈ readings ∧
      archive.StartsBy writer loader.fileName name code program := by
  obtain ⟨program, name, text, bundled, entries, -, named, scripted, rfl, bundles, closes⟩ :=
    assembles.of_ok
  rw [script, if_pos rfl, soleLoader_eq_ok_iff.mpr only] at scripted
  cases scripted
  obtain ⟨member, isLoader⟩ := mem_of_loaders_eq only
  have kept : loader ∈ distinctNames [] libraries.paths :=
    mem_distinctNames member (List.not_mem_nil) fun other => eq_of_fileName_eq only
  obtain ⟨code, reading, starts⟩ :=
    bundles.startsBy (nodup_fileName_distinctNames [] libraries.paths) kept isLoader closes
  exact ⟨name, code, program, named, List.mem_cons_self, List.mem_cons_of_mem _ reading, starts⟩

/-- With one loader, an archive never fails for want of the loader or for having several. -/
theorem Assembles.ne_ambiguousLoader {candidates : List LibraryPath}
    (only : libraries.loaders = [loader]) :
    ¬Assembles writer executable libraries root withLibc readings
      (.error (.ambiguousLoader candidates)) := by
  intro assembles
  generalize ended : (Except.error (.ambiguousLoader candidates) : Except Failure Archive) = result
    at assembles
  cases assembles with
  | unreadable | empty | nameless => cases ended
  | unscripted nonempty named unscripted =>
      rw [script, soleLoader_eq_ok_iff.mpr only] at unscripted
      cases withLibc <;> cases unscripted
  | @bundled program name text readings result nonempty named scripted bundles =>
      cases result with
      | ok entries =>
          obtain ⟨fault, refused⟩ := exists_fault_of_close ended.symm
          cases refused
      | error failure =>
          obtain ⟨library, fault, blamed⟩ | ⟨fault, blamed⟩ := bundles.blames_of_error
          all_goals
            rw [blamed] at ended
            cases ended

end Assembling

end Archive

namespace Closure

/-- A closure that is found has its loader as the only one among its libraries. -/
theorem loaders_eq_of_trace_resolve {executable : Path} {withBase : Bool}
    {said : List (Program.Exchange Operation Operation.Answer)} {closure : Closure}
    (resolved : Program.Trace (resolve executable withBase) said (.ok closure)) :
    closure.libraries.loaders = [closure.loader] := by
  have of_ofLibraries {libraries : LibrarySet}
      (formed : ofLibraries libraries = .ok closure) :
      closure.libraries.loaders = [closure.loader] := by
    rw [ofLibraries] at formed
    cases sole : Archive.soleLoader libraries with
    | error failure =>
        rw [sole] at formed
        cases formed
    | ok loader =>
        rw [sole] at formed
        cases formed
        exact Archive.soleLoader_eq_ok_iff.mp sole
  rw [resolve, Program.bind_eq, Program.trace_bind_iff] at resolved
  obtain ⟨-, listed, later, rfl, -, resolved⟩ := resolved
  cases listed with
  | error failure => cases (Program.trace_done_iff.mp resolved).2
  | ok loaded =>
      cases withBase with
      | false => exact of_ofLibraries (Program.trace_done_iff.mp resolved).2.symm
      | true =>
          dsimp only at resolved
          rw [if_pos rfl, Program.bind_eq, Program.trace_bind_iff] at resolved
          obtain ⟨-, base, last, rfl, -, resolved⟩ := resolved
          cases base with
          | error failure => cases (Program.trace_done_iff.mp resolved).2
          | ok base => exact of_ofLibraries (Program.trace_done_iff.mp resolved).2.symm

/-- Where both listings are given and the members have one loader, they form a closure. -/
theorem trace_resolve_listed {loaded base : LibrarySet} {loader : LibraryPath}
    (executable : Path) (only : (merge loaded base).loaders = [loader]) :
    Program.Trace (resolve executable true)
      [⟨.dependencies executable, .ok loaded⟩, ⟨.baseLibraries, .ok base⟩]
      (.ok ⟨merge loaded base, loader⟩) := by
  have formed : ofLibraries (merge loaded base) = .ok ⟨merge loaded base, loader⟩ := by
    rw [ofLibraries, Archive.soleLoader_eq_ok_iff.mpr only]
    rfl
  rw [← formed]
  exact .ask _ (.ask _ (.done _))

/-- Whatever a build environment lists, if that forms a closure, the archive of its libraries is
never refused for its loaders.  With the C library, the archive starts by the closure's loader: the
script names the entries that hold the loader's own file and the executable, and no other library of
the closure has the loader's file name. -/
theorem build_of_trace_resolve {executable : Path} {withBase : Bool}
    {said : List (Program.Exchange Operation Operation.Answer)} {closure : Closure}
    (resolved : Program.Trace (resolve executable withBase) said (.ok closure))
    (writer : Zip.Writer) (files : Files) (root : Option Path) :
    (∀ withLibc candidates, Archive.build writer files executable closure.libraries root withLibc ≠
      .error (.ambiguousLoader candidates)) ∧
    (closure.loader ∈ closure.libraries ∧ ∀ other ∈ closure.libraries,
      other.fileName = closure.loader.fileName → other = closure.loader) ∧
    ∀ archive, Archive.build writer files executable closure.libraries root true = .ok archive →
      ∃ name code program, executable.fileName? = some name ∧
        files.read executable = .ok program ∧
        files.read (Archive.source root closure.loader) = .ok code ∧
        archive.StartsBy writer closure.loader.fileName name code program := by
  have only := loaders_eq_of_trace_resolve resolved
  refine ⟨fun withLibc candidates refused => ?_,
    ⟨(Archive.mem_of_loaders_eq only).1, fun other => Archive.eq_of_fileName_eq only⟩,
    fun archive built => ?_⟩
  · obtain ⟨readings, -, assembles⟩ := Archive.exists_assembles_build
    rw [refused] at assembles
    exact assembles.ne_ambiguousLoader only
  · obtain ⟨readings, honest, assembles⟩ := Archive.exists_assembles_build
    rw [built] at assembles
    obtain ⟨name, code, program, named, readProgram, readCode, starts⟩ := assembles.startsBy only
    exact
      ⟨name, code, program, named, (honest _ readProgram).symm, (honest _ readCode).symm, starts⟩

/-- A closure with libraries of the C library: of these a copy of the loader is left out, and of two
libraries of one name the archive drops the second. -/
theorem build_of_trace_resolve_loader :
    let loader : LibraryPath := .ofPath ⟨"/lib/ld-x.so"⟩
    let loaded : LibrarySet := .ofList [loader, .ofPath ⟨"/usr/libx.so"⟩, .ofPath ⟨"/lib/libx.so"⟩]
    let base : LibrarySet := .ofList [.ofPath ⟨"/base/ld-x.so"⟩, .ofPath ⟨"/base/libc.so"⟩]
    let closure : Closure := ⟨merge loaded base, loader⟩
    let files : Files := ⟨[],
      [(["a"], .file [1]), (["base"], .directory), (["base", "ld-x.so"], .file [2]),
        (["base", "libc.so"], .file [3]), (["lib"], .directory), (["lib", "ld-x.so"], .file [7]),
        (["lib", "libx.so"], .file [5])]⟩
    Program.Trace (resolve ⟨"/a"⟩ true)
        [⟨.dependencies ⟨"/a"⟩, .ok loaded⟩, ⟨.baseLibraries, .ok base⟩] (.ok closure) ∧
      closure.libraries.paths.map (·.text) =
        ["/base/libc.so", "/lib/ld-x.so", "/lib/libx.so", "/usr/libx.so"] ∧
      ∃ archive name program,
        Archive.build .standard files ⟨"/a"⟩ closure.libraries none true = .ok archive ∧
        archive.StartsBy .standard "ld-x.so" name [7] program ∧
        archive.entries.map (·.name) =
          ["lib/libc.so", "lib/ld-x.so", "lib/libx.so", "bin/a", "bootstrap"] := by
  intro loader loaded base closure files
  have only : (merge loaded base).loaders = [loader] := by decide +kernel
  have resolved := trace_resolve_listed ⟨"/a"⟩ only
  refine ⟨resolved, by decide +kernel, ?_⟩
  have names : (Archive.build .standard files ⟨"/a"⟩ closure.libraries none true).toOption.map
      (fun archive => archive.entries.map (·.name)) =
        some ["lib/libc.so", "lib/ld-x.so", "lib/libx.so", "bin/a", "bootstrap"] := by
    decide +kernel
  cases built : Archive.build .standard files ⟨"/a"⟩ closure.libraries none true with
  | error failure =>
      rw [built] at names
      cases names
  | ok archive =>
      obtain ⟨name, code, program, -, -, read, starts⟩ :=
        (build_of_trace_resolve resolved .standard files none).2.2 archive built
      have loaderName : loader.fileName = "ld-x.so" := by decide +kernel
      have content : (files.read (Archive.source none loader)).toOption = some [7] := by
        decide +kernel
      rw [read] at content
      cases content
      rw [loaderName] at starts
      rw [built] at names
      exact ⟨archive, name, program, rfl, starts, Option.some.inj names⟩

end Closure

end FunctionBundler
