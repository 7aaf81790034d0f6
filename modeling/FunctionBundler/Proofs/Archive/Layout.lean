/-
Module: FunctionBundler.Proofs.Archive.Layout
Purpose: Exactly when an archive can be built, what it then holds, and why not otherwise.
Trusted boundary: none
Main exports:
  Archive.IsFirst, Archive.Keeps, Archive.Carries, Archive.Buildable, Archive.LaidOut,
  Archive.Refuses, Archive.Content, Archive.build_of_usable, Archive.build_eq_error_iff,
  Archive.build_layout
-/
import Mathlib.Data.List.Forall2
import FunctionBundler.Proofs.Archive.Libraries
import FunctionBundler.Proofs.Files.Names

namespace FunctionBundler.Archive

/-!
Of the libraries of a file name only the first in path order matters: it alone is
read, and its bytes become the entry of the name.  The executable is looked at
before the loaders are counted, and these before any library is read, so each kind
of failure is told only where the kinds before it do not apply.
-/

/-! ### The libraries that are kept -/

/-- A library is the first of its file name in path order. -/
def IsFirst (libraries : LibrarySet) (library : LibraryPath) : Prop :=
  library ∈ libraries ∧ ∀ other ∈ libraries, other.fileName = library.fileName →
    other = library ∨ library.compare other = .lt

/-- A list, in path order, of exactly the libraries that are the first of their file name. -/
structure Keeps (libraries : LibrarySet) (kept : List LibraryPath) : Prop where
  sorted : kept.Pairwise fun first second => first.compare second = .lt
  mem_iff : ∀ library, library ∈ kept ↔ IsFirst libraries library

section Keeping

variable {libraries : LibrarySet} {library : LibraryPath}

private theorem sublist_distinctNames (seen : List String) (libraries : List LibraryPath) :
    (distinctNames seen libraries).Sublist libraries := by
  induction libraries generalizing seen with
  | nil => exact List.Sublist.slnil
  | cons first rest ih =>
      rw [distinctNames]
      split
      case isTrue => exact (ih seen).cons first
      case isFalse => exact (ih _).cons_cons first

/-- What is kept of a set are the first libraries of their names. -/
theorem mem_distinctNames_iff :
    library ∈ distinctNames [] libraries.paths ↔ IsFirst libraries library := by
  constructor
  · intro kept
    have member := (notMem_seen_of_mem_distinctNames kept).1
    obtain ⟨least, leastKept, sameName, first⟩ :=
      exists_least_mem_distinctNames libraries.sorted member List.not_mem_nil
    have same : least = library := List.inj_on_of_nodup_map
      (nodup_fileName_distinctNames [] libraries.paths) leastKept kept sameName
    subst same
    exact ⟨member, first⟩
  · intro isFirst
    obtain ⟨least, leastKept, sameName, first⟩ :=
      exists_least_mem_distinctNames libraries.sorted isFirst.1 List.not_mem_nil
    have inSet := (notMem_seen_of_mem_distinctNames leastKept).1
    rcases isFirst.2 least inSet sameName with same | below
    · exact same ▸ leastKept
    · rcases first library isFirst.1 rfl with same | above
      · exact same ▸ leastKept
      · exact absurd above (LibrarySet.not_below_swap below)

/-- What is kept of a set is kept in its order. -/
theorem keeps_distinctNames (libraries : LibrarySet) :
    Keeps libraries (distinctNames [] libraries.paths) :=
  ⟨libraries.sorted.sublist (sublist_distinctNames [] libraries.paths),
    fun _ => mem_distinctNames_iff⟩

end Keeping

/-! ### The entries of libraries -/

/-- The entry that carries a library: its name and permission bits tell what it is, and its data are
what its source holds. -/
structure Carries (files : Files) (root : Option Path) (library : LibraryPath)
    (entry : ArchiveEntry) : Prop where
  name : entry.name = "lib/" ++ library.fileName
  mode : entry.mode = if "ld-".toList <+: library.fileName.toList then 0o755 else 0o644
  modified : entry.modified = .epoch
  data : files.read (source root library) = .ok entry.data

section Reading

variable {writer : Zip.Writer} {files : Files} {root : Option Path} {library : LibraryPath}
  {taken : List ArchiveEntry} {wanted : List LibraryPath}

/-- The entry of a library holds what its source gives. -/
theorem carries_iff {entry : ArchiveEntry} :
    Carries files root library entry ↔
      ∃ data, files.read (source root library) = .ok data ∧ entry = libraryEntry library data := by
  have mode (data : Bytes) : (libraryEntry library data).mode =
      if "ld-".toList <+: library.fileName.toList then 0o755 else 0o644 := by
    simp only [libraryEntry, LibraryPath.isLoader, LibraryPath.isLoaderName,
      List.isPrefixOf_iff_prefix]
    rfl
  constructor
  · intro carries
    refine ⟨entry.data, carries.data, ?_⟩
    obtain ⟨name, bits, modified, data⟩ := entry
    obtain ⟨rfl, same, rfl, -⟩ := carries
    rw [← mode data] at same
    exact congrArg (fun mode => ArchiveEntry.mk _ mode _ _) same
  · rintro ⟨data, found, rfl⟩
    exact ⟨rfl, mode data, rfl, found⟩

/-- All libraries can be read, each into its entry, and the writer takes these. -/
theorem run_readLibraries_eq_ok_iff {entries : List ArchiveEntry} :
    Id.run (readLibraries (m := Id) writer files.read root taken wanted) = .ok entries ↔
      List.Forall₂ (Carries files root) wanted entries ∧ writer.putAll taken entries = .ok () := by
  induction wanted generalizing taken entries with
  | nil =>
      rw [List.forall₂_nil_left_iff]
      constructor
      · intro ended
        cases ended
        exact ⟨rfl, rfl⟩
      · rintro ⟨rfl, -⟩
        rfl
  | cons library later ih =>
      rw [run_readLibraries_cons, List.forall₂_cons_left_iff]
      constructor
      · intro ended
        split at ended
        case h_1 => cases ended
        case h_2 data found =>
            split at ended
            case h_1 => cases ended
            case h_2 takes =>
                obtain ⟨rest, read, rfl⟩ := map_eq_ok_iff.mp ended
                obtain ⟨carries, put⟩ := ih.mp read
                refine ⟨⟨_, rest, carries_iff.mpr ⟨data, found, rfl⟩, carries, rfl⟩, ?_⟩
                rw [Zip.Writer.putAll, takes]
                exact put
      · rintro ⟨⟨entry, rest, carried, carries, rfl⟩, put⟩
        obtain ⟨data, found, rfl⟩ := carries_iff.mp carried
        obtain ⟨_, takes, put⟩ := bind_eq_ok_iff.mp put
        rw [found]
        dsimp only
        rw [takes]
        dsimp only
        rw [ih.mpr ⟨carries, put⟩]
        rfl

/-- Why libraries cannot be bundled: the first of them that stops this is missing, or the writer
does not take its entry. -/
inductive Stops (writer : Zip.Writer) (files : Files) (root : Option Path)
    (taken : List ArchiveEntry) (library : LibraryPath) : Failure → Prop where
  | missing {fault : FileError} (read : files.read (source root library) = .error fault) :
      Stops writer files root taken library (.missingLibrary library (source root library) fault)
  | untaken {data : Bytes} {fault : ArchiveFault}
      (read : files.read (source root library) = .ok data)
      (refuses : writer.put taken (libraryEntry library data) = .error fault) :
      Stops writer files root taken library (.archive fault)

/-- The first library that cannot be bundled is told. -/
theorem run_readLibraries_eq_error_iff {failure : Failure} :
    Id.run (readLibraries (m := Id) writer files.read root taken wanted) = .error failure ↔
      ∃ before library later entries, wanted = before ++ library :: later ∧
        List.Forall₂ (Carries files root) before entries ∧ writer.putAll taken entries = .ok () ∧
        Stops writer files root (taken ++ entries) library failure := by
  induction wanted generalizing taken with
  | nil =>
      refine iff_of_false nofun ?_
      rintro ⟨before, library, later, entries, cut, -⟩
      exact List.append_ne_nil_of_right_ne_nil before (List.cons_ne_nil library later) cut.symm
  | cons first rest ih =>
      rw [run_readLibraries_cons]
      constructor
      · intro ended
        split at ended
        case h_1 fault missing =>
            cases ended
            refine ⟨[], first, rest, [], rfl, .nil, rfl, ?_⟩
            exact .missing missing
        case h_2 data found =>
            split at ended
            case h_1 fault refuses =>
                cases ended
                refine ⟨[], first, rest, [], rfl, .nil, rfl, ?_⟩
                rw [List.append_nil]
                exact .untaken found refuses
            case h_2 takes =>
                obtain ⟨before, library, later, entries, rfl, carries, put, stops⟩ :=
                  ih.mp (map_eq_error_iff.mp ended)
                refine ⟨first :: before, library, later, libraryEntry first data :: entries, rfl,
                  .cons (carries_iff.mpr ⟨data, found, rfl⟩) carries, ?_, ?_⟩
                · rw [Zip.Writer.putAll, takes]
                  exact put
                · rwa [List.append_cons]
      · rintro ⟨before, library, later, entries, cut, carries, put, stops⟩
        rcases List.cons_eq_append_iff.mp cut with ⟨rfl, head⟩ | ⟨before, rfl, rfl⟩
        · cases head
          rw [List.forall₂_nil_left_iff.mp carries, List.append_nil] at stops
          cases stops with
          | missing missing => rw [missing]
          | untaken found refuses =>
              rw [found]
              dsimp only
              rw [refuses]
        · obtain ⟨entry, entries, carried, others, rfl⟩ := List.forall₂_cons_left_iff.mp carries
          obtain ⟨data, found, rfl⟩ := carries_iff.mp carried
          obtain ⟨_, takes, put⟩ := bind_eq_ok_iff.mp put
          rw [List.append_cons] at stops
          rw [found]
          dsimp only
          rw [takes]
          dsimp only
          exact map_eq_error_iff.mpr
            (ih.mpr ⟨before, library, later, entries, rfl, others, put, stops⟩)

variable {entries : List ArchiveEntry}

private theorem map_name_of_carries (carries : List.Forall₂ (Carries files root) wanted entries) :
    entries.map (·.name) = wanted.map fun library => "lib/" ++ library.fileName := by
  induction carries with
  | nil => rfl
  | cons carried _ ih => rw [List.map_cons, List.map_cons, carried.name, ih]

/-- Libraries that can be read have entries that carry them. -/
theorem exists_carries
    (readable : ∀ library ∈ wanted, ∃ data, files.read (source root library) = .ok data) :
    ∃ entries, List.Forall₂ (Carries files root) wanted entries := by
  induction wanted with
  | nil => exact ⟨[], .nil⟩
  | cons library later ih =>
      obtain ⟨⟨data, found⟩, others⟩ := List.forall_mem_cons.mp readable
      obtain ⟨entries, carries⟩ := ih others
      exact ⟨_, .cons (carries_iff.mpr ⟨data, found, rfl⟩) carries⟩

/-- Every library that is bundled has its entry. -/
theorem exists_entry_of_mem (carries : List.Forall₂ (Carries files root) wanted entries)
    (member : library ∈ wanted) : ∃ entry ∈ entries, Carries files root library entry := by
  induction carries with
  | nil => cases member
  | @cons first entry later others carried _ ih =>
      rcases List.mem_cons.mp member with rfl | inLater
      · exact ⟨entry, List.mem_cons_self, carried⟩
      · obtain ⟨found, inOthers, carried⟩ := ih inLater
        exact ⟨found, List.mem_cons_of_mem entry inOthers, carried⟩

private theorem exists_library_of_mem (carries : List.Forall₂ (Carries files root) wanted entries)
    {entry : ArchiveEntry} (member : entry ∈ entries) :
    ∃ library ∈ wanted, Carries files root library entry := by
  induction carries with
  | nil => cases member
  | @cons library first later others carried _ ih =>
      rcases List.mem_cons.mp member with rfl | inOthers
      · exact ⟨library, List.mem_cons_self, carried⟩
      · obtain ⟨owner, inLater, carried⟩ := ih inOthers
        exact ⟨owner, List.mem_cons_of_mem library inLater, carried⟩

/-- A library that can be read has a file name, which is a single component. -/
theorem components_fileName {data : Bytes} (found : files.read (source root library) = .ok data) :
    (⟨library.fileName⟩ : Path).components = [.name library.fileName] := by
  have named : ∃ name, library.path.fileName? = some name := by
    cases root with
    | none => exact Files.fileName?_of_read found
    | some directory => exact LibraryPath.fileName?_of_read_under found
  obtain ⟨name, named⟩ := named
  rw [LibraryPath.fileName, named]
  exact Path.components_of_isStep (Path.isStep_of_fileName? named)

end Reading

/-! ### The script -/

section Scripting

variable {libraries : LibrarySet} {withLibc : Bool} {name : String}

/-- There is one loader exactly if the list of loaders has one member. -/
theorem existsUnique_loader_iff :
    (∃! loader, loader ∈ libraries ∧ loader.isLoader = true) ↔
      ∃ loader, libraries.loaders = [loader] := by
  simp only [Closure.loaders_eq_singleton_iff]
  rfl

/-- Only a script that has to name a loader can be refused, and then all candidates are told. -/
theorem script_eq_error_iff {failure : Failure} :
    script libraries withLibc name = .error failure ↔
      (withLibc = true ∧ ¬∃! loader, loader ∈ libraries ∧ loader.isLoader = true) ∧
        failure = .ambiguousLoader libraries.loaders := by
  rw [script, existsUnique_loader_iff]
  cases withLibc with
  | false => simp
  | true =>
      rw [if_pos rfl, soleLoader]
      split
      case h_1 loader only => simp [Except.map, only]
      case h_2 several =>
          have ambiguous : ¬∃ loader, libraries.loaders = [loader] := by
            rintro ⟨loader, only⟩
            exact several loader only
          constructor
          · intro refused
            exact ⟨⟨rfl, ambiguous⟩, (Except.error.inj refused).symm⟩
          · rintro ⟨-, rfl⟩
            rfl

private theorem exists_script_iff :
    (∃ text, script libraries withLibc name = .ok text) ↔
      (withLibc = true → ∃! loader, loader ∈ libraries ∧ loader.isLoader = true) := by
  rw [← not_iff_not, Classical.not_imp]
  constructor
  · intro unscripted
    cases written : script libraries withLibc name with
    | ok text => exact absurd ⟨text, written⟩ unscripted
    | error failure => exact (script_eq_error_iff.mp written).1
  · rintro several ⟨text, written⟩
    rw [script_eq_error_iff.mpr ⟨several, rfl⟩] at written
    cases written

end Scripting

/-! ### Building -/

/-- An executable that can be bundled: it can be read, it is not empty, and it has a file name. -/
structure Usable (files : Files) (executable : Path) (name : String) (program : Bytes) : Prop where
  read : files.read executable = .ok program
  nonempty : program ≠ []
  named : executable.fileName? = some name

section Building

variable {writer : Zip.Writer} {files : Files} {executable : Path} {libraries : LibrarySet}
  {root : Option Path} {withLibc : Bool} {name text : String} {program : Bytes}
  {bundled : List ArchiveEntry} {failure : Failure}

/-- What becomes of an executable that can be bundled. -/
theorem build_of_usable (usable : Usable files executable name program) :
    build writer files executable libraries root withLibc =
      (script libraries withLibc name).bind fun text =>
        (Id.run (readLibraries (m := Id) writer files.read root []
          (distinctNames [] libraries.paths))).bind (ofParts writer name text program) := by
  obtain ⟨byte, bytes, rfl⟩ := List.exists_cons_of_ne_nil usable.nonempty
  rw [build, assemble, usable.read, usable.named]
  dsimp only [Id.run, bind]
  cases script libraries withLibc name with
  | error failure => rfl
  | ok text =>
      dsimp only [Except.bind]
      cases readLibraries (m := Id) writer files.read root [] (distinctNames [] libraries.paths) <;>
        rfl

/-- What of the executable is told if it cannot be bundled. -/
theorem build_of_unreadable {fault : FileError} (read : files.read executable = .error fault) :
    build writer files executable libraries root withLibc =
      .error (.invalidExecutable executable fault.message) := by
  rw [build, assemble, read]
  rfl

/-- An empty executable is told as such. -/
theorem build_of_empty (read : files.read executable = .ok []) :
    build writer files executable libraries root withLibc =
      .error (.invalidExecutable executable "file is empty") := by
  rw [build, assemble, read]
  rfl

/-- An executable whose path does not end in a name is told as such. -/
theorem build_of_nameless (read : files.read executable = .ok program) (nonempty : program ≠ [])
    (unnamed : executable.fileName? = none) :
    build writer files executable libraries root withLibc =
      .error (.invalidExecutable executable "file name is not valid UTF-8") := by
  obtain ⟨byte, bytes, rfl⟩ := List.exists_cons_of_ne_nil nonempty
  rw [build, assemble, read, unnamed]
  rfl

/-- An archive is what the writer makes of the entries of the libraries that are kept, of the
executable and of the script. -/
theorem build_eq_ok_iff_of_usable (usable : Usable files executable name program)
    {archive : Archive} :
    build writer files executable libraries root withLibc = .ok archive ↔
      ∃ text bundled, script libraries withLibc name = .ok text ∧
        List.Forall₂ (Carries files root) (distinctNames [] libraries.paths) bundled ∧
        writer.putAll [] (bundled ++ [executableEntry name program, bootstrapEntry text]) = .ok () ∧
        Closes writer (bundled ++ [executableEntry name program, bootstrapEntry text]) archive := by
  rw [build_of_usable usable]
  constructor
  · intro built
    obtain ⟨text, scripted, built⟩ := bind_eq_ok_iff.mp built
    obtain ⟨bundled, read, closed⟩ := bind_eq_ok_iff.mp built
    obtain ⟨carries, first⟩ := run_readLibraries_eq_ok_iff.mp read
    obtain ⟨second, closes⟩ := close_eq_ok_iff.mp closed
    exact ⟨text, bundled, scripted, carries,
      Zip.Writer.putAll_append_iff.mpr ⟨first, second⟩, closes⟩
  · rintro ⟨text, bundled, scripted, carries, put, closes⟩
    obtain ⟨first, second⟩ := Zip.Writer.putAll_append_iff.mp put
    exact bind_eq_ok_iff.mpr ⟨text, scripted, bind_eq_ok_iff.mpr
      ⟨bundled, run_readLibraries_eq_ok_iff.mpr ⟨carries, first⟩,
        close_eq_ok_iff.mpr ⟨second, closes⟩⟩⟩

/-- Why an archive is not built. -/
inductive Refuses (files : Files) (executable : Path) (libraries : LibrarySet)
    (root : Option Path) (withLibc : Bool) : Failure → Prop where
  | unreadable {fault : FileError} (read : files.read executable = .error fault) :
      Refuses files executable libraries root withLibc
        (.invalidExecutable executable fault.message)
  | empty (read : files.read executable = .ok []) :
      Refuses files executable libraries root withLibc
        (.invalidExecutable executable "file is empty")
  | nameless {program : Bytes} (read : files.read executable = .ok program)
      (nonempty : program ≠ []) (unnamed : executable.fileName? = none) :
      Refuses files executable libraries root withLibc
        (.invalidExecutable executable "file name is not valid UTF-8")
  | ambiguous {name : String} {program : Bytes} {candidates : List LibraryPath}
      (usable : Usable files executable name program) (needed : withLibc = true)
      (several : ¬∃! loader, loader ∈ libraries ∧ loader.isLoader = true)
      (sorted : candidates.Pairwise fun first second => first.compare second = .lt)
      (mem_iff : ∀ library,
        library ∈ candidates ↔ library ∈ libraries ∧ library.isLoader = true) :
      Refuses files executable libraries root withLibc (.ambiguousLoader candidates)
  | missing {name : String} {program : Bytes} {library : LibraryPath} {fault : FileError}
      (usable : Usable files executable name program)
      (sole : withLibc = true → ∃! loader, loader ∈ libraries ∧ loader.isLoader = true)
      (isFirst : IsFirst libraries library)
      (read : files.read (source root library) = .error fault)
      (before : ∀ other, IsFirst libraries other → other.compare library = .lt →
        ∃ data, files.read (source root other) = .ok data) :
      Refuses files executable libraries root withLibc
        (.missingLibrary library (source root library) fault)

/-- What a build needs. -/
structure Buildable (files : Files) (executable : Path) (libraries : LibrarySet)
    (root : Option Path) (withLibc : Bool) : Prop where
  usable : ∃ name program, Usable files executable name program
  loader : withLibc = true → ∃! loader, loader ∈ libraries ∧ loader.isLoader = true
  readable : ∀ library, IsFirst libraries library →
    ∃ data, files.read (source root library) = .ok data

private theorem exists_usable_or (files : Files) (executable : Path) :
    (∃ fault, files.read executable = .error fault) ∨ files.read executable = .ok [] ∨
      (∃ program, files.read executable = .ok program ∧ program ≠ [] ∧
        executable.fileName? = none) ∨
      ∃ name program, Usable files executable name program := by
  cases read : files.read executable with
  | error fault => exact Or.inl ⟨fault, rfl⟩
  | ok program =>
      by_cases nonempty : program = []
      · exact Or.inr (Or.inl (congrArg Except.ok nonempty))
      · cases named : executable.fileName? with
        | none => exact Or.inr (Or.inr (Or.inl ⟨program, rfl, nonempty, rfl⟩))
        | some name => exact Or.inr (Or.inr (Or.inr ⟨name, program, read, nonempty, named⟩))

/-- A kept library has before it exactly those kept ones that come before it in path order. -/
theorem isFirst_of_cut {library : LibraryPath} {before later : List LibraryPath}
    (cut : distinctNames [] libraries.paths = before ++ library :: later) :
    IsFirst libraries library ∧ ∀ other,
      other ∈ before ↔ IsFirst libraries other ∧ other.compare library = .lt := by
  have sorted := (keeps_distinctNames libraries).sorted
  rw [cut] at sorted
  obtain ⟨-, behind, ahead⟩ := List.pairwise_append.mp sorted
  refine ⟨?_, fun other => ?_⟩
  · rw [← mem_distinctNames_iff, cut]
    exact List.mem_append_right _ List.mem_cons_self
  · rw [← mem_distinctNames_iff, cut, List.mem_append, List.mem_cons]
    constructor
    · intro inBefore
      exact ⟨Or.inl inBefore, ahead other inBefore library List.mem_cons_self⟩
    · rintro ⟨inBefore | rfl | inLater, below⟩
      · exact inBefore
      · exact absurd below (LibrarySet.not_below_self other)
      · exact absurd below
          (LibrarySet.not_below_swap ((List.pairwise_cons.mp behind).1 other inLater))

private theorem build_eq_error_iff_of_usable (usable : Usable files executable name program) :
    build writer files executable libraries root withLibc = .error failure ↔
      script libraries withLibc name = .error failure ∨
        ∃ text, script libraries withLibc name = .ok text ∧
          (Id.run (readLibraries (m := Id) writer files.read root []
              (distinctNames [] libraries.paths)) = .error failure ∨
            ∃ bundled, Id.run (readLibraries (m := Id) writer files.read root []
                (distinctNames [] libraries.paths)) = .ok bundled ∧
              ofParts writer name text program bundled = .error failure) := by
  rw [build_of_usable usable]
  exact bind_eq_error_iff.trans (or_congr_right (exists_congr fun text =>
    and_congr_right fun _ => bind_eq_error_iff))

/-- What can be told of a build that fails: the writer's fault, or what refuses it whatever the
writer. -/
theorem refuses_of_build
    (refused : build writer files executable libraries root withLibc = .error failure) :
    Refuses files executable libraries root withLibc failure ∨
      ∃ fault, failure = .archive fault := by
  rcases exists_usable_or files executable with
    ⟨fault, read⟩ | read | ⟨program, read, nonempty, unnamed⟩ | ⟨name, program, usable⟩
  · rw [build_of_unreadable read] at refused
    cases refused
    exact Or.inl (.unreadable read)
  · rw [build_of_empty read] at refused
    cases refused
    exact Or.inl (.empty read)
  · rw [build_of_nameless read nonempty unnamed] at refused
    cases refused
    exact Or.inl (.nameless read nonempty unnamed)
  · rcases (build_eq_error_iff_of_usable usable).mp refused with
      unscripted | ⟨text, scripted, stopped | ⟨bundled, -, unfinished⟩⟩
    · obtain ⟨⟨needed, several⟩, rfl⟩ := script_eq_error_iff.mp unscripted
      exact Or.inl (.ambiguous usable needed several libraries.sorted_loaders
        fun _ => LibrarySet.mem_loaders)
    · obtain ⟨before, library, later, entries, cut, carries, -, stops⟩ :=
        run_readLibraries_eq_error_iff.mp stopped
      cases stops with
      | @missing fault missing =>
          obtain ⟨isFirst, earlier⟩ := isFirst_of_cut cut
          refine Or.inl (.missing usable (exists_script_iff.mp ⟨text, scripted⟩) isFirst missing
            fun other otherFirst below => ?_)
          obtain ⟨entry, -, carried⟩ :=
            exists_entry_of_mem carries ((earlier other).mpr ⟨otherFirst, below⟩)
          exact ⟨entry.data, carried.data⟩
      | @untaken _ fault => exact Or.inr ⟨fault, rfl⟩
    · exact Or.inr (exists_fault_of_close unfinished)

/-- A build that succeeds has what it needs. -/
theorem buildable_of_build {archive : Archive}
    (built : build writer files executable libraries root withLibc = .ok archive) :
    Buildable files executable libraries root withLibc := by
  rcases exists_usable_or files executable with
    ⟨fault, read⟩ | read | ⟨program, read, nonempty, unnamed⟩ | ⟨name, program, usable⟩
  · cases built.symm.trans (build_of_unreadable read)
  · cases built.symm.trans (build_of_empty read)
  · cases built.symm.trans (build_of_nameless read nonempty unnamed)
  · obtain ⟨text, bundled, scripted, carries, -⟩ := (build_eq_ok_iff_of_usable usable).mp built
    refine ⟨⟨name, program, usable⟩, exists_script_iff.mp ⟨text, scripted⟩,
      fun library isFirst => ?_⟩
    obtain ⟨entry, -, carried⟩ := exists_entry_of_mem carries (mem_distinctNames_iff.mpr isFirst)
    exact ⟨entry.data, carried.data⟩

/-- What can be built is refused for no reason but the writer's. -/
theorem Buildable.not_refuses (buildable : Buildable files executable libraries root withLibc) :
    ¬Refuses files executable libraries root withLibc failure := by
  obtain ⟨name, program, usable⟩ := buildable.usable
  intro refuses
  cases refuses with
  | unreadable read => cases usable.read.symm.trans read
  | empty read =>
      cases usable.read.symm.trans read
      exact usable.nonempty rfl
  | nameless _ _ unnamed => cases usable.named.symm.trans unnamed
  | ambiguous _ needed several => exact several (buildable.loader needed)
  | missing _ _ isFirst read =>
      obtain ⟨data, found⟩ := buildable.readable _ isFirst
      cases found.symm.trans read

/-! ### Names -/

/-- Entries of different kept libraries have different names. -/
theorem nodup_names_of_carries {wanted : List LibraryPath}
    (kept : wanted <+: distinctNames [] libraries.paths)
    (carries : List.Forall₂ (Carries files root) wanted bundled) :
    (bundled.map (·.name)).Nodup := by
  have injective : Function.Injective fun name => "lib/" ++ name :=
    fun _ _ => (String.append_right_inj "lib/").mp
  have names := (nodup_fileName_distinctNames [] libraries.paths).map injective
  rw [List.map_map] at names
  rw [map_name_of_carries carries]
  exact names.sublist (kept.sublist.map _)

/-- All entries of an archive have different names. -/
theorem nodup_names_ofParts
    (carries : List.Forall₂ (Carries files root) (distinctNames [] libraries.paths) bundled) :
    ((bundled ++ [executableEntry name program, bootstrapEntry text]).map (·.name)).Nodup := by
  have parts : (bundled ++ [executableEntry name program, bootstrapEntry text]).map (·.name) =
      bundled.map (·.name) ++ ["bin/" ++ name, "bootstrap"] := List.map_append
  rw [parts, List.nodup_append]
  refine ⟨nodup_names_of_carries List.prefix_rfl carries, ?_, ?_⟩
  · simp [bin_ne_bootstrap]
  · intro libName member other inRest
    rw [map_name_of_carries carries] at member
    obtain ⟨library, -, rfl⟩ := List.mem_map.mp member
    rcases List.mem_cons.mp inRest with rfl | last
    · exact lib_ne_bin library.fileName name
    · rw [List.mem_singleton.mp last]
      exact lib_ne_bootstrap library.fileName

/-! ### With a writer that takes what is bundled -/

/-- What a build can hand to its writer: the executable, the kept libraries and the script. -/
inductive Content (files : Files) (executable : Path) (libraries : LibrarySet)
    (root : Option Path) (withLibc : Bool) : Bytes → Prop where
  | program {data : Bytes} (read : files.read executable = .ok data) :
      Content files executable libraries root withLibc data
  | library {library : LibraryPath} {data : Bytes} (isFirst : IsFirst libraries library)
      (read : files.read (source root library) = .ok data) :
      Content files executable libraries root withLibc data
  | script {name text : String} (named : executable.fileName? = some name)
      (scripted : script libraries withLibc name = .ok text) :
      Content files executable libraries root withLibc (Bytes.ofText text)

private theorem content_of_carries {wanted : List LibraryPath}
    (kept : ∀ library ∈ wanted, IsFirst libraries library)
    (carries : List.Forall₂ (Carries files root) wanted bundled) :
    ∀ entry ∈ bundled, Content files executable libraries root withLibc entry.data := by
  intro entry member
  obtain ⟨library, listed, carried⟩ := exists_library_of_mem carries member
  exact .library (kept library listed) carried.data

private theorem content_ofParts (usable : Usable files executable name program)
    (scripted : script libraries withLibc name = .ok text)
    (carries : List.Forall₂ (Carries files root) (distinctNames [] libraries.paths) bundled) :
    ∀ entry ∈ bundled ++ [executableEntry name program, bootstrapEntry text],
      Content files executable libraries root withLibc entry.data := by
  refine List.forall_mem_append.mpr ⟨content_of_carries (fun _ => mem_distinctNames_iff.mp) carries,
    List.forall_mem_cons.mpr ⟨.program usable.read, List.forall_mem_singleton.mpr ?_⟩⟩
  exact .script usable.named scripted

/-- The writer that is used takes what fits into the fields of an entry. -/
theorem standard_takes_of_le
    (small : ∀ stored ∈ files.nodes, ∀ content, stored.2 = .file content →
      content.length ≤ Zip.Writer.largest)
    (short : ∀ name text, executable.fileName? = some name →
      script libraries withLibc name = .ok text →
        (Bytes.ofText text).length ≤ Zip.Writer.largest) :
    Zip.Writer.standard.Takes (Content files executable libraries root withLibc) := by
  refine Zip.Writer.standard_takes.mono fun content given => ?_
  have read {path : Path} {content : Bytes} (found : files.read path = .ok content) :
      content.length ≤ Zip.Writer.largest := by
    obtain ⟨names, stored⟩ := Files.exists_mem_of_read found
    exact small _ stored content rfl
  cases given with
  | program found => exact read found
  | library _ found => exact read found
  | script named scripted => exact short _ _ named scripted

/-- Such a writer is never to blame. -/
theorem ne_archive_of_takes (takes : writer.Takes
      (Content files executable libraries root withLibc)) {fault : ArchiveFault} :
    build writer files executable libraries root withLibc ≠ .error (.archive fault) := by
  intro refused
  rcases exists_usable_or files executable with
    ⟨fault, read⟩ | read | ⟨program, read, nonempty, unnamed⟩ | ⟨name, program, usable⟩
  · cases refused.symm.trans (build_of_unreadable read)
  · cases refused.symm.trans (build_of_empty read)
  · cases refused.symm.trans (build_of_nameless read nonempty unnamed)
  · rcases (build_eq_error_iff_of_usable usable).mp refused with
      unscripted | ⟨text, scripted, stopped | ⟨bundled, read, unfinished⟩⟩
    · cases (script_eq_error_iff.mp unscripted).2
    · obtain ⟨before, library, later, entries, cut, carries, -, stops⟩ :=
        run_readLibraries_eq_error_iff.mp stopped
      cases stops with
      | @untaken data _ found refuses =>
          -- The refused entry ends a list of entries of kept libraries, which the writer takes.
          have whole : List.Forall₂ (Carries files root) (before ++ [library])
              (entries ++ [libraryEntry library data]) :=
            List.rel_append carries (.cons (carries_iff.mpr ⟨data, found, rfl⟩) .nil)
          have kept : before ++ [library] <+: distinctNames [] libraries.paths :=
            ⟨later, by rw [cut, ← List.append_cons]⟩
          have taken := takes.put (nodup_names_of_carries kept whole) (content_of_carries
            (fun other member => mem_distinctNames_iff.mp (kept.subset member)) whole)
          cases taken.symm.trans refuses
    · obtain ⟨carries, -⟩ := run_readLibraries_eq_ok_iff.mp read
      obtain ⟨archive, closed⟩ := exists_close_of_takes takes (nodup_names_ofParts carries)
        (content_ofParts usable scripted carries)
      cases closed.symm.trans unfinished

/-- Then a build fails exactly for what refuses it. -/
theorem build_eq_error_iff (takes : writer.Takes
      (Content files executable libraries root withLibc)) :
    build writer files executable libraries root withLibc = .error failure ↔
      Refuses files executable libraries root withLibc failure := by
  constructor
  · intro refused
    apply (refuses_of_build refused).resolve_right
    rintro ⟨fault, rfl⟩
    exact ne_archive_of_takes takes refused
  · intro refuses
    cases refuses with
    | unreadable read => exact build_of_unreadable read
    | empty read => exact build_of_empty read
    | nameless read nonempty unnamed => exact build_of_nameless read nonempty unnamed
    | @ambiguous name program candidates usable needed several sorted mem_iff =>
        have same : candidates = libraries.loaders := by
          have inOrder : candidates.Pairwise LibrarySet.Below := sorted
          exact inOrder.eq_of_mem_iff libraries.sorted_loaders fun library =>
            (mem_iff library).trans LibrarySet.mem_loaders.symm
        rw [build_eq_error_iff_of_usable usable, same]
        exact Or.inl (script_eq_error_iff.mpr ⟨⟨needed, several⟩, rfl⟩)
    | missing usable sole isFirst read readable =>
        obtain ⟨text, scripted⟩ := exists_script_iff.mpr sole
        obtain ⟨before, later, cut⟩ := List.append_of_mem (mem_distinctNames_iff.mpr isFirst)
        have earlier := (isFirst_of_cut cut).2
        obtain ⟨entries, carries⟩ := exists_carries fun other member =>
          readable other ((earlier other).mp member).1 ((earlier other).mp member).2
        have taken := takes entries
          (nodup_names_of_carries ⟨_, cut.symm⟩ carries)
          (content_of_carries (fun other member => ((earlier other).mp member).1) carries)
        exact (build_eq_error_iff_of_usable usable).mpr (Or.inr ⟨text, scripted, Or.inl
          (run_readLibraries_eq_error_iff.mpr
            ⟨before, _, later, entries, cut, carries, taken.1, .missing read⟩)⟩)

/-- Then a build succeeds exactly if it has what it needs. -/
theorem exists_build_iff (takes : writer.Takes
      (Content files executable libraries root withLibc)) :
    (∃ archive, build writer files executable libraries root withLibc = .ok archive) ↔
      Buildable files executable libraries root withLibc := by
  constructor
  · rintro ⟨archive, built⟩
    exact buildable_of_build built
  · intro buildable
    cases built : build writer files executable libraries root withLibc with
    | ok archive => exact ⟨archive, rfl⟩
    | error failure =>
        exact absurd ((build_eq_error_iff takes).mp built) buildable.not_refuses

/-! ### Layout -/

/-- What an archive holds: the kept libraries in path order, the executable and the script, under
names that differ.  What follows `bin/` or `lib/` is a single component; a library's name is one
because files lie only in directories. -/
structure LaidOut (writer : Zip.Writer) (files : Files) (executable : Path)
    (libraries : LibrarySet) (root : Option Path) (withLibc : Bool) (archive : Archive) :
    Prop where
  entries : ∃ name program text kept bundled, Usable files executable name program ∧
    script libraries withLibc name = .ok text ∧ Keeps libraries kept ∧
    List.Forall₂ (Carries files root) kept bundled ∧
    archive.entries = bundled ++
      [⟨"bin/" ++ name, 0o755, .epoch, program⟩, ⟨"bootstrap", 0o755, .epoch, Bytes.ofText text⟩]
  written : writer.finish archive.entries = .ok archive.bytes
  digested : archive.digest = Sha256.digest archive.bytes
  distinct : (archive.entries.map (·.name)).Nodup
  single : ∀ entry ∈ archive.entries, entry.name = "bootstrap" ∨
    ∃ directory name, (directory = "bin/" ∨ directory = "lib/") ∧
      entry.name = directory ++ name ∧ (⟨name⟩ : Path).components = [.name name]

/-- Every archive that is built is laid out as archives are. -/
theorem laidOut_of_build {archive : Archive}
    (built : build writer files executable libraries root withLibc = .ok archive) :
    LaidOut writer files executable libraries root withLibc archive := by
  obtain ⟨name, program, usable⟩ := (buildable_of_build built).usable
  obtain ⟨text, bundled, scripted, carries, -, closes⟩ :=
    (build_eq_ok_iff_of_usable usable).mp built
  refine ⟨⟨name, program, text, _, bundled, usable, scripted, keeps_distinctNames libraries,
    carries, closes.entries⟩, closes.bytes, closes.digest, ?_, fun entry member => ?_⟩
  · rw [closes.entries]
    exact nodup_names_ofParts carries
  · rw [closes.entries] at member
    rcases List.mem_append.mp member with inBundled | inRest
    · obtain ⟨library, -, carried⟩ := exists_library_of_mem carries inBundled
      exact Or.inr ⟨"lib/", library.fileName, Or.inr rfl, carried.name,
        components_fileName carried.data⟩
    · rcases List.mem_cons.mp inRest with rfl | last
      · exact Or.inr ⟨"bin/", name, Or.inl rfl, rfl,
          Path.components_of_isStep (Path.isStep_of_fileName? usable.named)⟩
      · exact Or.inl (congrArg ArchiveEntry.name (List.mem_singleton.mp last))

/-- Only the executable and the kept libraries are read. -/
theorem build_congr {others : Files}
    (sameExecutable : others.read executable = files.read executable)
    (sameLibraries : ∀ library, IsFirst libraries library →
      others.read (source root library) = files.read (source root library)) :
    build writer others executable libraries root withLibc =
      build writer files executable libraries root withLibc := by
  have readings {taken : List ArchiveEntry} {wanted : List LibraryPath}
      (same : ∀ library ∈ wanted,
        others.read (source root library) = files.read (source root library)) :
      readLibraries (m := Id) writer others.read root taken wanted =
        readLibraries (m := Id) writer files.read root taken wanted := by
    induction wanted generalizing taken with
    | nil => rfl
    | cons library later ih =>
        obtain ⟨first, rest⟩ := List.forall_mem_cons.mp same
        rw [readLibraries, readLibraries, first]
        simp only [ih rest]
  rw [build, build, assemble, assemble, sameExecutable,
    readings fun library kept => sameLibraries library (mem_distinctNames_iff.mp kept)]

end Building

/-- An archive is built only if the executable can be bundled, one loader is there where one is
needed, and every library that is the first of its file name can be read.  Then it lists these
libraries in path order, the executable and the script; otherwise the first of these conditions that
fails is told, or a fault of the writer.  A writer that takes what it is given is never to blame, so
that an archive is built exactly under these conditions.  Libraries that come later under a file
name are never looked at. -/
theorem build_layout (writer : Zip.Writer) (files : Files) (executable : Path)
    (libraries : LibrarySet) (root : Option Path) (withLibc : Bool) :
    (∀ archive, build writer files executable libraries root withLibc = .ok archive →
      Buildable files executable libraries root withLibc ∧
        LaidOut writer files executable libraries root withLibc archive) ∧
    (∀ failure, build writer files executable libraries root withLibc = .error failure →
      Refuses files executable libraries root withLibc failure ∨
        ∃ fault, failure = .archive fault) ∧
    (writer.Takes (Content files executable libraries root withLibc) →
      ((∃ archive, build writer files executable libraries root withLibc = .ok archive) ↔
        Buildable files executable libraries root withLibc) ∧
      ∀ failure, build writer files executable libraries root withLibc = .error failure ↔
        Refuses files executable libraries root withLibc failure) ∧
    ∀ others : Files, others.read executable = files.read executable →
      (∀ library, IsFirst libraries library →
        others.read (source root library) = files.read (source root library)) →
      build writer others executable libraries root withLibc =
        build writer files executable libraries root withLibc :=
  ⟨fun _ built => ⟨buildable_of_build built, laidOut_of_build built⟩, fun _ => refuses_of_build,
    fun takes => ⟨exists_build_iff takes, fun _ => build_eq_error_iff takes⟩,
    fun _ => build_congr⟩

/-- A library of the same file name that comes later in path order need not even be there. -/
theorem build_layout_dropped :
    let loader : LibraryPath := .ofPath ⟨"/lib/ld-x.so"⟩
    let first : LibraryPath := .ofPath ⟨"/lib/libc.so"⟩
    let later : LibraryPath := .ofPath ⟨"/usr/lib/libc.so"⟩
    let libraries : LibrarySet := .ofList [later, first, loader]
    let root : Option Path := some ⟨"/r"⟩
    let files : Files := ⟨[],
      [(["a"], .file [1]), (["r"], .directory), (["r", "lib"], .directory),
        (["r", "lib", "ld-x.so"], .file [7]), (["r", "lib", "libc.so"], .file [5])]⟩
    files.read (source root later) = .error .notFound ∧
      Zip.Writer.standard.Takes (Content files ⟨"/a"⟩ libraries root true) ∧
      Buildable files ⟨"/a"⟩ libraries root true ∧
      ∃ archive, build .standard files ⟨"/a"⟩ libraries root true = .ok archive ∧
        LaidOut .standard files ⟨"/a"⟩ libraries root true archive ∧
        archive.entries.map (fun entry => (entry.name, entry.mode, entry.data.take 1)) =
          [("lib/ld-x.so", 0o755, [7]), ("lib/libc.so", 0o644, [5]), ("bin/a", 0o755, [1]),
            ("bootstrap", 0o755, [35])] := by
  intro loader first later libraries root files
  have listed : (build .standard files ⟨"/a"⟩ libraries root true).toOption.map (fun archive =>
      archive.entries.map fun entry => (entry.name, entry.mode, entry.data.take 1)) =
      some [("lib/ld-x.so", 0o755, [7]), ("lib/libc.so", 0o644, [5]), ("bin/a", 0o755, [1]),
        ("bootstrap", 0o755, [35])] := by
    decide +kernel
  have missing : files.read (source root later) = .error .notFound := by decide +kernel
  have takes : Zip.Writer.standard.Takes (Content files ⟨"/a"⟩ libraries root true) := by
    refine standard_takes_of_le (by simp [files, Zip.Writer.largest]) ?_
    intro name text named scripted
    have plain : (⟨"/a"⟩ : Path).fileName? = some "a" := by decide +kernel
    obtain rfl : name = "a" := Option.some.inj (named.symm.trans plain)
    have short : (script libraries true "a").toOption.all (fun text =>
        decide ((Bytes.ofText text).length ≤ Zip.Writer.largest)) = true := by
      decide +kernel
    rw [scripted] at short
    exact of_decide_eq_true short
  obtain ⟨holds, -, succeeds, -⟩ := build_layout .standard files ⟨"/a"⟩ libraries root true
  cases built : build .standard files ⟨"/a"⟩ libraries root true with
  | error failure =>
      rw [built] at listed
      cases listed
  | ok archive =>
      rw [built] at listed
      exact ⟨missing, takes, (succeeds takes).1.mp ⟨archive, built⟩, archive, rfl,
        (holds archive built).2, Option.some.inj listed⟩

end FunctionBundler.Archive
