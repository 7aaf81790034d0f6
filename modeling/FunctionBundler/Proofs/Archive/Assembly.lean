/-
Module: FunctionBundler.Proofs.Archive.Assembly
Purpose: Which files the assembly of an archive reads, and what becomes of what is found in them.
Trusted boundary: none
Main exports:
  Archive.Reading, Archive.Bundles, Archive.Assembles, Archive.trace_assemble_iff,
  Archive.exists_assembles_build
-/
import FunctionBundler.Proofs.Archive.Writing
import FunctionBundler.Proofs.Program.Trace
import FunctionBundler.Task

namespace FunctionBundler.Archive

/-!
An assembly reads the executable, and then the libraries that are bundled, one
after the other up to the first that cannot be read or written.  `Assembles` says what is read
and what comes of it, without saying who reads: a task that asks for each file, or a
function on a file system that does not change meanwhile.
-/

/-- A file that was read, and what was found. -/
abbrev Reading := Path × Except FileError Bytes

/-- Libraries are read and put behind what was taken before, in their order, up to the first that
cannot be read or is not taken. -/
inductive Bundles (writer : Zip.Writer) (root : Option Path) :
    List ArchiveEntry → List LibraryPath → List Reading → Except Failure (List ArchiveEntry) →
      Prop where
  | done {taken : List ArchiveEntry} : Bundles writer root taken [] [] (.ok [])
  | missing {taken : List ArchiveEntry} {library : LibraryPath} {later : List LibraryPath}
      (fault : FileError) :
      Bundles writer root taken (library :: later) [(source root library, .error fault)]
        (.error (.missingLibrary library (source root library) fault))
  | untaken {taken : List ArchiveEntry} {library : LibraryPath} {later : List LibraryPath}
      {data : Bytes} {fault : ArchiveFault}
      (refuses : writer.put taken (libraryEntry library data) = .error fault) :
      Bundles writer root taken (library :: later) [(source root library, .ok data)]
        (.error (.archive fault))
  | bundled {taken : List ArchiveEntry} {library : LibraryPath} {later : List LibraryPath}
      {readings : List Reading} {result : Except Failure (List ArchiveEntry)} {data : Bytes}
      (takes : writer.put taken (libraryEntry library data) = .ok ())
      (rest : Bundles writer root (taken ++ [libraryEntry library data]) later readings result) :
      Bundles writer root taken (library :: later) ((source root library, .ok data) :: readings)
        (result.map (libraryEntry library data :: ·))

/-- What is read for an archive, and what comes of it. -/
inductive Assembles (writer : Zip.Writer) (executable : Path) (libraries : LibrarySet)
    (root : Option Path) (withLibc : Bool) : List Reading → Except Failure Archive → Prop where
  | unreadable (fault : FileError) :
      Assembles writer executable libraries root withLibc [(executable, .error fault)]
        (.error (.invalidExecutable executable fault.message))
  | empty :
      Assembles writer executable libraries root withLibc [(executable, .ok [])]
        (.error (.invalidExecutable executable "file is empty"))
  | nameless {program : Bytes} (nonempty : program ≠ []) (unnamed : executable.fileName? = none) :
      Assembles writer executable libraries root withLibc [(executable, .ok program)]
        (.error (.invalidExecutable executable "file name is not valid UTF-8"))
  | unscripted {program : Bytes} {name : String} {failure : Failure} (nonempty : program ≠ [])
      (named : executable.fileName? = some name)
      (unscripted : script libraries withLibc name = .error failure) :
      Assembles writer executable libraries root withLibc [(executable, .ok program)]
        (.error failure)
  | bundled {program : Bytes} {name text : String} {readings : List Reading}
      {result : Except Failure (List ArchiveEntry)} (nonempty : program ≠ [])
      (named : executable.fileName? = some name)
      (scripted : script libraries withLibc name = .ok text)
      (bundles : Bundles writer root [] (distinctNames [] libraries.paths) readings result) :
      Assembles writer executable libraries root withLibc ((executable, .ok program) :: readings)
        (result.bind (ofParts writer name text program))

section Succeeding

variable {writer : Zip.Writer} {executable : Path} {libraries : LibrarySet} {root : Option Path}
  {withLibc : Bool} {readings : List Reading} {archive : Archive}

/-- What an assembly that succeeds has gone through. -/
theorem Assembles.of_ok
    (assembles : Assembles writer executable libraries root withLibc readings (.ok archive)) :
    ∃ program name text bundled entries, program ≠ [] ∧ executable.fileName? = some name ∧
      script libraries withLibc name = .ok text ∧
      readings = (executable, .ok program) :: bundled ∧
      Bundles writer root [] (distinctNames [] libraries.paths) bundled (.ok entries) ∧
      Closes writer (entries ++ [executableEntry name program, bootstrapEntry text]) archive := by
  generalize ended : (Except.ok archive : Except Failure Archive) = result at assembles
  cases assembles with
  | unreadable | empty | nameless | unscripted => cases ended
  | @bundled program name text bundled result nonempty named scripted bundles =>
      cases result with
      | error failure => cases ended
      | ok entries =>
          have closes := (close_eq_ok_iff.mp ended.symm).2
          exact ⟨program, name, text, bundled, entries, nonempty, named, scripted, rfl, bundles,
            closes⟩

end Succeeding

/-! ### Which files are read -/

/-- What is kept of a list of libraries is in it, and its name has not been seen before. -/
theorem notMem_seen_of_mem_distinctNames {seen : List String} {libraries : List LibraryPath}
    {library : LibraryPath} (member : library ∈ distinctNames seen libraries) :
    library ∈ libraries ∧ library.fileName ∉ seen := by
  induction libraries generalizing seen with
  | nil => cases member
  | cons first rest ih =>
      rw [distinctNames] at member
      split at member
      case isTrue dropped => exact ⟨List.mem_cons_of_mem first (ih member).1, (ih member).2⟩
      case isFalse fresh =>
          rcases List.mem_cons.mp member with rfl | later
          · exact ⟨List.mem_cons_self, fresh⟩
          · obtain ⟨inRest, notSeen⟩ := ih later
            exact ⟨List.mem_cons_of_mem first inRest,
              fun seenBefore => notSeen (List.mem_cons_of_mem _ seenBefore)⟩

/-- Nothing but sources of the libraries is read. -/
theorem Bundles.path_mem {writer : Zip.Writer} {root : Option Path} {taken : List ArchiveEntry}
    {libraries : List LibraryPath} {readings : List Reading}
    {result : Except Failure (List ArchiveEntry)}
    (bundles : Bundles writer root taken libraries readings result) :
    ∀ reading ∈ readings, ∃ library ∈ libraries, reading.1 = source root library := by
  induction bundles with
  | done => exact nofun
  | @missing _ library | @untaken _ library =>
      intro reading member
      cases List.mem_singleton.mp member
      exact ⟨library, List.mem_cons_self, rfl⟩
  | @bundled _ library _ _ _ _ _ _ ih =>
      intro reading member
      rcases List.mem_cons.mp member with rfl | inRest
      · exact ⟨library, List.mem_cons_self, rfl⟩
      · obtain ⟨other, inLater, same⟩ := ih reading inRest
        exact ⟨other, List.mem_cons_of_mem library inLater, same⟩

/-- An assembly reads the executable and libraries of the set, and nothing else. -/
theorem Assembles.path_mem {writer : Zip.Writer} {executable : Path} {libraries : LibrarySet}
    {root : Option Path} {withLibc : Bool} {readings : List Reading}
    {result : Except Failure Archive}
    (assembles : Assembles writer executable libraries root withLibc readings result) :
    ∀ reading ∈ readings,
      reading.1 = executable ∨ ∃ library ∈ libraries.paths, reading.1 = source root library := by
  cases assembles with
  | unreadable | empty | nameless | unscripted =>
      intro reading member
      cases List.mem_singleton.mp member
      exact Or.inl rfl
  | bundled nonempty named scripted bundles =>
      intro reading member
      rcases List.mem_cons.mp member with rfl | inRest
      · exact Or.inl rfl
      · obtain ⟨library, kept, same⟩ := bundles.path_mem reading inRest
        exact Or.inr ⟨library, (notMem_seen_of_mem_distinctNames kept).1, same⟩

/-! ### A task that asks for each file -/

/-- A file that was read, as a task asks for it. -/
def asked (reading : Reading) : Exchanged :=
  ⟨.access (.read reading.1), reading.2⟩

/-- Ask for a file. -/
def askFor (path : Path) : Talk (Except FileError Bytes) :=
  Talk.ask (.access (.read path))

section Asking

variable {writer : Zip.Writer} {executable : Path} {libraries : LibrarySet} {root : Option Path}
  {withLibc : Bool} {taken : List ArchiveEntry}

private theorem trace_askFor_bind_iff {α : Type} {path : Path}
    {next : Except FileError Bytes → Talk α} {said : List Exchanged} {result : α} :
    Program.Trace ((askFor path).bind next) said result ↔
      ∃ found later, said = asked (path, found) :: later ∧
        Program.Trace (next found) later result :=
  Program.trace_ask_iff

private theorem trace_adding_iff {entry : ArchiveEntry}
    {program : Talk (Except Failure (List ArchiveEntry))} {said : List Exchanged}
    {result : Except Failure (List ArchiveEntry)} :
    Program.Trace (program.bind fun
      | .error failure => .done (.error failure)
      | .ok entries => .done (.ok (entry :: entries))) said result ↔
      ∃ entries, Program.Trace program said entries ∧ result = entries.map (entry :: ·) :=
  Program.trace_bind_done_iff fun entries => by cases entries <;> rfl

private theorem trace_packing_iff {program : Talk (Except Failure (List ArchiveEntry))}
    {name text : String} {content : Bytes} {said : List Exchanged}
    {result : Except Failure Archive} :
    Program.Trace (program.bind fun
      | .error failure => .done (.error failure)
      | .ok entries => .done (ofParts writer name text content entries)) said result ↔
      ∃ entries, Program.Trace program said entries ∧
        result = entries.bind (ofParts writer name text content) :=
  Program.trace_bind_done_iff fun entries => by cases entries <;> rfl

private theorem trace_readLibraries_iff {wanted : List LibraryPath} {said : List Exchanged}
    {result : Except Failure (List ArchiveEntry)} :
    Program.Trace (readLibraries writer askFor root taken wanted) said result ↔
      ∃ readings, said = readings.map asked ∧ Bundles writer root taken wanted readings result := by
  induction wanted generalizing taken said result with
  | nil =>
      rw [readLibraries, Program.pure_eq, Program.trace_done_iff]
      constructor
      · intro ended
        obtain ⟨rfl, rfl⟩ := ended
        exact ⟨[], rfl, .done⟩
      · intro parts
        obtain ⟨readings, rfl, bundles⟩ := parts
        cases bundles
        exact ⟨rfl, rfl⟩
  | cons library later ih =>
      rw [readLibraries, Program.bind_eq, trace_askFor_bind_iff]
      constructor
      · intro trace
        obtain ⟨found, rest, rfl, trace⟩ := trace
        cases found with
        | error fault =>
            obtain ⟨rfl, rfl⟩ := Program.trace_done_iff.mp trace
            exact ⟨[(_, .error fault)], rfl, .missing fault⟩
        | ok data =>
            dsimp only at trace
            split at trace
            case h_1 fault refuses =>
                obtain ⟨rfl, rfl⟩ := Program.trace_done_iff.mp trace
                exact ⟨[(_, .ok data)], rfl, .untaken refuses⟩
            case h_2 takes =>
                obtain ⟨entries, first, rfl⟩ := trace_adding_iff.mp trace
                obtain ⟨readings, rfl, bundles⟩ := ih.mp first
                exact ⟨(_, .ok data) :: readings, rfl, .bundled takes bundles⟩
      · intro parts
        obtain ⟨readings, rfl, bundles⟩ := parts
        cases bundles with
        | missing fault => exact ⟨.error fault, [], rfl, .done _⟩
        | @untaken _ _ _ data fault refuses =>
            refine ⟨.ok data, [], rfl, ?_⟩
            dsimp only
            rw [refuses]
            exact .done _
        | @bundled _ _ _ readings _ data takes rest =>
            refine ⟨.ok data, _, rfl, ?_⟩
            dsimp only
            rw [takes]
            exact trace_adding_iff.mpr ⟨_, ih.mpr ⟨_, rfl, rest⟩, rfl⟩

/-- What is asked while an archive is put together are its readings, and nothing else. -/
theorem trace_assemble_iff {said : List Exchanged} {result : Except Failure Archive} :
    Program.Trace (assemble writer askFor executable libraries root withLibc) said result ↔
      ∃ readings, said = readings.map asked ∧
        Assembles writer executable libraries root withLibc readings result := by
  rw [assemble, Program.bind_eq, trace_askFor_bind_iff]
  constructor
  · intro trace
    obtain ⟨found, rest, rfl, trace⟩ := trace
    match found with
    | .error fault =>
        obtain ⟨rfl, rfl⟩ := Program.trace_done_iff.mp trace
        exact ⟨[(_, .error fault)], rfl, .unreadable fault⟩
    | .ok [] =>
        obtain ⟨rfl, rfl⟩ := Program.trace_done_iff.mp trace
        exact ⟨[(_, .ok [])], rfl, .empty⟩
    | .ok (byte :: bytes) =>
        have nonempty : byte :: bytes ≠ [] := List.cons_ne_nil byte bytes
        dsimp only at trace
        split at trace
        case h_1 unnamed =>
            obtain ⟨rfl, rfl⟩ := Program.trace_done_iff.mp trace
            exact ⟨[(_, .ok _)], rfl, .nameless nonempty unnamed⟩
        case h_2 name named =>
            split at trace
            case h_1 failure unscripted =>
                obtain ⟨rfl, rfl⟩ := Program.trace_done_iff.mp trace
                exact ⟨[(_, .ok _)], rfl, .unscripted nonempty named unscripted⟩
            case h_2 text scripted =>
                obtain ⟨entries, first, rfl⟩ := trace_packing_iff.mp trace
                obtain ⟨readings, rfl, bundles⟩ := trace_readLibraries_iff.mp first
                exact ⟨(_, .ok _) :: readings, rfl, .bundled nonempty named scripted bundles⟩
  · intro parts
    obtain ⟨readings, rfl, assembles⟩ := parts
    cases assembles with
    | unreadable fault => exact ⟨.error fault, [], rfl, .done _⟩
    | empty => exact ⟨.ok [], [], rfl, .done _⟩
    | @nameless program nonempty unnamed =>
        obtain ⟨byte, bytes, rfl⟩ := List.exists_cons_of_ne_nil nonempty
        refine ⟨.ok (byte :: bytes), [], rfl, ?_⟩
        rw [unnamed]
        exact .done _
    | @unscripted program name failure nonempty named unscripted =>
        obtain ⟨byte, bytes, rfl⟩ := List.exists_cons_of_ne_nil nonempty
        refine ⟨.ok (byte :: bytes), [], rfl, ?_⟩
        rw [named]
        dsimp only
        rw [unscripted]
        exact .done _
    | @bundled program name text readings entries nonempty named scripted bundles =>
        obtain ⟨byte, bytes, rfl⟩ := List.exists_cons_of_ne_nil nonempty
        refine ⟨.ok (byte :: bytes), _, rfl, ?_⟩
        rw [named]
        dsimp only
        rw [scripted]
        exact trace_packing_iff.mpr
          ⟨entries, trace_readLibraries_iff.mpr ⟨readings, rfl, bundles⟩, rfl⟩

end Asking

/-! ### A file system that does not change -/

section Building

variable {writer : Zip.Writer} {files : Files} {executable : Path} {libraries : LibrarySet}
  {root : Option Path} {withLibc : Bool}

/-- The first library is read, then its entry is put, and then come the later libraries. -/
theorem run_readLibraries_cons (taken : List ArchiveEntry) (library : LibraryPath)
    (later : List LibraryPath) :
    Id.run (readLibraries (m := Id) writer files.read root taken (library :: later)) =
      match files.read (source root library) with
      | .error fault => .error (.missingLibrary library (source root library) fault)
      | .ok data =>
        match writer.put taken (libraryEntry library data) with
        | .error fault => .error (.archive fault)
        | .ok () => (Id.run (readLibraries (m := Id) writer files.read root
            (taken ++ [libraryEntry library data]) later)).map
              (libraryEntry library data :: ·) := by
  dsimp only [readLibraries, Id.run, bind]
  cases files.read (source root library) with
  | error fault => rfl
  | ok data =>
      dsimp only
      cases writer.put taken (libraryEntry library data) with
      | error fault => rfl
      | ok =>
          dsimp only
          cases readLibraries (m := Id) writer files.read root
            (taken ++ [libraryEntry library data]) later <;> rfl

private theorem exists_bundles_readLibraries (taken : List ArchiveEntry)
    (wanted : List LibraryPath) :
    ∃ readings, (∀ reading ∈ readings, reading.2 = files.read reading.1) ∧
      Bundles writer root taken wanted readings
        (Id.run (readLibraries (m := Id) writer files.read root taken wanted)) := by
  induction wanted generalizing taken with
  | nil => exact ⟨[], by simp, .done⟩
  | cons library later ih =>
      rw [run_readLibraries_cons]
      cases found : files.read (source root library) with
      | error fault =>
          exact ⟨[(_, .error fault)], List.forall_mem_singleton.mpr found.symm, .missing fault⟩
      | ok data =>
          dsimp only
          cases put : writer.put taken (libraryEntry library data) with
          | error fault =>
              exact ⟨[(_, .ok data)], List.forall_mem_singleton.mpr found.symm, .untaken put⟩
          | ok =>
              obtain ⟨readings, honest, bundles⟩ := ih (taken ++ [libraryEntry library data])
              exact ⟨(_, .ok data) :: readings, List.forall_mem_cons.mpr ⟨found.symm, honest⟩,
                .bundled put bundles⟩

/-- What is built on a file system is assembled from what its files hold. -/
theorem exists_assembles_build :
    ∃ readings, (∀ reading ∈ readings, reading.2 = files.read reading.1) ∧
      Assembles writer executable libraries root withLibc readings
        (build writer files executable libraries root withLibc) := by
  rw [build, assemble]
  cases found : files.read executable with
  | error fault =>
      exact ⟨[(_, .error fault)], List.forall_mem_singleton.mpr found.symm, .unreadable fault⟩
  | ok program =>
      cases program with
      | nil => exact ⟨[(_, .ok [])], List.forall_mem_singleton.mpr found.symm, .empty⟩
      | cons byte bytes =>
          have nonempty : byte :: bytes ≠ [] := List.cons_ne_nil byte bytes
          dsimp only [Id.run, bind]
          split
          case h_1 unnamed =>
              exact ⟨[(_, .ok _)], List.forall_mem_singleton.mpr found.symm,
                .nameless nonempty unnamed⟩
          case h_2 name named =>
              split
              case h_1 failure unscripted =>
                  exact ⟨[(_, .ok _)], List.forall_mem_singleton.mpr found.symm,
                    .unscripted nonempty named unscripted⟩
              case h_2 text scripted =>
                  obtain ⟨readings, honest, bundles⟩ := @exists_bundles_readLibraries writer
                    files root [] (distinctNames [] libraries.paths)
                  refine ⟨(_, .ok _) :: readings, List.forall_mem_cons.mpr ⟨found.symm, honest⟩, ?_⟩
                  have assembled := Assembles.bundled nonempty named scripted bundles
                  dsimp only [Id.run] at assembled
                  split
                  case h_1 failure bundled =>
                      rw [bundled] at assembled
                      exact assembled
                  case h_2 entries bundled =>
                      rw [bundled] at assembled
                      exact assembled

end Building

end FunctionBundler.Archive
