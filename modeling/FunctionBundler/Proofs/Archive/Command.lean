/-
Module: FunctionBundler.Proofs.Archive.Command
Purpose: The last line of an archive's script, and for which names it starts what is packaged.
Trusted boundary: none
Main exports:
  Bootstrap.lines, Bootstrap.opening, Bootstrap.exists_line_iff, Archive.Packages,
  Archive.build_command, Archive.build_command_splits
-/
import FunctionBundler.Proofs.Archive.Layout
import FunctionBundler.Proofs.Archive.Script
import FunctionBundler.Proofs.Fallible
import FunctionBundler.Proofs.Text.Lines

namespace FunctionBundler

/-!
A script has its command on one line, behind lines that are the same for all names, exactly if no
name in it has a line break; and the words of that line are those of the command exactly if
no name has a blank either.  A build looks at names for neither, so it accepts names for
which the script starts something else than what the archive holds.
-/

namespace Bootstrap

/-- The lines of a script, each of which ends in a line feed. -/
def lines (script : String) : List (List Char) :=
  (Text.pieces '\n' script.toList).dropLast

/-- What a script holds before its command, with the C library or without. -/
def opening (withLibc : Bool) : String :=
  if withLibc then preamble else preamble ++ searchPath

private theorem opening_ends (withLibc : Bool) :
    (opening withLibc).toList.getLast? = some '\n' := by
  cases withLibc with
  | true => decide +kernel
  | false =>
      have last : searchPath.toList.getLast? = some '\n' := by decide +kernel
      change (preamble ++ searchPath).toList.getLast? = some '\n'
      rw [String.toList_append, List.getLast?_append, last]
      rfl

/-- What is added to lines are the lines that it consists of. -/
theorem lines_append {before : String} (ends : before.toList.getLast? = some '\n') (line : String) :
    lines (before ++ line ++ "\n") = lines before ++ Text.pieces '\n' line.toList := by
  obtain ⟨start, cut⟩ := List.getLast?_eq_some_iff.mp ends
  have ended (text : List Char) :
      Text.pieces '\n' (text ++ "\n".toList) = Text.pieces '\n' text ++ [[]] :=
    Text.pieces_append '\n' text []
  have whole : (before ++ line ++ "\n").toList = start ++ '\n' :: (line.toList ++ "\n".toList) := by
    rw [String.toList_append, String.toList_append, cut, List.append_assoc, List.append_assoc]
    rfl
  rw [lines, lines, whole, Text.pieces_append, ended, ← List.append_assoc, List.dropLast_concat,
    cut]
  exact congrArg (· ++ _) (ended start ▸ List.dropLast_concat.symm)

/-- A command stands on one line and is cut into its words exactly if its names are unbroken. -/
theorem exists_line_iff {before : String} (ends : before.toList.getLast? = some '\n')
    {loader : Option String} {binary : String} :
    (∃ line, lines (before ++ " ".intercalate (command loader binary) ++ "\n") =
        lines before ++ [line] ∧ words line = (command loader binary).map String.toList) ↔
      Unbroken binary.toList ∧ ∀ name ∈ loader, Unbroken name.toList := by
  rw [lines_append ends, ← words_command_iff]
  simp only [List.append_cancel_left_eq]
  constructor
  · rintro ⟨line, cut, same⟩
    have alone := Text.intercalate_pieces '\n' (" ".intercalate (command loader binary)).toList
    rw [cut, List.intercalate_singleton] at alone
    rwa [← alone]
  · intro same
    -- What the shell cuts out has no line feed, so words that are cut right stand on one line.
    refine ⟨_, Text.pieces_of_not_mem ?_, same⟩
    rw [String.toList_intercalate]
    refine Text.not_mem_intercalate (by decide) fun word member inWord => ?_
    rw [← same] at member
    exact ((isWord_of_mem_words word member).2 '\n' inWord).2.2 rfl

end Bootstrap

namespace Archive

/-- What an archive's script is to start: the packaged executable and, with the C library, the only
loader, which is bundled as well. -/
structure Packages (files : Files) (executable : Path) (libraries : LibrarySet) (withLibc : Bool)
    (archive : Archive) (name : String) (loader : Option String) : Prop where
  named : executable.fileName? = some name
  binary : ∃ program, files.read executable = .ok program ∧
    executableEntry name program ∈ archive.entries
  loader : withLibc = false ∧ loader = none ∨
    withLibc = true ∧ ∃ library data, libraries.loaders = [library] ∧
      loader = some library.fileName ∧ libraryEntry library data ∈ archive.entries

section

variable {writer : Zip.Writer} {files : Files} {executable : Path} {libraries : LibrarySet}
  {root : Option Path} {withLibc : Bool} {archive : Archive} {name text : String}

/-- A script consists of its opening and the command of what it is to start. -/
theorem exists_loader_of_script (scripted : script libraries withLibc name = .ok text) :
    ∃ loader, text = Bootstrap.opening withLibc ++
        " ".intercalate (Bootstrap.command loader name) ++ "\n" ∧
      (withLibc = false ∧ loader = none ∨
        withLibc = true ∧ ∃ library, libraries.loaders = [library] ∧
          loader = some library.fileName) := by
  cases withLibc with
  | false =>
      cases scripted
      exact ⟨none, rfl, Or.inl ⟨rfl, rfl⟩⟩
  | true =>
      rw [script, if_pos rfl] at scripted
      obtain ⟨library, sole, rfl⟩ := map_eq_ok_iff.mp scripted
      exact ⟨some library.fileName, rfl,
        Or.inr ⟨rfl, library, soleLoader_eq_ok_iff.mp sole, rfl⟩⟩

/-- The last entry of an archive is its script.  This has one line behind those that all scripts of
its kind begin with, and the shell cuts that line into the words that start what is packaged,
exactly if the names of the executable and of the loader have no blanks and line breaks. -/
theorem build_command
    (built : build writer files executable libraries root withLibc = .ok archive) :
    ∃ name loader text, Packages files executable libraries withLibc archive name loader ∧
      archive.entries.getLast? = some (bootstrapEntry text) ∧
      ((∃ line, Bootstrap.lines text = Bootstrap.lines (Bootstrap.opening withLibc) ++ [line] ∧
          Bootstrap.words line = (Bootstrap.command loader name).map String.toList) ↔
        Bootstrap.Unbroken name.toList ∧
          ∀ started ∈ loader, Bootstrap.Unbroken started.toList) := by
  obtain ⟨name, program, usable⟩ := (buildable_of_build built).usable
  obtain ⟨text, bundled, scripted, carries, -, closes⟩ :=
    (build_eq_ok_iff_of_usable usable).mp built
  obtain ⟨loader, rfl, which⟩ := exists_loader_of_script scripted
  refine ⟨name, loader, _, ⟨usable.named, ⟨program, usable.read, ?_⟩, ?_⟩, ?_,
    Bootstrap.exists_line_iff (Bootstrap.opening_ends withLibc)⟩
  all_goals rw [closes.entries]
  · exact List.mem_append_right _ List.mem_cons_self
  · refine which.imp_right fun ⟨bundles, library, only, started⟩ => ?_
    have kept : library ∈ distinctNames [] libraries.paths :=
      mem_distinctNames (mem_of_loaders_eq only).1 List.not_mem_nil fun other =>
        eq_of_fileName_eq only
    obtain ⟨entry, member, carried⟩ := exists_entry_of_mem carries kept
    obtain ⟨data, -, rfl⟩ := carries_iff.mp carried
    exact ⟨bundles, library, data, only, started, List.mem_append_left _ member⟩
  · exact List.getLast?_append_of_ne_nil _ (List.cons_ne_nil _ _)

end

/-- A program and its loader, both with plain names. -/
theorem build_command_loader :
    let loader : LibraryPath := .ofPath ⟨"/lib/ld-x.so"⟩
    let libraries : LibrarySet := .ofList [loader]
    let files : Files := ⟨[], [(["app-1"], .file [1]), (["lib"], .directory),
      (["lib", "ld-x.so"], .file [7])]⟩
    ∃ archive text line, build .standard files ⟨"/app-1"⟩ libraries none true = .ok archive ∧
      archive.entries.getLast? = some (bootstrapEntry text) ∧
      Bootstrap.lines text = Bootstrap.lines (Bootstrap.opening true) ++ [line] ∧
      Bootstrap.words line = ["exec", "$LAMBDA_TASK_ROOT/lib/ld-x.so", "--library-path",
        "$LAMBDA_TASK_ROOT/lib", "$LAMBDA_TASK_ROOT/bin/app-1", Bootstrap.handler].map
          String.toList := by
  intro loader libraries files
  have succeeds : (build .standard files ⟨"/app-1"⟩ libraries none true).isOk = true := by
    decide +kernel
  obtain ⟨archive, built⟩ := exists_eq_ok_of_isOk succeeds
  obtain ⟨name, started, text, packages, last, starts⟩ := build_command built
  have plain : (⟨"/app-1"⟩ : Path).fileName? = some "app-1" := by decide +kernel
  obtain rfl : name = "app-1" := Option.some.inj (packages.named.symm.trans plain)
  obtain ⟨⟨⟩, -⟩ | ⟨-, library, -, only, rfl, -⟩ := packages.loader
  have alone : libraries.loaders = [loader] := by decide +kernel
  obtain rfl : library = loader := List.singleton_injective (only.symm.trans alone)
  have named : loader.fileName = "ld-x.so" := by decide +kernel
  have unbroken : Bootstrap.Unbroken "app-1".toList ∧ Bootstrap.Unbroken "ld-x.so".toList := by
    decide +kernel
  rw [named] at starts
  obtain ⟨line, lines, words⟩ := starts.mpr
    ⟨unbroken.1, fun other same => by rw [← Option.some.inj same]; exact unbroken.2⟩
  exact ⟨archive, text, line, built, last, lines, words⟩

/-- A blank in the name of the executable: the script starts another program, and passes it the rest
of the name. -/
theorem build_command_splits :
    let files : Files := ⟨[], [(["my app"], .file [1])]⟩
    ∃ archive text line, build .standard files ⟨"/my app"⟩ .empty none false = .ok archive ∧
      archive.entries.getLast? = some (bootstrapEntry text) ∧
      Bootstrap.lines text = Bootstrap.lines (Bootstrap.opening false) ++ [line] ∧
      Bootstrap.words line =
        ["exec", "$LAMBDA_TASK_ROOT/bin/my", "app", Bootstrap.handler].map String.toList ∧
      Bootstrap.words line ≠ (Bootstrap.command none "my app").map String.toList := by
  intro files
  have usable : Usable files ⟨"/my app"⟩ "my app" [1] :=
    ⟨by decide +kernel, by decide, by decide +kernel⟩
  let parts := [executableEntry "my app" [1], bootstrapEntry (Bootstrap.withSearchPath "my app")]
  have put : Zip.Writer.standard.putAll [] parts = .ok () := by decide +kernel
  obtain ⟨archive, closes⟩ : ∃ archive, Closes .standard parts archive :=
    ⟨⟨parts, Zip.write parts, Sha256.digest (Zip.write parts)⟩, rfl, rfl, rfl⟩
  have built : build .standard files ⟨"/my app"⟩ .empty none false = .ok archive :=
    (build_eq_ok_iff_of_usable usable).mpr ⟨_, [], rfl, .nil, put, closes⟩
  have line : Bootstrap.lines (Bootstrap.withSearchPath "my app") =
      Bootstrap.lines (Bootstrap.opening false) ++
        [(" ".intercalate (Bootstrap.command none "my app")).toList] := by
    refine (Bootstrap.lines_append (Bootstrap.opening_ends false) _).trans ?_
    rw [Text.pieces_of_not_mem (by decide +kernel)]
  refine ⟨archive, _, _, built, ?_, line, by decide +kernel, by decide +kernel⟩
  rw [closes.entries]
  rfl

end Archive

end FunctionBundler
