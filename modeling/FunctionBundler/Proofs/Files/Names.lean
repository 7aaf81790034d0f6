/-
Module: FunctionBundler.Proofs.Files.Names
Purpose: A path under which a regular file can be read ends in a name.
Trusted boundary: none
Main exports:
  Path.isStep_of_fileName?, Path.components_of_isStep, Files.exists_mem_of_read,
  Files.fileName?_of_read, LibraryPath.fileName?_of_read_under
-/
import FunctionBundler.Library
import FunctionBundler.Proofs.Path.Siblings

namespace FunctionBundler

/-!
A walk goes through directories only, so what it has passed is never a regular file, and a last
step to the same place or to the one above leads to no file either.  So where a regular
file is read, the path ends in a name; and a path that was joined to another one ends
as the joined path does.
-/

namespace Path

variable {path : Path} {name : String} {piece : List Char}

/-- The name of a file is a single component. -/
theorem isStep_of_fileName? (named : path.fileName? = some name) :
    (Component.name name).IsStep := by
  have last : Component.name name ∈ path.components := by
    rw [fileName?] at named
    split at named
    case h_1 found =>
        cases named
        exact List.mem_of_getLast? found
    case h_2 => cases named
  obtain ⟨body, steps, shape | shape | shape⟩ := components_shape path
  all_goals
    rw [shape] at last
    apply steps
    simpa using last

/-- A single component, as a path, means itself. -/
theorem components_of_isStep (single : (Component.name name).IsStep) :
    (⟨name⟩ : Path).components = [.name name] := by
  have plain : ofComponents [.name name] = ⟨name⟩ := by
    simp [ofComponents, ofPieces, Component.text]
  rw [← plain]
  exact components_ofComponents_steps (by simpa using single)

/-- The last piece of a path is the file name if it is a name. -/
theorem fileName?_of_getLast? (last : path.piecesOf.getLast? = some piece)
    (read : Component.ofPiece? piece = some (.name name)) : path.fileName? = some name := by
  obtain ⟨front, cut⟩ := List.getLast?_eq_some_iff.mp last
  have body : path.piecesOf.filterMap Component.ofPiece? =
      front.filterMap Component.ofPiece? ++ [.name name] := by
    simp [cut, read]
  have ends : path.components.getLast? = some (.name name) := by
    rw [components, body]
    split
    case isTrue => exact List.getLast?_concat (l := Component.root :: _)
    case isFalse =>
        split
        case isTrue => exact List.getLast?_concat (l := Component.current :: _)
        case isFalse => exact List.getLast?_concat
  rw [fileName?, ends]

/-- Only a separator at the end, or no text at all, leaves an empty last piece. -/
theorem getLast?_pieces_eq_nil {separator : Char} {text : List Char}
    (last : (Text.pieces separator text).getLast? = some []) :
    text = [] ∨ text.getLast? = some separator := by
  induction text with
  | nil => exact Or.inl rfl
  | cons c rest ih =>
      refine Or.inr ?_
      rw [Text.pieces] at last
      cases rest with
      | nil =>
          by_cases same : c = separator
          · rw [same]
            rfl
          · simp [Text.pieces, same] at last
      | cons d others =>
          rw [List.getLast?_cons_cons]
          apply (ih ?_).resolve_left (List.cons_ne_nil d others)
          cases cut : Text.pieces separator (d :: others) with
          | nil => exact absurd cut (Text.pieces_ne_nil _ _)
          | cons piece more =>
              rw [cut] at last
              split at last
              case isTrue => rwa [List.getLast?_cons_cons] at last
              case isFalse =>
                  cases more with
                  | nil => cases last
                  | cons next more => rwa [List.getLast?_cons_cons] at last ⊢

private theorem head?_components_of_isAbsolute (absolute : path.isAbsolute = true) :
    path.components.head? = some .root := by
  rw [components, if_pos absolute]
  rfl

/-- What a path means below its root is what a relative path means. -/
theorem exists_below_root (path : Path) :
    ∃ below, path.components.filter (· ≠ .root) = below ∧
      (path.components = .root :: below ∨ path.components = below) ∧
      (ofComponents below).components = below ∧ (ofComponents below).isAbsolute = false := by
  obtain ⟨body, steps, shape⟩ := components_shape path
  have rootless : ∀ c ∈ body, c ≠ .root := by
    rintro c member rfl
    exact (steps _ member).text_ne_nil rfl
  have stays : body.filter (· ≠ .root) = body := by
    simpa [List.filter_eq_self] using rootless
  have relative {below : List Component} (plain : (ofComponents below).components = below)
      (first : below.head? ≠ some .root) : (ofComponents below).isAbsolute = false := by
    rw [← Bool.not_eq_true]
    intro absolute
    apply first
    rw [← plain]
    exact head?_components_of_isAbsolute absolute
  have plain := components_ofComponents_steps steps
  have first : body.head? ≠ some .root := fun same => rootless _ (List.mem_of_head? same) rfl
  rcases shape with shape | shape | shape
  · refine ⟨body, ?_, Or.inl shape, plain, relative plain first⟩
    rw [shape, List.filter_cons_of_neg (by simp), stays]
  · have plainCurrent := components_ofComponents_current steps
    refine ⟨.current :: body, ?_, Or.inr shape, plainCurrent, relative plainCurrent nofun⟩
    rw [shape, List.filter_cons_of_pos (by simp), stays]
  · exact ⟨body, by rw [shape, stays], Or.inr shape, plain, relative plain first⟩

end Path

namespace Files

variable {files : Files} {here place : List String} {path : Path} {content : Bytes}

/-- Nothing above a place is a regular file. -/
def Clear (files : Files) (place : List String) : Prop :=
  ∀ above, above <+: place → above ≠ place → ∀ content, files.node? above ≠ some (.file content)

/-- A walk starts below directories only. -/
theorem clear_origin (files : Files) (path : Path) : files.Clear (files.origin path) := by
  intro above begins differs content
  rw [origin] at begins differs
  split at begins
  case isTrue absolute =>
      rw [if_pos absolute] at differs
      exact absurd (List.prefix_nil.mp begins) differs
  case isFalse =>
      rw [node?, if_pos begins]
      intro same
      cases same

private theorem Clear.of_directory {above : List String} (clear : files.Clear here)
    (directory : files.node? here = some .directory) (begins : above <+: here) :
    files.node? above ≠ some (.file content) := by
  by_cases same : above = here
  · rw [same, directory]
    exact nofun
  · exact clear above begins same content

/-- A step leads to the child of its name. -/
theorem child_of_stepInto {piece : String} (step : files.stepInto here piece = .ok place) :
    child here piece = .ok place := by
  rw [stepInto_of_directory (directory_of_stepInto step)] at step
  cases named : child here piece with
  | error fault =>
      rw [named] at step
      cases step
  | ok next =>
      rw [named] at step
      change (if _ then Except.ok next else _) = Except.ok place at step
      split at step <;> cases step
      rfl

/-- A piece stays at a place, goes up from it or down. -/
theorem eq_of_child {piece : String} (named : child here piece = .ok place) :
    ((piece = "." ∧ place = here) ∨ (piece = ".." ∧ place = here.dropLast)) ∨
      (piece ≠ "." ∧ piece ≠ "..") ∧ place = here ++ [piece] := by
  rw [child] at named
  split at named
  case isTrue stays =>
      cases named
      exact Or.inl (Or.inl ⟨stays, rfl⟩)
  case isFalse goes =>
      split at named
      case isTrue up =>
          cases named
          exact Or.inl (Or.inr ⟨up, rfl⟩)
      case isFalse down =>
          split at named <;> cases named
          exact Or.inr ⟨⟨goes, down⟩, rfl⟩

/-- A step from a clear place leads to a clear one. -/
theorem Clear.stepInto {piece : String} (clear : files.Clear here)
    (step : files.stepInto here piece = .ok place) : files.Clear place := by
  have directory := directory_of_stepInto step
  intro above begins differs content
  rcases eq_of_child (child_of_stepInto step) with (⟨-, rfl⟩ | ⟨-, rfl⟩) | ⟨-, rfl⟩
  · exact clear.of_directory directory begins
  · exact clear.of_directory directory (begins.trans (List.dropLast_prefix here))
  · rcases List.prefix_concat_iff.mp begins with same | within
    · exact absurd same differs
    · exact clear.of_directory directory within

/-- A walk from a clear place leads to a clear one. -/
theorem Clear.walk {pieces : List String} (clear : files.Clear here)
    (walk : files.walk here pieces = .ok place) : files.Clear place := by
  induction pieces generalizing here with
  | nil =>
      cases walk
      exact clear
  | cons piece rest ih =>
      rw [walk_cons] at walk
      cases step : files.stepInto here piece with
      | error fault =>
          rw [step] at walk
          cases walk
      | ok next =>
          rw [step] at walk
          exact ih (clear.stepInto step) walk

/-- A walk whose last step stays or goes up does not lead to a regular file. -/
theorem node?_ne_file_of_walk {front : List String} {last : String} (clear : files.Clear here)
    (walk : files.walk here (front ++ [last]) = .ok place) (idle : last = "." ∨ last = "..") :
    files.node? place ≠ some (.file content) := by
  rw [walk_append] at walk
  cases before : files.walk here front with
  | error fault =>
      rw [before] at walk
      cases walk
  | ok middle =>
      rw [before] at walk
      change files.walk middle [last] = .ok place at walk
      rw [walk_cons] at walk
      cases step : files.stepInto middle last with
      | error fault =>
          rw [step] at walk
          cases walk
      | ok next =>
          rw [step] at walk
          cases walk
          have directory := directory_of_stepInto step
          have passed {above : List String} (begins : above <+: middle) :
              files.node? above ≠ some (.file content) :=
            (clear.walk before).of_directory directory begins
          rcases eq_of_child (child_of_stepInto step) with (⟨-, rfl⟩ | ⟨-, rfl⟩) | ⟨down, -⟩
          · exact passed (List.prefix_refl _)
          · exact passed (List.dropLast_prefix _)
          · exact absurd idle (not_or.mpr down)

/-- A regular file is read where a walk leads to it. -/
theorem exists_walk_of_read (found : files.read path = .ok content) :
    checkText path = .ok () ∧ ∃ place, files.walk (files.origin path) (steps path) = .ok place ∧
      files.node? place = some (.file content) := by
  rw [read, locate] at found
  cases checked : checkText path with
  | error fault =>
      rw [checked] at found
      cases found
  | ok =>
      rw [checked] at found
      change ((files.walk _ _).bind _) = _ at found
      cases walk : files.walk (files.origin path) (steps path) with
      | error fault =>
          rw [walk] at found
          cases found
      | ok place =>
          rw [walk] at found
          simp only [Except.bind] at found
          split at found <;> cases found
          exact ⟨rfl, place, rfl, ‹_›⟩

/-- What is read is the content of one of the files. -/
theorem exists_mem_of_read (found : files.read path = .ok content) :
    ∃ names, (names, Node.file content) ∈ files.nodes := by
  obtain ⟨-, place, -, stored⟩ := exists_walk_of_read found
  rw [node?] at stored
  split at stored
  case isTrue => cases stored
  case isFalse =>
      obtain ⟨before, after, whole, -⟩ := List.lookup_eq_some_iff.mp stored
      exact ⟨place, whole ▸ List.mem_append_right before List.mem_cons_self⟩

/-- The last step of a path without a separator at its end is its last piece. -/
theorem exists_steps_of_getLast? {piece : List Char} (unseparated : endsInSeparator path = false)
    (last : path.piecesOf.getLast? = some piece) (nonempty : piece ≠ []) :
    ∃ front, steps path = front ++ [String.ofList piece] := by
  obtain ⟨front, cut⟩ := List.getLast?_eq_some_iff.mp last
  refine ⟨(front.filter (· ≠ [])).map String.ofList, ?_⟩
  rw [steps, if_neg (Bool.eq_false_iff.mp unseparated), pieceNames, cut]
  simp [nonempty]

/-- A path under which a regular file is read ends in the name of the file. -/
theorem exists_name_of_read (found : files.read path = .ok content) :
    ∃ piece name, path.piecesOf.getLast? = some piece ∧
      Component.ofPiece? piece = some (.name name) := by
  obtain ⟨checked, place, walk, stored⟩ := exists_walk_of_read found
  have clear := clear_origin files path
  have stays {front : List String} {last : String} (whole : steps path = front ++ [last])
      (idle : last = "." ∨ last = "..") : False := by
    rw [whole] at walk
    exact node?_ne_file_of_walk clear walk idle stored
  cases last : path.piecesOf.getLast? with
  | none => exact absurd (List.getLast?_eq_none_iff.mp last) (Text.pieces_ne_nil _ _)
  | some piece =>
      cases separated : endsInSeparator path with
      | true =>
          have whole : steps path = pieceNames path ++ ["."] := if_pos separated
          exact (stays whole (Or.inl rfl)).elim
      | false =>
          have nonempty : piece ≠ [] := by
            rintro rfl
            rcases Path.getLast?_pieces_eq_nil last with empty | ends
            · rw [checkText, show path.text = "" from String.toList_eq_nil_iff.mp empty] at checked
              split at checked <;> cases checked
            · rw [endsInSeparator, decide_eq_false_iff_not] at separated
              exact separated ends
          obtain ⟨front, whole⟩ := exists_steps_of_getLast? separated last nonempty
          have shape : piece = ['.'] ∨ piece = ['.', '.'] ∨
              Component.ofPiece? piece = some (.name (String.ofList piece)) := by
            unfold Component.ofPiece?
            split <;> simp_all
          rcases shape with rfl | rfl | read
          · exact (stays whole (Or.inl rfl)).elim
          · exact (stays whole (Or.inr rfl)).elim
          · exact ⟨piece, _, rfl, read⟩

/-- What is read has a file name. -/
theorem fileName?_of_read (found : files.read path = .ok content) :
    ∃ name, path.fileName? = some name := by
  obtain ⟨piece, name, last, read⟩ := exists_name_of_read found
  exact ⟨name, Path.fileName?_of_getLast? last read⟩

end Files

namespace LibraryPath

variable {files : Files} {library : LibraryPath} {directory : Path} {content : Bytes}

/-- A library of which a copy can be read under a directory has a file name. -/
theorem fileName?_of_read_under (found : files.read (library.under directory) = .ok content) :
    ∃ name, library.path.fileName? = some name := by
  obtain ⟨piece, name, last, read⟩ := Files.exists_name_of_read found
  obtain ⟨below, same, shape, plain, relative⟩ := library.path.exists_below_root
  have nonempty : (Path.ofComponents below).piecesOf ≠ [] := Text.pieces_ne_nil _ _
  rw [under, same, Path.piecesOf_join_of_relative directory relative, List.getLast?_append,
    List.getLast?_eq_some_getLast nonempty, Option.some_or,
    ← List.getLast?_eq_some_getLast nonempty] at last
  have named := Path.fileName?_of_getLast? last read
  refine ⟨name, ?_⟩
  rw [Path.fileName?, plain] at named
  rw [Path.fileName?]
  rcases shape with shape | shape <;> rw [shape]
  · split at named <;> cases named
    rw [List.getLast?_cons, ‹below.getLast? = _›]
    rfl
  · exact named

end LibraryPath

end FunctionBundler
