/-
Module: FunctionBundler.Proofs.Path.Siblings
Purpose: Paths of files in one directory, and where they lead.
Trusted boundary: none
Main exports:
  Path.directoryPieces, Path.join_eq_ofPieces, Path.components_join, Files.leads_join,
  Files.leads_join_ne, Files.not_samePlace_join
-/
import FunctionBundler.Path.Normal
import FunctionBundler.Proofs.Files.Places
import FunctionBundler.Proofs.Text.Lines

namespace FunctionBundler

/-!
Joining a single component to the path of a directory adds one piece to it, however
that path is written.  So files of one directory are told apart by their last
components alone: paths with different ones never lead to the same place.
-/

namespace Component

theorem isStep_parent : IsStep .parent :=
  ⟨rfl, by decide⟩

/-- Steps are told apart by their texts. -/
theorem IsStep.eq_of_text_eq {c d : Component} (step : c.IsStep) (other : d.IsStep)
    (same : c.text = d.text) : c = d := by
  have read := step.1
  rw [same] at read
  exact Option.some.inj (read.symm.trans other.1)

end Component

namespace Path

variable {base : Path} {name : String} {c d : Component}

private theorem ofPieces_piecesOf (path : Path) : ofPieces path.piecesOf = path := by
  rw [ofPieces, piecesOf, Text.intercalate_pieces, chars, String.ofList_toList]

/-- The pieces of a directory's path that stay when something is joined to it. -/
def directoryPieces (base : Path) : List (List Char) :=
  if base.text = "" ∨ base.chars.getLast? = some '/' then base.piecesOf.dropLast
  else base.piecesOf

/-- Only an empty piece at the end gives way to what is joined. -/
theorem piecesOf_eq_or (base : Path) :
    base.piecesOf = base.directoryPieces ∨ base.piecesOf = base.directoryPieces ++ [[]] := by
  rw [directoryPieces]
  split
  case isTrue opens =>
      refine Or.inr ?_
      rcases opens with empty | separated
      · rw [piecesOf, chars, empty]
        rfl
      · obtain ⟨before, same⟩ := List.getLast?_eq_some_iff.mp separated
        have cut : base.piecesOf = Text.pieces '/' before ++ [[]] := by
          rw [piecesOf, same, Text.pieces_append]
          rfl
        rw [cut, List.dropLast_concat]
  case isFalse => exact Or.inl rfl

/-- What stays of a directory's path stands for the same components. -/
theorem filterMap_directoryPieces (base : Path) :
    base.directoryPieces.filterMap Component.ofPiece? =
      base.piecesOf.filterMap Component.ofPiece? := by
  rcases base.piecesOf_eq_or with same | same <;> rw [same]
  rw [List.filterMap_append]
  exact (List.append_nil _).symm

private theorem isAbsolute_of_bare (bare : '/' ∉ name.toList) :
    (⟨name⟩ : Path).isAbsolute = false := by
  rw [isAbsolute, decide_eq_false_iff_not]
  exact fun first => bare (List.mem_of_mem_head? first)

private theorem join_of_bare (base : Path) (bare : '/' ∉ name.toList) :
    base.join ⟨name⟩ =
      if base.text = "" ∨ base.chars.getLast? = some '/' then ⟨base.text ++ name⟩
      else ⟨base.text ++ "/" ++ name⟩ := by
  rw [join, isAbsolute_of_bare bare, if_neg Bool.false_ne_true]

/-- What is added to a name is added to the path. -/
theorem join_append {ending : String} (bare : '/' ∉ name.toList)
    (bareEnding : '/' ∉ ending.toList) :
    base.join ⟨name ++ ending⟩ = ⟨(base.join ⟨name⟩).text ++ ending⟩ := by
  have whole : '/' ∉ (name ++ ending).toList := by
    rw [String.toList_append]
    exact fun member => (List.mem_append.mp member).elim bare bareEnding
  rw [join_of_bare base bare, join_of_bare base whole]
  split <;> simp only [String.append_assoc]

/-- The pieces of a relative path come behind those of the directory that it is joined to. -/
theorem piecesOf_join_of_relative (base : Path) {path : Path}
    (relative : path.isAbsolute = false) :
    (base.join path).piecesOf = base.directoryPieces ++ path.piecesOf := by
  rw [join, relative, if_neg Bool.false_ne_true, directoryPieces]
  split
  case isTrue opens =>
      rcases opens with empty | separated
      · rw [piecesOf, piecesOf, chars, chars, String.toList_append, empty]
        rfl
      · obtain ⟨before, same⟩ := List.getLast?_eq_some_iff.mp separated
        change base.text.toList = _ at same
        rw [piecesOf, piecesOf, piecesOf, chars, chars, chars, String.toList_append, same,
          List.append_assoc, List.singleton_append, Text.pieces_append, Text.pieces_append]
        exact congrArg (· ++ Text.pieces '/' path.chars) List.dropLast_concat.symm
  case isFalse =>
      have text : (base.text ++ "/" ++ path.text).toList = base.chars ++ '/' :: path.chars := by
        rw [String.toList_append, String.toList_append, List.append_assoc]
        rfl
      rw [piecesOf, chars, text, Text.pieces_append, piecesOf, piecesOf]

/-- Joining a name adds it as a piece behind those of the directory. -/
theorem piecesOf_join (base : Path) (bare : '/' ∉ name.toList) :
    (base.join ⟨name⟩).piecesOf = base.directoryPieces ++ [name.toList] := by
  rw [piecesOf_join_of_relative base (isAbsolute_of_bare bare)]
  exact congrArg _ (Text.pieces_of_not_mem bare)

/-- Joining a single component adds one piece. -/
theorem join_eq_ofPieces (base : Path) (bare : '/' ∉ name.toList) :
    base.join ⟨name⟩ = ofPieces (base.directoryPieces ++ [name.toList]) := by
  rw [← piecesOf_join base bare, ofPieces_piecesOf]

/-- Joining a name keeps a path absolute or relative. -/
theorem isAbsolute_join (base : Path) (bare : '/' ∉ name.toList) :
    (base.join ⟨name⟩).isAbsolute = base.isAbsolute := by
  by_cases empty : base.text = ""
  · rw [join_of_bare base bare, if_pos (Or.inl empty), empty, String.empty_append,
      isAbsolute_of_bare bare, isAbsolute, chars, empty]
    rfl
  · have head (more : List Char) : (base.chars ++ more).head? = base.chars.head? := by
      cases same : base.chars with
      | nil => exact absurd (String.toList_eq_nil_iff.mp same) empty
      | cons => rfl
    rw [join_of_bare base bare, isAbsolute, isAbsolute]
    split
    case isTrue => rw [chars, String.toList_append, ← chars, head]
    case isFalse =>
        rw [chars, String.toList_append, String.toList_append, ← chars, List.append_assoc, head]

/-- Joining a single component adds it to what the path means. -/
theorem components_join (base : Path) (step : c.IsStep) :
    (base.join ⟨c.text⟩).components = base.components ++ [c] := by
  have body : (base.directoryPieces ++ [c.text.toList]).filterMap Component.ofPiece? =
      base.piecesOf.filterMap Component.ofPiece? ++ [c] := by
    rw [List.filterMap_append, filterMap_directoryPieces, List.filterMap_cons, step.1]
    rfl
  have head : (base.directoryPieces ++ [c.text.toList]).head? = some ['.'] ↔
      base.piecesOf.head? = some ['.'] := by
    have first := step.text_ne_dot
    cases pieces : base.directoryPieces with
    | nil =>
        refine iff_of_false (fun dot => first (Option.some.inj dot)) ?_
        rcases base.piecesOf_eq_or with same | same
        · exact absurd (same.trans pieces) (Text.pieces_ne_nil _ _)
        · rw [same, pieces]
          exact nofun
    | cons piece rest => rcases base.piecesOf_eq_or with same | same <;> rw [same, pieces] <;> rfl
  rw [components, components, isAbsolute_join base step.2, piecesOf_join base step.2, body]
  simp only [head]
  split
  case isTrue => rfl
  case isFalse => split <;> rfl

/-- A name that was joined is the file name. -/
theorem fileName?_join (base : Path) (single : (Component.name name).IsStep) :
    (base.join ⟨name⟩).fileName? = some name := by
  have components := components_join base single
  change (base.join ⟨name⟩).components = _ at components
  rw [fileName?, components, List.getLast?_concat]

end Path

namespace Files

variable {files : Files} {base : Path} {c d : Component} {above place : List String}

/-- The names that a walk takes are the pieces of the directory that are not empty. -/
theorem pieceNames_eq_directoryPieces (base : Path) :
    pieceNames base = (base.directoryPieces.filter (· ≠ [])).map String.ofList := by
  rw [pieceNames]
  rcases base.piecesOf_eq_or with same | same <;> rw [same]
  rw [List.filter_append]
  exact congrArg _ (List.append_nil _)

private theorem pieceNames_join (base : Path) (step : c.IsStep) :
    pieceNames (base.join ⟨c.text⟩) = pieceNames base ++ [c.text] := by
  have last : [c.text.toList].filter (· ≠ []) = [c.text.toList] :=
    List.filter_cons_of_pos (by simpa using step.text_ne_nil)
  rw [pieceNames, Path.piecesOf_join base step.2, List.filter_append, last, List.map_append,
    pieceNames_eq_directoryPieces, List.map_singleton, String.ofList_toList]

private theorem origin_join (files : Files) (base : Path) (step : c.IsStep) :
    files.origin (base.join ⟨c.text⟩) = files.origin base := by
  rw [origin, origin, Path.isAbsolute_join base step.2]

/-- A file of a directory is stored there under its last component. -/
theorem exists_directory_of_target (step : c.IsStep)
    (found : files.target (base.join ⟨c.text⟩) = .ok place) :
    ∃ above, files.walk (files.origin base) (pieceNames base) = .ok above ∧
      files.node? above = some .directory ∧ child above c.text = .ok place := by
  obtain ⟨-, -, above, name, last, walk, directory, named⟩ := target_eq_ok_iff.mp found
  rw [pieceNames_join base step, List.getLast?_concat] at last
  rw [pieceNames_join base step, List.dropLast_concat, origin_join files base step] at walk
  cases last
  exact ⟨above, walk, directory, named⟩

private theorem endsInSeparator_join (base : Path) (step : c.IsStep) :
    endsInSeparator (base.join ⟨c.text⟩) = false := by
  have tail (before : String) : (before ++ c.text).toList.getLast? ≠ some '/' := by
    rw [String.toList_append, List.getLast?_append, List.getLast?_eq_some_getLast step.text_ne_nil]
    exact fun last => step.2 (Option.some.inj last ▸ List.getLast_mem step.text_ne_nil)
  rw [endsInSeparator, Path.join_of_bare base step.2, decide_eq_false_iff_not]
  split
  case isTrue | isFalse => exact tail _

/-- A path into a directory leads to what its last component means there. -/
theorem leads_join (step : c.IsStep)
    (walk : files.walk (files.origin base) (pieceNames base) = .ok above)
    (directory : files.node? above = some .directory) :
    files.leads (base.join ⟨c.text⟩) = (child above c.text).toOption := by
  have whole : steps (base.join ⟨c.text⟩) = pieceNames base ++ [c.text] := by
    rw [steps, endsInSeparator_join base step, if_neg Bool.false_ne_true, pieceNames_join base step]
  rw [leads, whole, origin_join files base step, gap_append_of_walk walk, walk_append, walk]
  change (files.gap above [c.text]).or (files.walk above [c.text]).toOption = _
  rw [walk_cons, stepInto_of_directory directory]
  cases named : child above c.text with
  | error fault =>
      rw [gap, directory, named]
      rfl
  | ok next =>
      rw [gap_cons_of_directory directory named]
      change Option.or _ ((if _ then _ else _ : Except _ _).bind _).toOption = _
      by_cases there : (files.node? next).isSome
      · rw [if_pos there, if_pos there]
        rfl
      · rw [if_neg there, if_neg there]
        rfl

/-- Different steps from one directory mean different places. -/
theorem eq_of_child_eq (step : c.IsStep) (other : d.IsStep)
    (named : child above c.text = .ok place) (also : child above d.text = .ok place) : c = d := by
  have below {e : Component} (step : e.IsStep) (named : child above e.text = .ok place) :
      e.text = ".." ∧ place = above.dropLast ∨ place = above ++ [e.text] := by
    rw [child, if_neg fun dot => step.text_ne_dot (congrArg String.toList dot)] at named
    split at named
    case isTrue up =>
        cases named
        exact Or.inl ⟨up, rfl⟩
    case isFalse =>
        split at named
        case isTrue => cases named
        case isFalse =>
            cases named
            exact Or.inr rfl
  have longer (name : String) : above.dropLast ≠ above ++ [name] := by
    intro same
    have lengths := congrArg List.length same
    rw [List.length_dropLast, List.length_append, List.length_singleton] at lengths
    omega
  apply step.eq_of_text_eq other
  rcases below step named with ⟨up, rfl⟩ | rfl
  · rcases below other also with ⟨up', -⟩ | same
    · rw [up, up']
    · exact absurd same (longer _)
  · rcases below other also with ⟨-, same⟩ | same
    · exact absurd same.symm (longer _)
    · exact List.singleton_inj.mp (List.append_cancel_left same)

/-- Where a file of a directory is stored, no path to another of its files leads. -/
theorem leads_join_ne (step : c.IsStep) (other : d.IsStep) (differs : c ≠ d)
    (found : files.target (base.join ⟨c.text⟩) = .ok place) :
    files.leads (base.join ⟨d.text⟩) ≠ some place := by
  obtain ⟨above, walk, directory, named⟩ := exists_directory_of_target step found
  rw [leads_join other walk directory]
  intro leads
  cases also : child above d.text with
  | error fault =>
      rw [also] at leads
      cases leads
  | ok next =>
      rw [also] at leads
      cases leads
      exact differs (eq_of_child_eq step other named also)

/-- Two steps from one directory do not lead to one place. -/
theorem not_samePlace_join (step : c.IsStep) (other : d.IsStep) (differs : c ≠ d) :
    ¬files.SamePlace (base.join ⟨c.text⟩) (base.join ⟨d.text⟩) := by
  intro same
  obtain ⟨place, found, found'⟩ := same
  exact leads_join_ne step other differs found (leads_of_target found')

end Files

end FunctionBundler
