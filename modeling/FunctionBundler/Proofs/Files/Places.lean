/-
Module: FunctionBundler.Proofs.Files.Places
Purpose: Where paths lead in a file system, and what storing a file changes about it.
Trusted boundary: none
Main exports:
  Files.SameDirectories, Files.Stores, Files.write_eq_ok_iff, Files.leads, Files.Unmoved,
  Files.Unmoved.answer_eq, Files.Unmoved.put
-/
import FunctionBundler.Files.Access

namespace FunctionBundler

/-!
Files are stored where no directory is, so directories stay what they are, and with
them the place at which a file of some path is stored.  A path leads to the place
where its walk ends: its own, or the first one that is missing.  What is found at a
path changes only when a file is stored where it leads.
-/

namespace Files

variable {files later : Files} {names other place here : List String} {pieces : List String}
  {path : Path} {content : Bytes}

/-! ### What is stored -/

private theorem lookup_filter_ne {entries : List (List String × Node)} (differs : other ≠ names) :
    (entries.filter (·.1 ≠ names)).lookup other = entries.lookup other := by
  induction entries with
  | nil => rfl
  | cons entry rest ih =>
      obtain ⟨stored, node⟩ := entry
      by_cases same : stored = names
      · have unlike : (other == stored) = false := by
          rw [same]
          exact beq_eq_false_iff_ne.mpr differs
        rw [List.filter_cons_of_neg (by simpa using same), ih, List.lookup_cons, unlike]
      · rw [List.filter_cons_of_pos (by simpa using same), List.lookup_cons, List.lookup_cons, ih]

/-- Putting a node changes no other place. -/
theorem node?_put_of_ne {node : Node} (differs : other ≠ names) :
    (files.put names node).node? other = files.node? other := by
  have unlike : (other == names) = false := beq_eq_false_iff_ne.mpr differs
  rw [node?, node?, put, List.lookup_cons, unlike]
  simp only [lookup_filter_ne differs]

/-- What is put is found, unless a directory is there. -/
theorem node?_put_self {node : Node} (free : files.node? names ≠ some .directory) :
    (files.put names node).node? names = some node := by
  rw [node?, if_neg]
  · exact List.lookup_cons_self
  · intro within
    exact free (if_pos within)

/-- The root is always a directory. -/
theorem node?_nil (files : Files) : files.node? [] = some .directory :=
  if_pos List.nil_prefix

/-- Two file systems with the same directories and the same working directory. -/
structure SameDirectories (files later : Files) : Prop where
  working : later.working = files.working
  directory : ∀ names, later.node? names = some .directory ↔ files.node? names = some .directory

namespace SameDirectories

theorem refl (files : Files) : SameDirectories files files :=
  ⟨rfl, fun _ => Iff.rfl⟩

theorem symm (same : SameDirectories files later) : SameDirectories later files :=
  ⟨same.working.symm, fun names => (same.directory names).symm⟩

theorem trans {last : Files} (one : SameDirectories files later)
    (two : SameDirectories later last) : SameDirectories files last :=
  ⟨two.working.trans one.working, fun names => (two.directory names).trans (one.directory names)⟩

/-- Storing a file where no directory is leaves the directories as they are. -/
theorem put (free : files.node? place ≠ some .directory) (content : Bytes) :
    SameDirectories files (files.put place (.file content)) := by
  refine ⟨rfl, fun names => ?_⟩
  by_cases same : names = place
  · subst same
    rw [node?_put_self free]
    exact iff_of_false nofun free
  · rw [node?_put_of_ne same]

end SameDirectories

/-! ### Walks -/

/-- A walk steps into its first piece and goes on from there. -/
theorem walk_cons {piece : String} :
    files.walk here (piece :: pieces) =
      (files.stepInto here piece).bind fun next => files.walk next pieces :=
  List.foldlM_cons

/-- A walk goes its first pieces and then the others. -/
theorem walk_append {more : List String} :
    files.walk here (pieces ++ more) =
      (files.walk here pieces).bind fun next => files.walk next more :=
  List.foldlM_append

/-- Steps are taken in directories only. -/
theorem directory_of_stepInto {piece : String} {next : List String}
    (step : files.stepInto here piece = .ok next) : files.node? here = some .directory := by
  rw [stepInto] at step
  split at step
  case h_1 directory => exact directory
  case h_2 | h_3 => cases step

/-- A walk to a directory passes through directories only. -/
theorem directory_of_walk {above : List String} (walk : files.walk here pieces = .ok above)
    (directory : files.node? above = some .directory) : files.node? here = some .directory := by
  cases pieces with
  | nil =>
      cases walk
      exact directory
  | cons piece rest =>
      rw [walk_cons] at walk
      cases step : files.stepInto here piece with
      | error fault =>
          rw [step] at walk
          cases walk
      | ok next => exact directory_of_stepInto step

/-- In a directory, a step leads to its child if there is one. -/
theorem stepInto_of_directory {piece : String} (directory : files.node? here = some .directory) :
    files.stepInto here piece = (child here piece).bind fun next =>
      if (files.node? next).isSome then .ok next else .error .notFound := by
  rw [stepInto, directory]
  rfl

/-- A walk between directories is the same wherever these are directories. -/
theorem SameDirectories.walk {above : List String} (same : SameDirectories files later)
    (walk : files.walk here pieces = .ok above) (directory : files.node? above = some .directory) :
    later.walk here pieces = .ok above := by
  induction pieces generalizing here with
  | nil => exact walk
  | cons piece rest ih =>
      rw [walk_cons] at walk ⊢
      cases step : files.stepInto here piece with
      | error fault =>
          rw [step] at walk
          cases walk
      | ok next =>
          rw [step] at walk
          have hereDirectory := directory_of_stepInto step
          have nextDirectory := directory_of_walk walk directory
          rw [stepInto_of_directory hereDirectory] at step
          rw [stepInto_of_directory ((same.directory here).mpr hereDirectory)]
          cases named : child here piece with
          | error fault =>
              rw [named] at step
              cases step
          | ok found =>
              rw [named] at step
              change (if (files.node? found).isSome then Except.ok found else _) = _ at step
              split at step
              case isFalse => cases step
              case isTrue =>
                  cases step
                  change ((if (later.node? next).isSome then Except.ok next else _).bind _) = _
                  rw [(same.directory next).mpr nextDirectory]
                  exact ih walk

private theorem origin_eq (working : later.working = files.working) (path : Path) :
    later.origin path = files.origin path := by
  rw [origin, origin, working]

/-! ### Where files are stored -/

private theorem pieceNames_eq {name : String} (last : (pieceNames path).getLast? = some name) :
    pieceNames path = (pieceNames path).dropLast ++ [name] := by
  obtain ⟨before, same⟩ := List.getLast?_eq_some_iff.mp last
  rw [same, List.dropLast_concat]

/-- A path is walked to its last piece, and at most to a separator after it. -/
theorem steps_eq {name : String} (last : (pieceNames path).getLast? = some name) :
    steps path = (pieceNames path).dropLast ++
      name :: if endsInSeparator path then ["."] else [] := by
  rw [List.append_cons, ← pieceNames_eq last, steps]
  split
  case isTrue => rfl
  case isFalse => exact (List.append_nil _).symm

/-- A file is written under a name in a directory that the pieces before the name lead to. -/
theorem target_eq_ok_iff :
    files.target path = .ok place ↔
      checkText path = .ok () ∧ endsInSeparator path = false ∧
        ∃ above name, (pieceNames path).getLast? = some name ∧
          files.walk (files.origin path) (pieceNames path).dropLast = .ok above ∧
          files.node? above = some .directory ∧ child above name = .ok place := by
  rw [target]
  constructor
  · intro found
    cases checked : checkText path with
    | error fault =>
        rw [checked] at found
        cases found
    | ok =>
        rw [checked] at found
        change ((files.walk _ _).bind _) = _ at found
        cases walk : files.walk (files.origin path) (pieceNames path).dropLast with
        | error fault =>
            rw [walk] at found
            cases found
        | ok above =>
            rw [walk] at found
            dsimp only [Except.bind] at found
            split at found
            case h_1 | h_2 | h_3 => cases found
            case h_4 name last directory =>
                split at found
                case isTrue => cases found
                case isFalse open' =>
                    exact ⟨rfl, Bool.eq_false_iff.mpr open', above, name, last, rfl, directory,
                      found⟩
  · intro parts
    obtain ⟨checked, bare, above, name, last, walk, directory, named⟩ := parts
    rw [checked]
    change ((files.walk _ _).bind _) = _
    rw [walk]
    dsimp only [Except.bind]
    rw [last, directory, bare]
    exact named

/-- Where a file is written depends on the directories only. -/
theorem SameDirectories.target (same : SameDirectories files later)
    (found : files.target path = .ok place) : later.target path = .ok place := by
  obtain ⟨checked, bare, above, name, last, walk, directory, named⟩ := target_eq_ok_iff.mp found
  rw [← origin_eq same.working] at walk
  exact target_eq_ok_iff.mpr ⟨checked, bare, above, name, last, same.walk walk directory,
    (same.directory above).mpr directory, named⟩

/-- A file of a path is stored at a place. -/
structure Stores (files : Files) (path : Path) (place : List String) : Prop where
  target : files.target path = .ok place
  free : files.node? place ≠ some .directory

/-- Files written at two paths are one file. -/
def SamePlace (files : Files) (path other : Path) : Prop :=
  ∃ place, files.target path = .ok place ∧ files.target other = .ok place

/-- Paths that lead to different places are not in one place. -/
theorem not_samePlace {path other : Path} {place place' : List String}
    (found : files.target path = .ok place) (found' : files.target other = .ok place')
    (differs : place ≠ place') : ¬files.SamePlace path other := by
  rintro ⟨shared, isPath, isOther⟩
  cases found.symm.trans isPath
  cases found'.symm.trans isOther
  exact differs rfl

private theorem write_of_target (found : files.target path = .ok place) :
    files.write path content = if files.node? place = some .directory then .error .isDirectory
      else .ok (files.put place (.file content)) := by
  rw [write, found]
  dsimp only [bind, Except.bind]
  split
  case h_1 directory => rw [if_pos directory]
  case h_2 free =>
      rw [if_neg free]
      rfl

/-- Writing succeeds exactly if the content can be stored, and then it is all that changes. -/
theorem write_eq_ok_iff :
    files.write path content = .ok later ↔
      ∃ place, files.Stores path place ∧ later = files.put place (.file content) := by
  constructor
  · intro written
    cases found : files.target path with
    | error fault =>
        rw [write, found] at written
        cases written
    | ok place =>
        rw [write_of_target found] at written
        split at written
        case isTrue => cases written
        case isFalse free =>
            cases written
            exact ⟨place, ⟨found, free⟩, rfl⟩
  · intro parts
    obtain ⟨place, stores, rfl⟩ := parts
    rw [write_of_target stores.target, if_neg stores.free]

/-- A write that is answered well has stored the file. -/
theorem exists_stores_of_answer (written : (files.answer (.write path content)).1 = .ok ()) :
    ∃ place, files.Stores path place ∧
      (files.answer (.write path content)).2 = files.put place (.file content) := by
  rw [answer] at written ⊢
  cases wrote : files.write path content with
  | error fault =>
      rw [wrote] at written
      cases written
  | ok changed =>
      obtain ⟨place, stores, rfl⟩ := write_eq_ok_iff.mp wrote
      exact ⟨place, stores, rfl⟩

/-- A write is answered according to where the file would be stored. -/
theorem answer_write_fst :
    (files.answer (.write path content)).1 = (files.target path).bind fun place =>
      if files.node? place = some .directory then .error .isDirectory else .ok () := by
  cases found : files.target path with
  | error fault =>
      rw [answer, write, found]
      rfl
  | ok place =>
      rw [answer, write_of_target found, Except.bind]
      by_cases directory : files.node? place = some .directory
      · rw [if_pos directory, if_pos directory]
      · rw [if_neg directory, if_neg directory]

/-- A path that is accepted is located by a walk. -/
theorem locate_eq_walk (accepted : checkText path = .ok ()) :
    files.locate path = files.walk (files.origin path) (steps path) := by
  rw [locate, accepted]
  rfl

/-- What is stored at the place of a path is read back. -/
theorem read_of_target (found : files.target path = .ok place)
    (stored : files.node? place = some (.file content)) : files.read path = .ok content := by
  obtain ⟨checked, bare, above, name, last, walk, directory, named⟩ := target_eq_ok_iff.mp found
  have located : files.locate path = .ok place := by
    rw [locate_eq_walk checked, steps_eq last, bare, walk_append, walk]
    change files.walk above [name] = _
    rw [walk_cons, stepInto_of_directory directory, named]
    change (if (files.node? place).isSome then Except.ok place else _).bind _ = _
    rw [stored]
    rfl
  rw [read, located]
  dsimp only [bind, Except.bind]
  rw [stored]
  rfl

/-- What was written at a path is read there. -/
theorem Stores.read_put (stores : files.Stores path place) (content : Bytes) :
    (files.put place (.file content)).read path = .ok content :=
  read_of_target ((SameDirectories.put stores.free content).target stores.target)
    (node?_put_self stores.free)

/-! ### Where paths lead -/

/-- The first place on a walk that is missing, if any. -/
def gap (files : Files) : List String → List String → Option (List String)
  | _, [] => none
  | here, piece :: rest =>
    match files.node? here, child here piece with
    | some .directory, .ok next =>
      if (files.node? next).isSome then files.gap next rest else some next
    | none, _ => some here
    | _, _ => none

/-- The place where the walk of a path ends: its own, or the first one that is missing. -/
def leads (files : Files) (path : Path) : Option (List String) :=
  (files.gap (files.origin path) (steps path)).or
    (files.walk (files.origin path) (steps path)).toOption

/-- What is found at a path. -/
def look (files : Files) (path : Path) : Except FileError (Option Node) :=
  (files.locate path).map files.node?

/-- Where a walk first finds nothing, told by its first step. -/
theorem gap_cons_of_directory {piece : String} {next : List String}
    (directory : files.node? here = some .directory) (named : child here piece = .ok next) :
    files.gap here (piece :: pieces) =
      if (files.node? next).isSome then files.gap next pieces else some next := by
  rw [gap, directory, named]

/-- A step that a walk takes is not a gap. -/
theorem gap_cons_of_stepInto {piece : String} {next : List String}
    (step : files.stepInto here piece = .ok next) :
    files.gap here (piece :: pieces) = files.gap next pieces := by
  have directory := directory_of_stepInto step
  rw [stepInto_of_directory directory] at step
  cases named : child here piece with
  | error fault =>
      rw [named] at step
      cases step
  | ok found =>
      rw [named] at step
      change (if (files.node? found).isSome then Except.ok found else _) = _ at step
      split at step
      case isFalse => cases step
      case isTrue there =>
          cases step
          rw [gap_cons_of_directory directory named, if_pos there]

/-- Where a walk first finds nothing, told after its first pieces. -/
theorem gap_append_of_walk {more above : List String} (walk : files.walk here pieces = .ok above) :
    files.gap here (pieces ++ more) = files.gap above more := by
  induction pieces generalizing here with
  | nil =>
      cases walk
      rfl
  | cons piece rest ih =>
      rw [walk_cons] at walk
      cases step : files.stepInto here piece with
      | error fault =>
          rw [step] at walk
          cases walk
      | ok next =>
          rw [step] at walk
          rw [List.cons_append, gap_cons_of_stepInto step]
          exact ih walk

/-- A walk that comes to its end has no gap. -/
theorem gap_of_walk {above : List String} (walk : files.walk here pieces = .ok above) :
    files.gap here pieces = none := by
  have whole := @gap_append_of_walk _ _ _ [] _ walk
  rwa [List.append_nil] at whole

/-- A gap stays one, whatever would come after it. -/
theorem gap_append {more missing : List String} (gap : files.gap here pieces = some missing) :
    files.gap here (pieces ++ more) = some missing := by
  induction pieces generalizing here with
  | nil => cases gap
  | cons piece rest ih =>
      rw [Files.gap] at gap
      rw [List.cons_append, Files.gap]
      split at gap
      case h_1 next directory named =>
          split at gap
          case isTrue there => exact (if_pos there).trans (ih gap)
          case isFalse empty => exact (if_neg empty).trans gap
      case h_2 => exact gap
      case h_3 => cases gap

private theorem leads_of_gap {missing : List String}
    (gap : files.gap (files.origin path) (steps path) = some missing) :
    files.leads path = some missing := by
  rw [leads, gap]
  rfl

private theorem leads_of_walk (walk : files.walk (files.origin path) (steps path) = .ok place) :
    files.leads path = some place := by
  rw [leads, gap_of_walk walk, walk]
  rfl

/-- A path leads to the place where its file would be stored. -/
theorem leads_of_target (found : files.target path = .ok place) :
    files.leads path = some place := by
  obtain ⟨checked, bare, above, name, last, walk, directory, named⟩ := target_eq_ok_iff.mp found
  have whole : steps path = (pieceNames path).dropLast ++ [name] := by
    rw [steps_eq last, bare]
    rfl
  have gap := @gap_append_of_walk _ _ _ [name] _ walk
  rw [← whole, gap_cons_of_directory directory named] at gap
  split at gap
  case isFalse => exact leads_of_gap gap
  case isTrue there =>
      apply leads_of_walk
      rw [whole, walk_append, walk]
      change files.walk above [name] = _
      rw [walk_cons, stepInto_of_directory directory, named]
      change (if (files.node? place).isSome then Except.ok place else _).bind _ = _
      rw [if_pos there]
      rfl

/-! ### Storing a file elsewhere -/

private theorem node?_put_cases (free : files.node? place ≠ some .directory)
    (apart : files.node? names = none → names ≠ place) (content : Bytes) :
    (files.put place (.file content)).node? names = files.node? names ∨
      ∃ old, files.node? names = some (.file old) ∧
        (files.put place (.file content)).node? names = some (.file content) := by
  by_cases same : names = place
  · subst same
    refine Or.inr ?_
    have stored := @node?_put_self files names (.file content) free
    cases found : files.node? names with
    | none => exact absurd rfl (apart found)
    | some node =>
        cases node with
        | directory => exact absurd found free
        | file old => exact ⟨old, rfl, stored⟩
  · exact Or.inl (node?_put_of_ne same)

private theorem isSome_node?_put (free : files.node? place ≠ some .directory)
    (apart : files.node? names = none → names ≠ place) (content : Bytes) :
    ((files.put place (.file content)).node? names).isSome = (files.node? names).isSome := by
  rcases node?_put_cases free apart content with same | ⟨old, found, new⟩
  · rw [same]
  · rw [found, new]
    rfl

private theorem ne_of_gap_cons {piece : String}
    (apart : files.gap here (piece :: pieces) ≠ some place)
    (missing : files.node? here = none) : here ≠ place := by
  intro same
  apply apart
  rw [gap, missing, same]

private theorem ne_of_gap_child {piece : String} {next : List String}
    (apart : files.gap here (piece :: pieces) ≠ some place)
    (directory : files.node? here = some .directory) (named : child here piece = .ok next)
    (missing : files.node? next = none) : next ≠ place := by
  intro same
  apply apart
  rw [gap_cons_of_directory directory named, missing, same]
  rfl

/-- A file stored elsewhere does not change a step. -/
theorem stepInto_put {piece : String} (free : files.node? place ≠ some .directory)
    (apart : files.gap here (piece :: pieces) ≠ some place) (content : Bytes) :
    (files.put place (.file content)).stepInto here piece = files.stepInto here piece := by
  rw [stepInto, stepInto]
  rcases node?_put_cases free (ne_of_gap_cons apart) content with same | ⟨old, found, new⟩
  · rw [same]
    cases found : files.node? here with
    | none => rfl
    | some node =>
        cases node with
        | file old => rfl
        | directory =>
            cases named : child here piece with
            | error fault => rfl
            | ok next =>
                change (if _ then _ else _) = if _ then _ else _
                rw [isSome_node?_put free (ne_of_gap_child apart found named) content]
  · rw [found, new]

/-- Storing a file changes a walk only if the file fills its gap. -/
theorem walk_put (free : files.node? place ≠ some .directory)
    (apart : files.gap here pieces ≠ some place) (content : Bytes) :
    (files.put place (.file content)).walk here pieces = files.walk here pieces := by
  induction pieces generalizing here with
  | nil => rfl
  | cons piece rest ih =>
      rw [walk_cons, walk_cons, stepInto_put free apart]
      cases step : files.stepInto here piece with
      | error fault => rfl
      | ok next =>
          rw [gap_cons_of_stepInto step] at apart
          exact ih apart

private theorem gap_put (free : files.node? place ≠ some .directory)
    (apart : files.gap here pieces ≠ some place) (content : Bytes) :
    (files.put place (.file content)).gap here pieces = files.gap here pieces := by
  induction pieces generalizing here with
  | nil => rfl
  | cons piece rest ih =>
      rcases node?_put_cases free (ne_of_gap_cons apart) content with same | ⟨old, found, new⟩
      · cases found : files.node? here with
        | none => rw [gap, gap, same, found]
        | some node =>
            cases node with
            | file old => rw [gap, gap, same, found]
            | directory =>
                rw [found] at same
                cases named : child here piece with
                | error fault => rw [gap, gap, same, found, named]
                | ok next =>
                    rw [gap_cons_of_directory same named, gap_cons_of_directory found named,
                      isSome_node?_put free (ne_of_gap_child apart found named) content]
                    split
                    case isTrue there =>
                        rw [gap_cons_of_directory found named, if_pos there] at apart
                        exact ih apart
                    case isFalse => rfl
      · rw [gap, gap, found, new]

/-- A path means the same in two file systems. -/
structure Unmoved (files later : Files) (path : Path) : Prop where
  leads : later.leads path = files.leads path
  look : later.look path = files.look path
  target : later.target path = files.target path

private theorem gap_ne_of_leads_ne (apart : files.leads path ≠ some place) :
    files.gap (files.origin path) (steps path) ≠ some place :=
  fun gap => apart (leads_of_gap gap)

private theorem look_put (free : files.node? place ≠ some .directory)
    (apart : files.leads path ≠ some place) (content : Bytes) :
    (files.put place (.file content)).look path = files.look path := by
  rw [look, look, locate, locate]
  cases checkText path with
  | error fault => rfl
  | ok =>
      change ((files.put place (.file content)).walk (files.origin path) _).map _ =
        (files.walk _ _).map _
      rw [walk_put free (gap_ne_of_leads_ne apart)]
      cases walk : files.walk (files.origin path) (steps path) with
      | error fault => rfl
      | ok names =>
          have differs : names ≠ place := by
            rintro rfl
            exact apart (leads_of_walk walk)
          exact congrArg Except.ok (node?_put_of_ne differs)

private theorem target_put (free : files.node? place ≠ some .directory)
    (apart : files.leads path ≠ some place) (content : Bytes) :
    (files.put place (.file content)).target path = files.target path := by
  rw [target, target]
  cases checkText path with
  | error fault => rfl
  | ok =>
      change (((files.put place (.file content)).walk (files.origin path) _).bind _) =
        ((files.walk _ _).bind _)
      cases last : (pieceNames path).getLast? with
      | none =>
          rw [List.getLast?_eq_none_iff.mp last]
          rfl
      | some name =>
          have apartWalk := gap_ne_of_leads_ne apart
          rw [steps_eq last] at apartWalk
          rw [walk_put free fun gap => apartWalk (gap_append gap)]
          cases walk : files.walk (files.origin path) (pieceNames path).dropLast with
          | error fault => rfl
          | ok above =>
              rw [gap_append_of_walk walk] at apartWalk
              dsimp only [Except.bind]
              rcases node?_put_cases free (ne_of_gap_cons apartWalk) content with
                same | ⟨old, found, new⟩
              · rw [same]
              · rw [found, new]

/-- Storing a file moves no path, unless the path leads to nothing at its place. -/
theorem unmoved_put (free : files.node? place ≠ some .directory)
    (apart : files.leads path ≠ some place) (content : Bytes) :
    Unmoved files (files.put place (.file content)) path := by
  refine ⟨?_, look_put free apart content, target_put free apart content⟩
  have same := gap_ne_of_leads_ne apart
  change ((files.put place (.file content)).gap (files.origin path) _).or
    ((files.put place (.file content)).walk (files.origin path) _).toOption = _
  rw [gap_put free same, walk_put free same]
  rfl

theorem Unmoved.refl (files : Files) (path : Path) : Unmoved files files path :=
  ⟨rfl, rfl, rfl⟩

/-- A file stored elsewhere does not change what a path means. -/
theorem Unmoved.put (unmoved : Unmoved files later path)
    (free : later.node? place ≠ some .directory) (apart : files.leads path ≠ some place)
    (content : Bytes) : Unmoved files (later.put place (.file content)) path := by
  rw [← unmoved.leads] at apart
  have further := unmoved_put free apart content
  exact ⟨further.leads.trans unmoved.leads, further.look.trans unmoved.look,
    further.target.trans unmoved.target⟩

/-- What is read at a path depends on what is found there. -/
theorem read_eq_look (files : Files) (path : Path) :
    files.read path = (files.look path).bind fun
      | some (.file content) => .ok content
      | some .directory => .error .isDirectory
      | none => .error .notFound := by
  rw [read, look]
  cases files.locate path <;> rfl

private theorem status_eq_look (files : Files) (path : Path) :
    files.status path = (files.look path).bind fun
      | some (.file content) => .ok ⟨true, content.length⟩
      | some .directory => .ok ⟨false, 0⟩
      | none => .error .notFound := by
  rw [status, look]
  cases files.locate path <;> rfl

private theorem exists_eq_look (files : Files) (path : Path) :
    files.exists path = (files.look path).isOk := by
  rw [«exists», look]
  cases files.locate path <;> rfl

end Files

/-- The path of an access. -/
def Access.path : Access → Path
  | .present path | .inspect path | .read path | .write path _ => path

/-- The path of a reading access. -/
theorem Access.path_read (path : Path) : (read path).path = path :=
  rfl

/-- The path of a writing access. -/
theorem Access.path_write (path : Path) (content : Bytes) : (write path content).path = path :=
  rfl

/-- A file system answers with what it holds. -/
theorem Files.answer_read (files : Files) (path : Path) :
    (files.answer (.read path)).1 = files.read path :=
  rfl

/-- An access is answered alike where its path means the same. -/
theorem Files.Unmoved.answer_eq {files later : Files} {access : Access}
    (unmoved : Unmoved files later access.path) (same : SameDirectories files later) :
    (later.answer access).1 = (files.answer access).1 := by
  cases access with
  | present path =>
      have found : later.look path = files.look path := unmoved.look
      change later.exists path = files.exists path
      rw [exists_eq_look, exists_eq_look, found]
  | inspect path =>
      have found : later.look path = files.look path := unmoved.look
      change later.status path = files.status path
      rw [status_eq_look, status_eq_look, found]
  | read path =>
      have found : later.look path = files.look path := unmoved.look
      change later.read path = files.read path
      rw [read_eq_look, read_eq_look, found]
  | write path content =>
      have stored : later.target path = files.target path := unmoved.target
      rw [answer_write_fst, answer_write_fst, stored]
      simp only [same.directory]

end FunctionBundler
