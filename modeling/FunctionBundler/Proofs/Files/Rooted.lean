/-
Module: FunctionBundler.Proofs.Files.Rooted
Purpose: A directory as the root of a file system of its own, and which paths lead on as before.
Trusted boundary: none
Main exports:
  Path.StaysWithin, Files.rootedAt, Files.node?_rootedAt, Files.walk_rootedAt,
  Files.checkText_eq_ok_iff
-/
import FunctionBundler.Proofs.Path.Place

namespace FunctionBundler

/-!
Taken as a root, a directory becomes its own parent and everything outside of it is gone.
A walk that stays in the directory notices neither, so it leads to the same file, or to the
same fault, from the directory and, in the file system of which this is the root, from
the root.
-/

namespace Path

variable {components : List Component} {root : List String}

/-- Steps that lead no further up than the root of a directory: they stay below where they start, or
start at the root of all. -/
def StaysWithin (root : List String) (components : List Component) : Prop :=
  StaysBelow components ∨ root = []

private theorem StaysWithin.of_prefix {beginning : List Component}
    (stays : StaysWithin root components)
    (begins : beginning <+: components) : StaysWithin root beginning :=
  stays.imp_left fun below start starts => below start (starts.trans begins)

/-- A `..` at the end goes back to a place that was passed. -/
theorem StaysWithin.place_ne_nil (stays : StaysWithin root (components ++ [.parent]))
    (rootless : .root ∉ components) (below : root ≠ []) : placeFrom [] components ≠ [] := by
  have level := up_eq_zero_iff.mpr (stays.resolve_right below)
  rw [Trail.of_concat, Trail.extend] at level
  rw [placeFrom_nil rootless]
  intro empty
  rw [if_pos empty] at level
  exact Nat.succ_ne_zero _ level

/-- A piece of a path is no root. -/
theorem root_not_mem_filterMap {parts : List (List Char)} :
    Component.root ∉ parts.filterMap Component.ofPiece? := by
  intro member
  obtain ⟨piece, -, read⟩ := List.mem_filterMap.mp member
  unfold Component.ofPiece? at read
  split at read <;> cases read

end Path

namespace Files

open FunctionBundler.Path

variable {files : Files} {root here place names : List String} {piece : String}
  {parts : List (List Char)}

/-- A directory with all that lies in it, as a file system of its own. -/
def rootedAt (files : Files) (root : List String) : Files where
  working := if root <+: files.working then files.working.drop root.length else []
  nodes := files.nodes.filterMap fun entry =>
    if root <+: entry.1 then some (entry.1.drop root.length, entry.2) else none

private theorem lookup_rootedAt (files : Files) (root names : List String) :
    (files.rootedAt root).nodes.lookup names = files.nodes.lookup (root ++ names) := by
  rw [rootedAt]
  induction files.nodes with
  | nil => rfl
  | cons entry rest ih =>
      obtain ⟨stored, node⟩ := entry
      rw [List.filterMap_cons, List.lookup_cons]
      by_cases inside : root <+: stored
      · obtain ⟨below, rfl⟩ := inside
        rw [if_pos (List.prefix_append root below), List.drop_left]
        have same : (root ++ names == root ++ below) = (names == below) := by
          rw [Bool.eq_iff_iff, beq_iff_eq, beq_iff_eq, List.append_cancel_left_eq]
        rw [same, ← ih]
        rfl
      · have unlike : (root ++ names == stored) = false := by
          rw [beq_eq_false_iff_ne]
          rintro rfl
          exact inside (List.prefix_append root names)
        rw [if_neg inside, unlike]
        exact ih

/-- Below a directory that is taken as the root, all is as it is below that directory. -/
theorem node?_rootedAt (directory : files.node? root = some .directory) (names : List String) :
    (files.rootedAt root).node? names = files.node? (root ++ names) := by
  cases names with
  | nil => rw [List.append_nil, directory, node?_nil]
  | cons first rest =>
      have above : first :: rest <+: (files.rootedAt root).working ↔
          root ++ first :: rest <+: files.working := by
        rw [rootedAt]
        by_cases within : root <+: files.working
        · obtain ⟨below, whole⟩ := within
          rw [← whole, if_pos (List.prefix_append root below), List.drop_left,
            List.prefix_append_right_inj]
        · rw [if_neg within, List.prefix_nil]
          exact iff_of_false (List.cons_ne_nil _ _) fun begins =>
            within ((List.prefix_append root _).trans begins)
      rw [node?, node?, lookup_rootedAt]
      simp only [above]

/-- A piece leads from a place in the directory as from the root, unless it leads out of it. -/
theorem child_append (inside : piece = ".." → here ≠ [] ∨ root = []) :
    child (root ++ here) piece = (child here piece).map (root ++ ·) := by
  rw [child, child]
  split
  case isTrue => rfl
  case isFalse =>
      split
      case isTrue up =>
          rcases inside up with below | rfl
          · exact congrArg Except.ok (List.dropLast_append_of_ne_nil below)
          · rfl
      case isFalse =>
          split
          case isTrue => rfl
          case isFalse => exact congrArg Except.ok (List.append_assoc ..)

private theorem stepInto_rootedAt (directory : files.node? root = some .directory)
    (inside : piece = ".." → here ≠ [] ∨ root = []) :
    files.stepInto (root ++ here) piece =
      ((files.rootedAt root).stepInto here piece).map (root ++ ·) := by
  rw [stepInto, stepInto, node?_rootedAt directory, child_append inside]
  split
  case h_1 =>
      cases child here piece with
      | error fault => rfl
      | ok next =>
          change (if (files.node? (root ++ next)).isSome then Except.ok (root ++ next) else _) =
            Except.map _ (if ((files.rootedAt root).node? next).isSome then Except.ok next else _)
          rw [node?_rootedAt directory]
          split <;> rfl
  case h_2 => rfl
  case h_3 => rfl

private theorem walk_concat (files : Files) (here names : List String) (piece : String) :
    files.walk here (names ++ [piece]) =
      (files.walk here names).bind fun next => files.stepInto next piece := by
  rw [walk_append]
  congr 1
  funext next
  rw [walk_cons]
  cases files.stepInto next piece <;> rfl

/-- A walk that stays within a directory leads there as from the root of its own. -/
theorem walk_rootedAt (directory : files.node? root = some .directory)
    (stays : StaysWithin root (parts.filterMap Component.ofPiece?)) :
    files.walk root ((parts.filter (· ≠ [])).map String.ofList) =
      ((files.rootedAt root).walk [] ((parts.filter (· ≠ [])).map String.ofList)).map
        (root ++ ·) := by
  -- By induction from the right: where a last `..` is taken is where all pieces before it have led.
  induction parts using List.reverseRecOn with
  | nil => exact congrArg Except.ok (List.append_nil root).symm
  | append_singleton parts piece ih =>
      rw [List.filterMap_append] at stays
      have before := ih (stays.of_prefix (List.prefix_append _ _))
      by_cases filled : piece = []
      · rwa [List.filter_append, List.filter_cons_of_neg (by simpa using filled), List.filter_nil,
          List.append_nil]
      · rw [List.filter_append, List.filter_cons_of_pos (by simpa using filled), List.filter_nil,
          List.map_append, List.map_singleton, walk_concat, walk_concat, before]
        cases reached : (files.rootedAt root).walk []
            ((parts.filter (· ≠ [])).map String.ofList) with
        | error fault => rfl
        | ok here =>
            apply stepInto_rootedAt directory
            intro up
            by_cases top : root = []
            · exact Or.inr top
            · have parent : piece = ['.', '.'] := by
                rw [← String.toList_inj, String.toList_ofList] at up
                exact up
              rw [parent] at stays
              rw [eq_placeFrom_of_walk reached]
              exact Or.inl (stays.place_ne_nil root_not_mem_filterMap top)

/-- The texts of paths that are accepted. -/
theorem checkText_eq_ok_iff {path : Path} :
    checkText path = .ok () ↔
      Char.ofNat 0 ∉ path.chars ∧ path.text ≠ "" ∧ path.text.utf8ByteSize < 4096 := by
  rw [checkText]
  split
  case isTrue => simp_all
  case isFalse =>
      split
      case isTrue => simp_all
      case isFalse => split <;> simp_all

end Files

end FunctionBundler
