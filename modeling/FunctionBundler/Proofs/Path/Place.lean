/-
Module: FunctionBundler.Proofs.Path.Place
Purpose: Where a path leads by its text alone, and where its steps lead from another directory.
Trusted boundary: none
Main exports:
  Path.place, Path.placeFrom, Trail, Trail.of, Path.StaysBelow, Path.placeFrom_eq,
  Path.prefix_placeFrom_iff, Path.placeFrom_eq_append_iff, Files.exists_parts_of_steps,
  Files.node?_of_read, Files.walk_of_status
-/
import Mathlib.Data.List.DropRight
import Mathlib.Data.List.TakeDrop
import FunctionBundler.Proofs.Fallible
import FunctionBundler.Proofs.Files.Names
import FunctionBundler.Proofs.Path.Rebasing

namespace FunctionBundler

/-!
By its text a path goes down by names and up by `..`, and the root is its own parent.  Of
steps that are taken from some directory only their trail counts: how far they lead above
where they start, and the names that follow.  Steps that stay below their start lead to
the same place under every directory; others take away as many names of the directory as
they lead above it.
-/

/-- Where a component leads from a directory; the root is its own parent. -/
def Component.follow (here : List String) : Component → List String
  | .root => []
  | .current => here
  | .parent => here.dropLast
  | .name text => here ++ [text]

/-- Whether a component is a name. -/
def Component.isName : Component → Bool
  | .name _ => true
  | .root | .current | .parent => false

/-- What is left of steps when each `..` has taken away the name before it: the number of those
that found none, and the names that no `..` took away. -/
structure Trail where
  up : Nat
  down : List String
deriving DecidableEq

namespace Trail

/-- The trail with one more component at its end. -/
def extend (trail : Trail) : Component → Trail
  | .parent =>
    if trail.down = [] then { trail with up := trail.up + 1 }
    else { trail with down := trail.down.dropLast }
  | .name text => { trail with down := trail.down ++ [text] }
  | .root | .current => trail

/-- The trail of components. -/
def of (components : List Component) : Trail :=
  components.foldl extend ⟨0, []⟩

/-- A trail is extended by each component. -/
theorem of_concat (components : List Component) (c : Component) :
    of (components ++ [c]) = (of components).extend c :=
  List.foldl_concat extend ⟨0, []⟩ c components

private theorem up_le_extend (trail : Trail) (c : Component) : trail.up ≤ (trail.extend c).up := by
  cases c with
  | parent =>
      rw [extend]
      split
      case isTrue => exact Nat.le_succ trail.up
      case isFalse => exact Nat.le_refl trail.up
  | root | current | name => exact Nat.le_refl trail.up

/-- More steps never lead less far above the start. -/
theorem up_le_of_prefix {first second : List Component} (begins : first <+: second) :
    (of first).up ≤ (of second).up := by
  obtain ⟨more, rfl⟩ := begins
  induction more using List.reverseRecOn with
  | nil => rw [List.append_nil]
  | append_singleton more c ih =>
      rw [← List.append_assoc, of_concat]
      exact ih.trans (up_le_extend _ c)

/-- Each `..` takes away a name or leads above the start. -/
theorem up_add_countP (components : List Component) :
    (of components).up + components.countP Component.isName =
      components.count .parent + (of components).down.length := by
  induction components using List.reverseRecOn with
  | nil => rfl
  | append_singleton components c ih =>
      rw [of_concat, List.countP_append, List.count_append]
      cases c with
      | parent =>
          rw [extend]
          split
          case isTrue none =>
              rw [none] at ih ⊢
              simp [Component.isName] at ih ⊢
              omega
          case isFalse some =>
              have positive := List.length_pos_iff.mpr some
              simp [Component.isName] at ih ⊢
              omega
      | name text =>
          simp [extend, Component.isName] at ih ⊢
          omega
      | root | current => simpa [extend, Component.isName] using ih

end Trail

namespace Path

variable {components : List Component} {here : List String} {path : Path}

/-- Where components lead from a directory. -/
def placeFrom (here : List String) (components : List Component) : List String :=
  components.foldl Component.follow here

/-- The names from the root to where an absolute path leads. -/
def place (path : Path) : List String :=
  placeFrom [] path.components

private theorem placeFrom_append (here : List String) (first second : List Component) :
    placeFrom here (first ++ second) = placeFrom (placeFrom here first) second :=
  List.foldl_append

/-- A path that goes on from another leads on from its place. -/
theorem place_of_components {base : Path} {below : List Component}
    (split : path.components = base.components ++ below) :
    path.place = placeFrom base.place below := by
  rw [place, split, placeFrom_append, place]

/-- An absolute path leads on from the root. -/
theorem place_of_isAbsolute (absolute : path.isAbsolute = true) :
    path.place = placeFrom [] path.body := by
  rw [place, components_of_isAbsolute absolute]
  rfl

private theorem placeFrom_concat (here : List String) (components : List Component)
    (c : Component) :
    placeFrom here (components ++ [c]) = c.follow (placeFrom here components) :=
  List.foldl_concat Component.follow here c components

private theorem dropLast_rdrop (here : List String) (up : Nat) :
    (here.rdrop up).dropLast = here.rdrop (up + 1) := by
  rw [List.rdrop, List.rdrop, List.dropLast_eq_take, List.take_take, List.length_take]
  congr 1
  omega

/-- Steps take away names of the directory that they are taken from, and add names. -/
theorem placeFrom_eq (rootless : .root ∉ components) (here : List String) :
    placeFrom here components =
      here.rdrop (Trail.of components).up ++ (Trail.of components).down := by
  induction components using List.reverseRecOn with
  | nil => exact (List.append_nil here).symm.trans (congrArg (· ++ []) (List.rdrop_zero here).symm)
  | append_singleton components c ih =>
      rw [List.mem_append, List.mem_singleton, not_or] at rootless
      rw [placeFrom_concat, ih rootless.1, Trail.of_concat]
      cases c with
      | root => exact absurd rfl rootless.2
      | current => rfl
      | name text => exact List.append_assoc ..
      | parent =>
          rw [Component.follow, Trail.extend]
          split
          case isTrue none =>
              rw [none, List.append_nil, List.append_nil]
              exact dropLast_rdrop here _
          case isFalse some => exact List.dropLast_append_of_ne_nil some

/-- From the root, steps lead to the names that are left. -/
theorem placeFrom_nil (rootless : .root ∉ components) :
    placeFrom [] components = (Trail.of components).down := by
  rw [placeFrom_eq rootless, List.rdrop_nil, List.nil_append]

/-- Steps lead to a place under their start exactly if the names that are left begin with those
that were taken away. -/
theorem prefix_placeFrom_iff (rootless : .root ∉ components) :
    here <+: placeFrom here components ↔
      here.rtake (Trail.of components).up <+: (Trail.of components).down := by
  have whole : here.rdrop (Trail.of components).up ++ here.rtake (Trail.of components).up = here :=
    List.take_append_drop _ here
  calc here <+: placeFrom here components
      ↔ here.rdrop (Trail.of components).up ++ here.rtake (Trail.of components).up <+:
          here.rdrop (Trail.of components).up ++ (Trail.of components).down := by
        rw [whole, placeFrom_eq rootless]
    _ ↔ here.rtake (Trail.of components).up <+: (Trail.of components).down :=
        List.prefix_append_right_inj _

/-! ### Steps that stay below their start -/

/-- Steps never lead above where they start: no beginning of them has more `..` than names. -/
def StaysBelow (components : List Component) : Prop :=
  ∀ beginning, beginning <+: components →
    beginning.count .parent ≤ beginning.countP Component.isName

/-- A trail leads nowhere up exactly if it stays below. -/
theorem up_eq_zero_iff : (Trail.of components).up = 0 ↔ StaysBelow components := by
  constructor
  · intro level beginning begins
    have balance := Trail.up_add_countP beginning
    have low := Trail.up_le_of_prefix begins
    omega
  · intro below
    induction components using List.reverseRecOn with
    | nil => rfl
    | append_singleton components c ih =>
        have level := ih fun beginning begins =>
          below beginning (begins.trans (List.prefix_append components [c]))
        have whole := below _ List.prefix_rfl
        have balance := Trail.up_add_countP (components ++ [c])
        rw [Trail.of_concat] at balance ⊢
        cases c with
        | root | current | name => exact level
        | parent =>
            rw [Trail.extend] at balance ⊢
            split
            case isFalse => exact level
            case isTrue none =>
                rw [if_pos none, none] at balance
                simp only [List.length_nil] at balance
                omega

instance : DecidablePred StaysBelow :=
  fun _ => decidable_of_iff _ up_eq_zero_iff

/-- Steps that stay below their start lead to the same place under every directory, and others do
not, unless they are taken from the root. -/
theorem placeFrom_eq_append_iff (rootless : .root ∉ components) :
    placeFrom here components = here ++ placeFrom [] components ↔
      StaysBelow components ∨ here = [] := by
  rw [placeFrom_nil rootless, placeFrom_eq rootless, List.append_cancel_right_eq, ← up_eq_zero_iff,
    List.rdrop, List.take_eq_self_iff]
  constructor
  · intro long
    rw [← List.length_eq_zero_iff]
    omega
  · rintro (level | rfl)
    · rw [level, Nat.sub_zero]
    · exact Nat.zero_le _

end Path

/-! ### What is read -/

namespace Files

open FunctionBundler.Path

variable {files : Files} {here place : List String} {path : Path} {content : Bytes}

/-- A piece leads where the component leads that it stands for. -/
theorem child_eq {piece : List Char} (filled : piece ≠ [])
    (named : child here (String.ofList piece) = .ok place) :
    place = (Component.ofPiece? piece).elim here (Component.follow here) := by
  have same (text : String) : String.ofList piece = text ↔ piece = text.toList := by
    rw [← String.toList_inj, String.toList_ofList]
  rcases eq_of_child named with (⟨stays, rfl⟩ | ⟨up, rfl⟩) | ⟨⟨moves, down⟩, rfl⟩
  · rw [(same ".").mp stays]
    rfl
  · rw [(same "..").mp up]
    rfl
  · have read : Component.ofPiece? piece = some (.name (String.ofList piece)) := by
      unfold Component.ofPiece?
      split
      · exact absurd rfl filled
      · exact absurd rfl moves
      · exact absurd rfl down
      · rfl
    rw [read]
    rfl

/-- A walk leads to the place that is told by the components alone. -/
theorem eq_placeFrom_of_walk {parts : List (List Char)}
    (walk : files.walk here ((parts.filter (· ≠ [])).map String.ofList) = .ok place) :
    place = placeFrom here (parts.filterMap Component.ofPiece?) := by
  induction parts generalizing here with
  | nil =>
      cases walk
      rfl
  | cons piece parts ih =>
      by_cases filled : piece ≠ []
      · rw [List.filter_cons_of_pos (by simpa using filled), List.map_cons, walk_cons] at walk
        cases step : files.stepInto here (String.ofList piece) with
        | error fault =>
            rw [step] at walk
            cases walk
        | ok next =>
            rw [step] at walk
            rw [ih walk, child_eq filled (child_of_stepInto step), List.filterMap_cons]
            cases Component.ofPiece? piece <;> rfl
      · obtain rfl := not_not.mp filled
        exact ih walk

/-- The pieces that a path is walked by stand for what it means below its start: one for a separator
at the end stands for nothing. -/
theorem exists_parts_of_steps (path : Path) :
    ∃ parts : List (List Char), steps path = (parts.filter (· ≠ [])).map String.ofList ∧
      parts.filterMap Component.ofPiece? = path.body := by
  rw [steps]
  split
  case isTrue =>
      refine ⟨path.piecesOf ++ [['.']], ?_, ?_⟩
      · rw [List.filter_append, List.map_append]
        rfl
      · rw [List.filterMap_append]
        exact List.append_nil _
  case isFalse => exact ⟨path.piecesOf, rfl, rfl⟩

/-- An absolute path is located where its text leads. -/
theorem eq_place_of_locate (absolute : path.isAbsolute = true)
    (located : files.walk (files.origin path) (steps path) = .ok place) : place = path.place := by
  obtain ⟨parts, walked, meaning⟩ := exists_parts_of_steps path
  rw [walked, origin, if_pos absolute] at located
  rw [place_of_isAbsolute absolute, ← meaning, eq_placeFrom_of_walk located]

/-- What is read under an absolute path is stored where its text leads. -/
theorem node?_of_read (absolute : path.isAbsolute = true)
    (found : files.read path = .ok content) : files.node? path.place = some (.file content) := by
  obtain ⟨-, place, walk, stored⟩ := exists_walk_of_read found
  rw [← eq_place_of_locate absolute walk, stored]

/-- A directory that can be looked at is reached by the names of its path. -/
theorem walk_of_status (absolute : path.isAbsolute = true)
    (directory : files.status path = .ok ⟨false, 0⟩) :
    files.walk [] (pieceNames path) = .ok path.place ∧
      files.node? path.place = some .directory := by
  rw [status] at directory
  obtain ⟨place, located, kind⟩ := bind_eq_ok_iff.mp directory
  obtain ⟨-, -, located⟩ := bind_eq_ok_iff.mp located
  have leads := eq_place_of_locate absolute located
  have stored : files.node? place = some .directory := by
    split at kind <;> cases kind
    assumption
  rw [← leads]
  refine ⟨?_, stored⟩
  rw [origin, if_pos absolute, steps] at located
  split at located
  case isFalse => exact located
  case isTrue =>
      rw [walk_append] at located
      obtain ⟨before, walk, last⟩ := bind_eq_ok_iff.mp located
      rw [walk_cons] at last
      obtain ⟨next, step, stays⟩ := bind_eq_ok_iff.mp last
      cases stays
      cases child_of_stepInto step
      exact walk

end Files

end FunctionBundler
