/-
Module: FunctionBundler.Path.Normal
Purpose: The plain spelling of a path means what the path means.
Trusted boundary: none
Main exports:
  Component.IsStep, Path.components_ofComponents_steps, Path.components_normalize,
  Path.normalize_normalize, Path.normalize_eq_iff, Path.chars_normalize_of_isAbsolute
-/
import FunctionBundler.Path

namespace FunctionBundler

/-!
`components_normalize` says that the plain spelling of a path has the path's
components.  Hence normalizing twice changes nothing, and two paths have the same
components exactly when their plain spellings are the same text.
-/

namespace Text

/-- No piece of a text holds the separator that it was cut at. -/
theorem separator_not_mem_piece {separator : Char} {text piece : List Char}
    (mem : piece ∈ pieces separator text) : separator ∉ piece := by
  induction text generalizing piece with
  | nil => simp_all [pieces]
  | cons c rest ih =>
    simp only [pieces] at mem
    split at mem
    · rcases List.mem_cons.1 mem with rfl | mem
      · simp
      · exact ih mem
    · rename_i differs
      split at mem
      · rename_i empty
        exact absurd empty (pieces_ne_nil _ _)
      · rename_i first others eq
        rcases List.mem_cons.1 mem with rfl | mem
        · have outside : separator ∉ first := ih (by simp [eq])
          simp [outside, Ne.symm differs]
        · exact ih (by simp [eq, mem])

/-- A text without the separator is one piece. -/
theorem pieces_of_not_mem {separator : Char} {text : List Char} (none : separator ∉ text) :
    pieces separator text = [text] := by
  induction text with
  | nil => rfl
  | cons c rest ih =>
    simp only [List.mem_cons, not_or] at none
    simp [pieces, Ne.symm none.1, ih none.2]

/-- A first piece is cut off at the separator behind it. -/
theorem pieces_append_separator {separator : Char} {piece : List Char} (rest : List Char)
    (none : separator ∉ piece) :
    pieces separator (piece ++ separator :: rest) = piece :: pieces separator rest := by
  induction piece with
  | nil => simp [pieces]
  | cons c piece ih =>
    simp only [List.mem_cons, not_or] at none
    simp [pieces, Ne.symm none.1, ih none.2]

/-- Cutting what was put together gives the pieces back. -/
theorem pieces_intercalate {separator : Char} {parts : List (List Char)} (some : parts ≠ [])
    (none : ∀ part ∈ parts, separator ∉ part) :
    pieces separator (List.intercalate [separator] parts) = parts := by
  induction parts with
  | nil => exact absurd rfl some
  | cons part parts ih =>
    cases parts with
    | nil => simpa [List.intercalate] using pieces_of_not_mem (none part (by simp))
    | cons next parts =>
      have step : List.intercalate [separator] (part :: next :: parts) =
          part ++ separator :: List.intercalate [separator] (next :: parts) := by
        simp [List.intercalate, List.intersperse]
      rw [step, pieces_append_separator _ (none part (by simp)),
        ih (by simp) fun p mem => none p (by simp [mem])]

end Text

namespace Component

/-- A component that may stand anywhere in a path: `..` or a name. -/
def IsStep (c : Component) : Prop :=
  ofPiece? c.text.toList = some c ∧ '/' ∉ c.text.toList

/-- What is read from a piece without a separator is a step. -/
theorem isStep_of_ofPiece? {piece : List Char} {c : Component} (read : ofPiece? piece = some c)
    (none : '/' ∉ piece) : c.IsStep := by
  unfold ofPiece? at read
  split at read
  · cases read
  · cases read
  · cases read
    exact ⟨rfl, by decide⟩
  · cases read
    constructor
    · simp only [text, String.toList_ofList]
      unfold ofPiece?
      split <;> simp_all
    · simpa [text] using none

theorem IsStep.text_ne_nil {c : Component} (step : c.IsStep) : c.text.toList ≠ [] := by
  intro empty
  have := step.1
  simp [empty, ofPiece?] at this

theorem IsStep.text_ne_dot {c : Component} (step : c.IsStep) : c.text.toList ≠ ['.'] := by
  intro dot
  have := step.1
  simp [dot, ofPiece?] at this

/-- Steps are read back from their texts. -/
theorem filterMap_text {body : List Component} (steps : ∀ c ∈ body, c.IsStep) :
    (body.map fun c => c.text.toList).filterMap ofPiece? = body := by
  induction body with
  | nil => rfl
  | cons c body ih =>
    rw [List.map_cons, List.filterMap_cons, (steps c (by simp)).1]
    simp only
    rw [ih fun d mem => steps d (by simp [mem])]

/-- No text of a step holds a separator. -/
theorem separator_not_mem_text {body : List Component} (steps : ∀ c ∈ body, c.IsStep)
    {part : List Char} (mem : part ∈ body.map fun c => c.text.toList) : '/' ∉ part := by
  obtain ⟨c, inside, rfl⟩ := List.mem_map.1 mem
  exact (steps c inside).2

end Component

namespace Path

/-- Every component behind the head of a path is a step. -/
theorem isStep_of_mem_body {path : Path} {c : Component}
    (mem : c ∈ path.piecesOf.filterMap Component.ofPiece?) : c.IsStep := by
  obtain ⟨piece, mem, read⟩ := List.mem_filterMap.1 mem
  exact Component.isStep_of_ofPiece? read (Text.separator_not_mem_piece mem)

/-- The components of a path are steps, after the root or a leading `.` if there is one. -/
theorem components_shape (path : Path) :
    ∃ body, (∀ c ∈ body, Component.IsStep c) ∧
      (path.components = .root :: body ∨ path.components = .current :: body ∨
        path.components = body) := by
  refine ⟨path.piecesOf.filterMap Component.ofPiece?, fun c mem => isStep_of_mem_body mem, ?_⟩
  unfold components
  simp only
  split
  · simp
  · split <;> simp

/-- A path from the root is read back from its spelling. -/
theorem components_ofComponents_root {body : List Component}
    (steps : ∀ c ∈ body, Component.IsStep c) :
    (ofComponents (.root :: body)).components = .root :: body := by
  have pieces : (ofComponents (.root :: body)).piecesOf =
      [] :: Text.pieces '/' (List.intercalate ['/'] (body.map fun c => c.text.toList)) := by
    simp [piecesOf, chars, ofComponents, Text.pieces]
  have absolute : (ofComponents (.root :: body)).isAbsolute = true := by
    simp [isAbsolute, chars, ofComponents]
  unfold components
  rw [absolute, pieces]
  cases body with
  | nil => rfl
  | cons c body =>
    rw [Text.pieces_intercalate (by simp) fun _ => Component.separator_not_mem_text steps]
    have read := Component.filterMap_text steps
    simp only [if_true, List.filterMap_cons, Component.ofPiece?, read]

/-- Pieces that hold no separator are found again in the path that is made of them. -/
theorem piecesOf_ofPieces {parts : List (List Char)} (some : parts ≠ [])
    (none : ∀ part ∈ parts, '/' ∉ part) : (ofPieces parts).piecesOf = parts := by
  simp only [piecesOf, chars, ofPieces, String.toList_ofList]
  exact Text.pieces_intercalate some none

/-- A path whose first piece is not empty is relative. -/
theorem isAbsolute_ofPieces {part : List Char} {parts : List (List Char)} (some : part ≠ [])
    (none : '/' ∉ part) : (ofPieces (part :: parts)).isAbsolute = false := by
  cases part with
  | nil => exact absurd rfl some
  | cons c part =>
    simp only [List.mem_cons, not_or] at none
    cases parts <;>
      simp [isAbsolute, chars, ofPieces, List.intercalate, List.intersperse, Ne.symm none.1]

/-- A path from the current directory is read back from its spelling. -/
theorem components_ofComponents_current {body : List Component}
    (steps : ∀ c ∈ body, Component.IsStep c) :
    (ofComponents (.current :: body)).components = .current :: body := by
  have none : ∀ part ∈ ['.'] :: body.map (fun c => c.text.toList), '/' ∉ part := by
    intro part mem
    rcases List.mem_cons.1 mem with rfl | mem
    · decide
    · exact Component.separator_not_mem_text steps mem
  have same : ofComponents (.current :: body) =
      ofPieces (['.'] :: body.map fun c => c.text.toList) := by
    simp [ofComponents, Component.text]
  unfold components
  rw [same, isAbsolute_ofPieces (by simp) (by decide), piecesOf_ofPieces (by simp) none]
  simp only [List.filterMap_cons, Component.ofPiece?, Component.filterMap_text steps]
  simp

/-- A path of steps alone is read back from its spelling. -/
theorem components_ofComponents_steps {body : List Component}
    (steps : ∀ c ∈ body, Component.IsStep c) : (ofComponents body).components = body := by
  cases body with
  | nil => rfl
  | cons c body =>
    have step := steps c (by simp)
    have none : ∀ part ∈ (c :: body).map (fun c => c.text.toList), '/' ∉ part :=
      fun _ => Component.separator_not_mem_text steps
    have same : ofComponents (c :: body) = ofPieces ((c :: body).map fun c => c.text.toList) := by
      cases c with
      | root => exact absurd rfl step.text_ne_nil
      | current => rfl
      | parent => rfl
      | name text => rfl
    have relative : (ofPieces ((c :: body).map fun c => c.text.toList)).isAbsolute = false :=
      isAbsolute_ofPieces step.text_ne_nil step.2
    unfold components
    rw [same, relative, piecesOf_ofPieces (by simp) none, Component.filterMap_text steps]
    simp [step.text_ne_dot]

/-- The plain spelling of a path has the path's components. -/
@[simp] theorem components_normalize (path : Path) :
    path.normalize.components = path.components := by
  obtain ⟨body, steps, shape | shape | shape⟩ := components_shape path
  · rw [normalize, shape, components_ofComponents_root steps]
  · rw [normalize, shape, components_ofComponents_current steps]
  · rw [normalize, shape, components_ofComponents_steps steps]

/-- Spelling a plain spelling plainly changes nothing. -/
@[simp] theorem normalize_normalize (path : Path) : path.normalize.normalize = path.normalize := by
  show ofComponents path.normalize.components = path.normalize
  rw [components_normalize]
  rfl

/-- Two paths have the same plain spelling exactly when they have the same components. -/
theorem normalize_eq_iff {first second : Path} :
    first.normalize = second.normalize ↔ first.components = second.components := by
  constructor
  · intro same
    rw [← components_normalize first, same, components_normalize]
  · intro same
    rw [normalize, same, normalize]

/-- The plain spelling of an absolute path begins with a single separator. -/
theorem chars_normalize_of_isAbsolute {path : Path} (absolute : path.isAbsolute = true) :
    ∃ rest, path.normalize.chars = '/' :: rest ∧ rest.head? ≠ some '/' := by
  have shape : path.components = .root :: path.piecesOf.filterMap Component.ofPiece? :=
    if_pos absolute
  rw [normalize, shape, ofComponents, chars, String.toList_ofList]
  refine ⟨_, rfl, ?_⟩
  cases body : path.piecesOf.filterMap Component.ofPiece? with
  | nil => exact nofun
  | cons c others =>
    have step : c.IsStep := isStep_of_mem_body (body ▸ List.mem_cons_self)
    have relative := @isAbsolute_ofPieces _ (others.map fun c => c.text.toList)
      step.text_ne_nil step.2
    rwa [isAbsolute, decide_eq_false_iff_not, ofPieces, chars, String.toList_ofList] at relative

end Path

end FunctionBundler
