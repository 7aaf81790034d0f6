/-
Module: FunctionBundler.Proofs.Text.Lines
Purpose: What trimming, cutting into pieces and cutting into lines leave of a text.
Trusted boundary: none
Main exports:
  Text.trimBlank_append, Text.trimBlank_prepend, Text.trimBlank_padded, Text.trimBlank_trimBlank,
  Text.pieces_append, Text.intercalate_pieces, Text.intercalate_cons, Text.not_mem_intercalate,
  Text.filled, Text.filled_lines, Text.filled_lines_append, Text.filled_lines_padded
-/
import FunctionBundler.Path.Normal

namespace FunctionBundler.Text

/-!
Readers of listings trim each line and pass over blank ones, so all they see of a text are
its filled lines.  These do not depend on how lines are ended (`filled_lines`), and the
filled lines of two texts with a line feed between them are those of the first, then those
of the second.
-/

variable {text : List Char}

/-! ### Trimming -/

/-- Blanks in front of a text are trimmed. -/
theorem trimBlank_prepend {before : List Char} (blank : ∀ c ∈ before, isBlank c = true)
    (text : List Char) : trimBlank (before ++ text) = trimBlank text := by
  rw [trimBlank, List.dropWhile_append_of_pos blank, trimBlank]

/-- Blanks behind a text are trimmed. -/
theorem trimBlank_append {after : List Char} (blank : ∀ c ∈ after, isBlank c = true)
    (text : List Char) : trimBlank (text ++ after) = trimBlank text := by
  have backwards : ∀ c ∈ after.reverse, isBlank c = true :=
    fun c member => blank c (List.mem_reverse.mp member)
  rw [trimBlank, List.dropWhile_append]
  split
  case isTrue empty =>
      have nothing : after.dropWhile isBlank = [] := by
        have trimmed := @List.dropWhile_append_of_pos _ isBlank after [] blank
        rwa [List.append_nil] at trimmed
      rw [nothing, trimBlank, List.isEmpty_iff.mp empty]
  case isFalse =>
      rw [List.reverse_append, List.dropWhile_append_of_pos backwards, trimBlank]

/-- Nothing is dropped where the first character stays. -/
theorem dropWhile_eq_self {holds : Char → Bool}
    (first : ∀ c, text.head? = some c → holds c = false) : text.dropWhile holds = text := by
  cases text with
  | nil => rfl
  | cons c rest => exact List.dropWhile_cons_of_neg (Bool.eq_false_iff.mp (first c rfl))

/-- Nothing is trimmed off a text that neither begins nor ends with a blank. -/
theorem trimBlank_eq_self (first : ∀ c, text.head? = some c → isBlank c = false)
    (last : ∀ c, text.getLast? = some c → isBlank c = false) : trimBlank text = text := by
  have backwards : ∀ c, text.reverse.head? = some c → isBlank c = false := by
    intro c head
    rw [List.head?_reverse] at head
    exact last c head
  rw [trimBlank, dropWhile_eq_self first, dropWhile_eq_self backwards, List.reverse_reverse]

/-- A text without blanks has nothing to trim. -/
theorem trimBlank_of_solid (solid : ∀ c ∈ text, isBlank c = false) : trimBlank text = text :=
  trimBlank_eq_self (fun c head => solid c (List.mem_of_head? head))
    fun c last => solid c (List.mem_of_getLast? last)

/-- A text whose characters are all checked has no blanks. -/
theorem solid_of_all (all : text.all (fun c => !isBlank c) = true) :
    ∀ c ∈ text, isBlank c = false := by
  simpa using all

/-- Only the blanks around a text without blanks are trimmed. -/
theorem trimBlank_padded {before text after : List Char}
    (blankBefore : ∀ c ∈ before, isBlank c = true) (solid : ∀ c ∈ text, isBlank c = false)
    (blankAfter : ∀ c ∈ after, isBlank c = true) :
    trimBlank (before ++ (text ++ after)) = text := by
  rw [trimBlank_prepend blankBefore, trimBlank_append blankAfter]
  exact trimBlank_of_solid solid

/-- What is taken from the front holds of each character. -/
theorem holds_of_mem_takeWhile {holds : Char → Bool} {c : Char}
    (member : c ∈ text.takeWhile holds) : holds c = true :=
  List.all_eq_true.mp List.all_takeWhile c member

/-- A text is what is left of it, with blanks around. -/
theorem exists_around_trimBlank (text : List Char) :
    ∃ before after, text = before ++ (trimBlank text ++ after) ∧
      (∀ c ∈ before, isBlank c = true) ∧ ∀ c ∈ after, isBlank c = true := by
  refine ⟨text.takeWhile isBlank, ((text.dropWhile isBlank).reverse.takeWhile isBlank).reverse,
    ?_, fun c => holds_of_mem_takeWhile, fun c member =>
      holds_of_mem_takeWhile (List.mem_reverse.mp member)⟩
  rw [trimBlank, ← List.reverse_append, List.takeWhile_append_dropWhile, List.reverse_reverse,
    List.takeWhile_append_dropWhile]

/-- There is nothing to trim twice. -/
theorem trimBlank_trimBlank (text : List Char) : trimBlank (trimBlank text) = trimBlank text := by
  obtain ⟨before, after, whole, blankBefore, blankAfter⟩ := exists_around_trimBlank text
  have same : trimBlank text = trimBlank (before ++ (trimBlank text ++ after)) :=
    congrArg trimBlank whole
  rw [trimBlank_prepend blankBefore, trimBlank_append blankAfter] at same
  exact same.symm

/-! ### Pieces -/

/-- A text that is cut at a separator has the pieces of both sides. -/
theorem pieces_append (separator : Char) (before after : List Char) :
    pieces separator (before ++ separator :: after) =
      pieces separator before ++ pieces separator after := by
  induction before with
  | nil => exact if_pos rfl
  | cons c rest ih =>
      rw [List.cons_append, pieces, pieces, ih]
      split
      case isTrue => rfl
      case isFalse =>
          cases cut : pieces separator rest with
          | nil => exact absurd cut (pieces_ne_nil separator rest)
          | cons piece others => rfl

/-- Pieces with separators between them are the text again. -/
theorem intercalate_pieces (separator : Char) (text : List Char) :
    List.intercalate [separator] (pieces separator text) = text := by
  induction text with
  | nil => rfl
  | cons c rest ih =>
      rw [pieces]
      cases cut : pieces separator rest with
      | nil => exact absurd cut (pieces_ne_nil separator rest)
      | cons piece others =>
          rw [cut] at ih
          split
          case isTrue same =>
              rw [List.intercalate_cons_cons, ih, same]
              rfl
          case isFalse =>
              cases others with
              | nil =>
                  rw [List.intercalate_singleton] at ih ⊢
                  rw [ih]
              | cons next others =>
                  rw [List.intercalate_cons_cons] at ih ⊢
                  rw [List.cons_append, List.cons_append, ih]

/-- Each piece behind the first has a separator before it. -/
theorem intercalate_cons (separator : Char) (first : List Char) (others : List (List Char)) :
    List.intercalate [separator] (first :: others) =
      first ++ others.flatMap (separator :: ·) := by
  induction others generalizing first with
  | nil => rw [List.intercalate_singleton, List.flatMap_nil, List.append_nil]
  | cons second others ih =>
      rw [List.intercalate_cons_cons, ih, List.flatMap_cons, List.append_assoc]
      rfl

/-- A character that is in no piece and no separator is not in the text. -/
theorem not_mem_intercalate {separator c : Char} {parts : List (List Char)}
    (differs : c ≠ separator) (bare : ∀ part ∈ parts, c ∉ part) :
    c ∉ List.intercalate [separator] parts := by
  cases parts with
  | nil => exact List.not_mem_nil
  | cons first others =>
      obtain ⟨notFirst, notOthers⟩ := List.forall_mem_cons.mp bare
      rw [intercalate_cons, List.mem_append, List.mem_flatMap]
      rintro (inFirst | ⟨part, member, inPart⟩)
      · exact notFirst inFirst
      · exact notOthers part member ((List.mem_cons.mp inPart).resolve_left differs)

/-! ### Lines -/

/-- The lines with something on them, trimmed. -/
def filled (lines : List (List Char)) : List (List Char) :=
  (lines.map trimBlank).filter (· ≠ [])

/-- What is left of lines is what they trim to, without the blank ones. -/
theorem mem_filled {lines : List (List Char)} :
    text ∈ filled lines ↔ text ≠ [] ∧ ∃ line ∈ lines, trimBlank line = text := by
  rw [filled, List.mem_filter, List.mem_map, decide_eq_true_iff, and_comm]

private theorem filled_append (first second : List (List Char)) :
    filled (first ++ second) = filled first ++ filled second := by
  rw [filled, List.map_append, List.filter_append, filled, filled]

private theorem filled_cons_of_filled {line : List Char} (something : trimBlank line ≠ [])
    (lines : List (List Char)) : filled (line :: lines) = trimBlank line :: filled lines := by
  rw [filled, List.map_cons, List.filter_cons_of_pos (by simp [something]), filled]

/-- The lines that are not blank, trimmed. -/
theorem filled_eq_map (lines : List (List Char)) :
    filled lines = (lines.filter fun line => trimBlank line ≠ []).map trimBlank := by
  rw [filled, List.filter_map]
  rfl

private theorem trimBlank_dropReturn (line : List Char) :
    trimBlank (dropReturn line) = trimBlank line := by
  rw [dropReturn]
  split
  case isTrue ends =>
      obtain ⟨start, rfl⟩ := List.getLast?_eq_some_iff.mp ends
      rw [List.dropLast_concat, trimBlank_append (List.forall_mem_singleton.mpr rfl)]
  case isFalse => rfl

/-- The filled lines are those between the line feeds, however lines are ended. -/
theorem filled_lines (text : List Char) : filled (lines text) = filled (pieces '\n' text) := by
  obtain ⟨before, last, cut⟩ : ∃ before last, pieces '\n' text = before ++ [last] :=
    ⟨_, _, (List.dropLast_concat_getLast (pieces_ne_nil '\n' text)).symm⟩
  have trimmed : filled (before.map dropReturn) = filled before := by
    rw [filled, List.map_map, filled]
    exact congrArg _ (List.map_congr_left fun line _ => trimBlank_dropReturn line)
  rw [lines, cut, List.dropLast_concat, List.getLastD_concat, filled_append, filled_append,
    trimmed]
  split
  case isTrue empty =>
      rw [List.isEmpty_iff.mp empty]
      rfl
  case isFalse => rfl

/-- Lines that are written one after the other are found again. -/
theorem filled_lines_intercalate {given : List (List Char)} (single : ∀ line ∈ given, '\n' ∉ line) :
    filled (lines (List.intercalate ['\n'] given)) = filled given := by
  rw [filled_lines]
  cases given with
  | nil => rfl
  | cons first others => rw [pieces_intercalate (List.cons_ne_nil first others) single]

/-- The lines of two texts are those of the first and then those of the second. -/
theorem filled_lines_append (first second : List Char) :
    filled (lines (first ++ '\n' :: second)) = filled (lines first) ++ filled (lines second) := by
  rw [filled_lines, pieces_append, filled_append, ← filled_lines, ← filled_lines]

/-- A single line, with blanks around or without. -/
theorem filled_lines_padded {before line after : List Char}
    (blankBefore : ∀ c ∈ before, isBlank c = true) (trimmed : trimBlank line = line)
    (something : line ≠ []) (blankAfter : ∀ c ∈ after, isBlank c = true)
    (single : '\n' ∉ before ++ (line ++ after)) :
    filled (lines (before ++ (line ++ after))) = [line] := by
  have left : trimBlank (before ++ (line ++ after)) = line := by
    rw [trimBlank_prepend blankBefore, trimBlank_append blankAfter, trimmed]
  have stays : trimBlank (before ++ (line ++ after)) ≠ [] := left.symm ▸ something
  rw [filled_lines, pieces_of_not_mem single, filled_cons_of_filled stays, left]
  rfl

end FunctionBundler.Text
