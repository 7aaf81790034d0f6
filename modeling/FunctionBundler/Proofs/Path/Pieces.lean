/-
Module: FunctionBundler.Proofs.Path.Pieces
Purpose: The pieces of a path that stand for something, and those that are idle at its end.
Trusted boundary: none
Main exports:
  Path.Fronted, Path.headAndBody_of_pieces, Path.headAndBody_dropLast, Path.parent?_of_fronted,
  Path.exists_pieces_of_fileName?
-/
import FunctionBundler.Path

namespace FunctionBundler.Path

/-!
What comes behind the last piece that stands for something is idle.  The pieces before it
are the start and the directory of the path, so the parent can be read off them, and a
path with a file name is one whose last such piece is that name.
-/

variable {path : Path} {piece : List Char} {front idles : List (List Char)}

/-- Pieces that stand for no component are idle. -/
theorem ofPiece?_eq_none_iff : Component.ofPiece? piece = none ↔ isIdle piece = true := by
  rw [isIdle, decide_eq_true_iff]
  unfold Component.ofPiece?
  split <;> simp_all

private theorem toList_of_ofPiece? {name : String}
    (read : Component.ofPiece? piece = some (.name name)) : piece = name.toList := by
  unfold Component.ofPiece? at read
  split at read <;> cases read
  exact String.toList_ofList.symm

/-- What begins an idle piece is idle. -/
theorem isIdle_of_prefix {start : List Char} (begins : start <+: piece)
    (idle : isIdle piece = true) : isIdle start = true := by
  rw [isIdle, decide_eq_true_iff] at idle ⊢
  rcases idle with rfl | rfl
  · exact Or.inl (List.prefix_nil.mp begins)
  · rcases List.prefix_cons_iff.mp begins with empty | ⟨rest, rfl, within⟩
    · exact Or.inl empty
    · rw [List.prefix_nil.mp within]
      exact Or.inr rfl

/-- No piece of two or more characters is idle. -/
theorem isIdle_of_longer (longer : 1 < piece.length) : isIdle piece = false := by
  rw [isIdle, decide_eq_false_iff_not]
  rintro (rfl | rfl)
  · cases longer
  · exact absurd longer (Nat.lt_irrefl 1)

/-- The pieces of a path are those in front, one that stands for something, and idle ones. -/
def Fronted (path : Path) (front : List (List Char)) : Prop :=
  ∃ piece idles, path.piecesOf = front ++ piece :: idles ∧ isIdle piece = false ∧
    ∀ idle ∈ idles, isIdle idle = true

/-- The pieces that mark where a path with these pieces in front starts, and the others. -/
def headOf : List (List Char) → List (List Char) × List (List Char)
  | [] => ([], [])
  | first :: rest => if isIdle first then ([first], rest) else ([], first :: rest)

private theorem headOf_append (front : List (List Char)) :
    (headOf front).1 ++ (headOf front).2 = front := by
  cases front with
  | nil => rfl
  | cons first rest =>
      rw [headOf]
      split <;> rfl

private theorem trimPieces_append (before : List (List Char)) (stays : isIdle piece = false)
    (idle : ∀ other ∈ idles, isIdle other = true) :
    trimPieces (before ++ piece :: idles) = before ++ [piece] := by
  have all : ∀ other ∈ idles.reverse, isIdle other = true :=
    fun other member => idle other (List.mem_reverse.mp member)
  rw [trimPieces, List.reverse_append, List.reverse_cons, List.append_assoc,
    List.dropWhile_append_of_pos all, List.singleton_append,
    List.dropWhile_cons_of_neg (Bool.eq_false_iff.mp stays), List.reverse_cons,
    List.reverse_reverse]

/-- An absolute path begins with an empty piece. -/
theorem eq_nil_of_isAbsolute {first : List Char} {rest : List (List Char)}
    (cut : path.piecesOf = first :: rest) (absolute : path.isAbsolute = true) : first = [] := by
  rw [isAbsolute, decide_eq_true_iff] at absolute
  obtain ⟨text, same⟩ := List.head?_eq_some_iff.mp absolute
  rw [piecesOf, same, Text.pieces, if_pos rfl] at cut
  exact (List.cons.inj cut).1.symm

/-- A path is absolute if an empty piece is the first of several. -/
theorem isAbsolute_of_pieces {rest : List (List Char)} (cut : path.piecesOf = [] :: rest)
    (more : rest ≠ []) : path.isAbsolute = true := by
  rw [piecesOf] at cut
  rw [isAbsolute, decide_eq_true_iff]
  cases text : path.chars with
  | nil =>
      rw [text] at cut
      cases cut
      exact absurd rfl more
  | cons c others =>
      rw [text, Text.pieces] at cut
      split at cut
      case isTrue same =>
          rw [same]
          rfl
      case isFalse => split at cut <;> cases cut

/-- The last piece that is not idle is the last of the body. -/
theorem headAndBody_of_pieces (cut : path.piecesOf = front ++ piece :: idles)
    (stays : isIdle piece = false) (idle : ∀ other ∈ idles, isIdle other = true) :
    path.headAndBody = ((headOf front).1, (headOf front).2 ++ [piece]) := by
  cases front with
  | nil =>
      have starts : ¬(path.isAbsolute = true ∨ piece = ['.']) := by
        rintro (absolute | rfl)
        · rw [eq_nil_of_isAbsolute cut absolute] at stays
          cases stays
        · cases stays
      rw [headAndBody, cut]
      dsimp only [List.nil_append]
      rw [if_neg starts]
      exact congrArg _ (trimPieces_append [] stays idle)
  | cons first rest =>
      have starts : path.isAbsolute = true ↔ first = [] := by
        refine ⟨eq_nil_of_isAbsolute cut, ?_⟩
        rintro rfl
        exact isAbsolute_of_pieces cut
          (List.append_ne_nil_of_right_ne_nil rest (List.cons_ne_nil _ _))
      have same : (path.isAbsolute = true ∨ first = ['.']) ↔ isIdle first = true := by
        rw [starts, isIdle, decide_eq_true_iff]
      rw [headAndBody, cut]
      dsimp only [List.cons_append]
      rw [headOf]
      simp only [same]
      split
      case isTrue => exact congrArg _ (trimPieces_append rest stays idle)
      case isFalse => exact congrArg _ (trimPieces_append (first :: rest) stays idle)

/-- The start and the body of a path without its last piece are the pieces in front. -/
theorem headAndBody_dropLast (cut : path.piecesOf = front ++ piece :: idles)
    (stays : isIdle piece = false) (idle : ∀ other ∈ idles, isIdle other = true) :
    path.headAndBody.1 ++ path.headAndBody.2.dropLast = front := by
  rw [headAndBody_of_pieces cut stays idle, List.dropLast_concat, headOf_append]

/-- The parent of a path is made of the pieces in front. -/
theorem parent?_of_fronted (fronted : path.Fronted front) :
    path.parent? = some (ofHeadAndBody (headOf front).1 (trimPieces (headOf front).2)) := by
  obtain ⟨piece, idles, cut, stays, idle⟩ := fronted
  rw [parent?, headAndBody_of_pieces cut stays idle]
  split
  case h_1 same => exact absurd (congrArg Prod.snd same) (List.concat_ne_nil _ _)
  case h_2 same =>
      cases same
      rw [List.dropLast_concat]

private theorem getLast?_of_cons {α : Type} {first last : α} {rest : List α}
    (found : (first :: rest).getLast? = some last) (differs : first ≠ last) :
    rest.getLast? = some last := by
  cases rest with
  | nil => exact absurd (Option.some.inj found) differs
  | cons second rest => exact found

/-- A path with a file name ends in it, except for idle pieces. -/
theorem exists_pieces_of_fileName? {name : String} (named : path.fileName? = some name) :
    ∃ front idles, path.piecesOf = front ++ name.toList :: idles ∧
      isIdle name.toList = false ∧ ∀ idle ∈ idles, isIdle idle = true := by
  have last : (path.piecesOf.filterMap Component.ofPiece?).getLast? = some (.name name) := by
    have last : path.components.getLast? = some (.name name) := by
      rw [fileName?] at named
      split at named
      case h_1 found =>
          cases named
          exact found
      case h_2 => cases named
    rw [components] at last
    split at last
    case isTrue => exact getLast?_of_cons last Component.noConfusion
    case isFalse =>
        split at last
        case isTrue => exact getLast?_of_cons last Component.noConfusion
        case isFalse => exact last
  obtain ⟨before, cut⟩ := List.getLast?_eq_some_iff.mp last
  obtain ⟨early, late, whole, -, one⟩ := List.filterMap_eq_append_iff.mp cut
  obtain ⟨between, piece, idles, rfl, -, read, rest⟩ := List.filterMap_eq_cons_iff.mp one
  have stays : isIdle piece = false := by
    rw [← Bool.not_eq_true, ← ofPiece?_eq_none_iff, read]
    exact Option.some_ne_none _
  rw [toList_of_ofPiece? read] at whole stays
  refine ⟨early ++ between, idles, ?_, stays, fun idle member => ?_⟩
  · rw [whole, List.append_assoc]
  · exact ofPiece?_eq_none_iff.mp (List.filterMap_eq_nil_iff.mp rest idle member)

/-- A path with a file name has a parent. -/
theorem exists_parent?_of_fileName? {name : String} (named : path.fileName? = some name) :
    ∃ directory, path.parent? = some directory := by
  obtain ⟨front, idles, cut, stays, idle⟩ := exists_pieces_of_fileName? named
  exact ⟨_, parent?_of_fronted ⟨_, idles, cut, stays, idle⟩⟩

end FunctionBundler.Path
