/-
Module: FunctionBundler.Proofs.Path.Parent
Purpose: The directory of a path, which stays when the extension of its file name is replaced.
Trusted boundary: none
Main exports:
  Path.fronted_setExtension, Path.fronted_cutBytes, Path.parent?_withExtension,
  Path.isAbsolute_parent?, Path.isAbsolute_absolute?
-/
import FunctionBundler.Proofs.Archive.Naming
import FunctionBundler.Proofs.Path.Pieces

namespace FunctionBundler

/-!
Replacing an extension first cuts off bytes, which can take away idle pieces and a part
of the extension, and no more, and then changes the last piece that stands for
something.  The pieces in front of it stay, and so does the parent, however the path is
written.  The parent of an absolute path is absolute, as is whatever a path means in an
absolute working directory.
-/

namespace Text

variable {separator : Char}

/-- The pieces of the beginning of a text begin its pieces, one by one. -/
theorem exists_pieces_of_prefix {text start first : List Char} {others : List (List Char)}
    (begins : start <+: text) (cut : pieces separator text = first :: others) :
    ∃ piece rest, pieces separator start = piece :: rest ∧ piece <+: first ∧
      ∀ one ∈ rest, ∃ other ∈ others, one <+: other := by
  induction start generalizing text first others with
  | nil => exact ⟨[], [], rfl, List.nil_prefix, List.forall_mem_nil _⟩
  | cons c start ih =>
      obtain ⟨tail, rfl, beginsTail⟩ := List.cons_prefix_iff.mp begins
      cases rests : pieces separator tail with
      | nil => exact absurd rests (pieces_ne_nil separator tail)
      | cons next later =>
          obtain ⟨piece, rest, cutStart, within, each⟩ := ih beginsTail rests
          rw [pieces] at cut ⊢
          by_cases same : c = separator
          · rw [if_pos same, rests] at cut
            rw [if_pos same, cutStart]
            cases cut
            refine ⟨[], piece :: rest, rfl, List.nil_prefix, ?_⟩
            refine List.forall_mem_cons.mpr
              ⟨⟨next, List.mem_cons_self, within⟩, fun one member => ?_⟩
            obtain ⟨other, found, begins⟩ := each one member
            exact ⟨other, List.mem_cons_of_mem next found, begins⟩
          · rw [if_neg same, rests] at cut
            rw [if_neg same, cutStart]
            cases cut
            exact ⟨c :: piece, rest, rfl, List.cons_prefix_cons.mpr ⟨rfl, within⟩, each⟩

/-- A text put together from pieces is prolonged at the end of one of them. -/
theorem intercalate_prolong (glue : List Char) (front : List (List Char))
    (piece more : List Char) (rest : List (List Char)) :
    List.intercalate glue (front ++ (piece ++ more) :: rest) =
      List.intercalate glue (front ++ [piece]) ++ List.intercalate glue (more :: rest) := by
  induction front with
  | nil =>
      rw [List.nil_append, List.nil_append, List.intercalate_singleton]
      cases rest with
      | nil => rw [List.intercalate_singleton, List.intercalate_singleton]
      | cons next rest =>
          rw [List.intercalate_cons_cons, List.intercalate_cons_cons]
          simp only [List.append_assoc]
  | cons first front ih =>
      have nonempty (last : List (List Char)) (piece : List Char) : front ++ piece :: last ≠ [] :=
        List.append_ne_nil_of_right_ne_nil front (List.cons_ne_nil _ _)
      rw [List.cons_append, List.cons_append, List.intercalate_cons_of_ne_nil (nonempty _ _),
        List.intercalate_cons_of_ne_nil (nonempty _ _), ih]
      simp only [List.append_assoc]

end Text

namespace Path

variable {path : Path} {piece : List Char} {front idles : List (List Char)}

/-! ### Replacing an extension -/

private theorem mem_of_mem_splitName {name : List Char} {c : Char}
    (member : c ∈ (splitName name).1) :
    c ∈ name := by
  rcases splitName_cases name with same | ⟨stem, ending, rfl, -, -, same⟩
  · rwa [same] at member
  · rw [same] at member
    exact List.mem_append_left _ member

/-- The stem of the file name is part of a piece. -/
theorem not_mem_of_fileStem? {stem : String} (found : path.fileStem? = some stem) :
    '/' ∉ stem.toList := by
  obtain ⟨name, named, rfl⟩ := Option.map_eq_some_iff.mp found
  obtain ⟨front, idles, cut, -, -⟩ := exists_pieces_of_fileName? named
  have whole : name.toList ∈ path.piecesOf := by
    rw [cut]
    exact List.mem_append_right _ List.mem_cons_self
  rw [String.toList_ofList]
  exact fun member => Text.separator_not_mem_piece whole (mem_of_mem_splitName member)

/-- An extension is written after a piece that stays where it is. -/
theorem fronted_setExtension {extension : String} (fronted : path.Fronted front)
    (bare : '/' ∉ extension.toList) (given : extension ≠ "") :
    (path.setExtension extension).Fronted front := by
  rw [setExtension]
  cases found : path.fileStem? with
  | none => exact fronted
  | some stem =>
      obtain ⟨piece, idles, cut, stays, idle⟩ := fronted
      have bareAll : ∀ part ∈ front ++ [stem.toList ++ '.' :: extension.toList], '/' ∉ part := by
        intro part member
        rcases List.mem_append.mp member with inFront | last
        · have whole : part ∈ path.piecesOf := by
            rw [cut]
            exact List.mem_append_left _ inFront
          exact Text.separator_not_mem_piece whole
        · rw [List.mem_singleton.mp last, List.mem_append, List.mem_cons]
          rintro (inStem | same | inExtension)
          · exact not_mem_of_fileStem? found inStem
          · cases same
          · exact bare inExtension
      have longer : 1 < (stem.toList ++ '.' :: extension.toList).length := by
        have positive : extension.toList ≠ [] :=
          fun empty => given (String.toList_eq_nil_iff.mp empty)
        have counted := List.length_pos_iff.mpr positive
        rw [List.length_append, List.length_cons]
        omega
      refine ⟨_, [], ?_, isIdle_of_longer longer, List.forall_mem_nil _⟩
      dsimp only
      rw [headAndBody_dropLast cut stays idle]
      exact piecesOf_ofPieces (List.concat_ne_nil _ _) bareAll

private theorem dropBytes_append_of_le {back : List Char} (rest : List Char) {bytes : Nat}
    (within : bytes ≤ (String.ofList back.reverse).utf8ByteSize) :
    ∃ part, part <:+ back ∧ dropBytes bytes (back ++ rest) = part ++ rest := by
  induction back generalizing bytes with
  | nil =>
      obtain rfl := Nat.le_zero.mp within
      exact ⟨[], List.suffix_refl [], dropBytes_append [] rest⟩
  | cons c back ih =>
      rw [utf8ByteSize_reverse_cons] at within
      rw [List.cons_append, dropBytes]
      split
      case isTrue =>
          obtain ⟨part, suffix, same⟩ := ih (Nat.sub_le_iff_le_add.mpr within)
          exact ⟨part, suffix.trans (List.suffix_cons c back), same⟩
      case isFalse => exact ⟨c :: back, List.suffix_refl _, rfl⟩

/-- Cutting off no more than the end of a text leaves a beginning of that end. -/
theorem exists_chars_cutBytes {before after : List Char} (cut : path.chars = before ++ after)
    {bytes : Nat} (within : bytes ≤ (String.ofList after).utf8ByteSize) :
    ∃ start, start <+: after ∧ (path.cutBytes bytes).chars = before ++ start := by
  rw [← List.reverse_reverse after] at within
  obtain ⟨part, suffix, same⟩ := dropBytes_append_of_le before.reverse within
  refine ⟨part.reverse, ?_, ?_⟩
  · rwa [← List.reverse_reverse after, List.reverse_prefix]
  · rw [cutBytes, chars, String.toList_ofList, cut, List.reverse_append, same,
      List.reverse_append, List.reverse_reverse]

/-- Cutting off the extension leaves its stem and what is in front. -/
theorem fronted_cutBytes {stem ending : List Char}
    (cut : path.piecesOf = front ++ (stem ++ '.' :: ending) :: idles) (nonempty : stem ≠ [])
    (idle : ∀ other ∈ idles, isIdle other = true) :
    (path.cutBytes (String.ofList ending).utf8ByteSize).Fronted front := by
  have bare : ∀ part ∈ path.piecesOf, '/' ∉ part := fun _ => Text.separator_not_mem_piece
  rw [cut] at bare
  obtain ⟨bareFront, bareLast⟩ := List.forall_mem_append.mp bare
  obtain ⟨bareName, bareIdles⟩ := List.forall_mem_cons.mp bareLast
  have joined : stem ++ '.' :: ending = stem ++ ['.'] ++ ending := List.append_cons ..
  rw [joined] at cut bareName
  obtain ⟨bareStem, bareEnding⟩ := not_or.mp (mt List.mem_append.mpr bareName)
  let after := List.intercalate ['/'] (ending :: idles)
  have text : path.chars = List.intercalate ['/'] (front ++ [stem ++ ['.']]) ++ after := by
    rw [← Text.intercalate_prolong, ← cut, piecesOf, Text.intercalate_pieces]
  have within : (String.ofList ending).utf8ByteSize ≤ (String.ofList after).utf8ByteSize := by
    have whole := Text.intercalate_prolong ['/'] [] ending [] idles
    rw [List.append_nil, List.nil_append, List.nil_append, List.intercalate_singleton] at whole
    rw [show after = _ from whole, String.ofList_append, String.utf8ByteSize_append]
    exact Nat.le_add_right _ _
  have cutAfter : Text.pieces '/' after = ending :: idles :=
    Text.pieces_intercalate (List.cons_ne_nil _ _)
      (List.forall_mem_cons.mpr ⟨bareEnding, bareIdles⟩)
  obtain ⟨start, begins, shortened⟩ := exists_chars_cutBytes text within
  obtain ⟨piece, rest, cutStart, -, each⟩ := Text.exists_pieces_of_prefix begins cutAfter
  have bareStart : ∀ part ∈ piece :: rest, '/' ∉ part := by
    rw [← cutStart]
    exact fun _ => Text.separator_not_mem_piece
  obtain ⟨barePiece, bareRest⟩ := List.forall_mem_cons.mp bareStart
  have longer : 1 < (stem ++ ['.'] ++ piece).length := by
    have positive := List.length_pos_iff.mpr nonempty
    rw [List.length_append, List.length_append, List.length_singleton]
    omega
  refine ⟨stem ++ ['.'] ++ piece, rest, ?_, isIdle_of_longer longer, fun one member => ?_⟩
  · rw [← Text.intercalate_pieces '/' start, cutStart, ← Text.intercalate_prolong] at shortened
    rw [piecesOf, shortened]
    refine Text.pieces_intercalate
      (List.append_ne_nil_of_right_ne_nil front (List.cons_ne_nil _ _)) ?_
    refine List.forall_mem_append.mpr ⟨bareFront, List.forall_mem_cons.mpr ⟨?_, bareRest⟩⟩
    exact fun member => (List.mem_append.mp member).elim bareStem barePiece
  · obtain ⟨other, found, within⟩ := each one member
    exact isIdle_of_prefix within (idle other found)

/-- Replacing the extension of a file name leaves the directory of the file. -/
theorem parent?_withExtension {name extension : String} (named : path.fileName? = some name)
    (bare : '/' ∉ extension.toList) (given : extension ≠ "") :
    (path.withExtension extension).parent? = path.parent? := by
  obtain ⟨front, idles, cut, stays, idle⟩ := exists_pieces_of_fileName? named
  have fronted : path.Fronted front := ⟨_, idles, cut, stays, idle⟩
  have shortened : (path.cutBytes (path.extension?.elim 0 String.utf8ByteSize)).Fronted front := by
    rw [extension?, named]
    change (path.cutBytes (((splitName name.toList).2.map String.ofList).elim 0 _)).Fronted front
    rcases splitName_cases name.toList with same | ⟨stem, ending, whole, begins, -, same⟩
    · rw [same]
      change (path.cutBytes 0).Fronted front
      rwa [cutBytes_zero]
    · rw [whole] at cut
      rw [same]
      exact fronted_cutBytes cut begins idle
  have after := fronted_setExtension shortened bare given
  rw [withExtension, parent?_of_fronted after, parent?_of_fronted fronted]

/-! ### Absolute paths -/

private theorem isAbsolute_ofHeadAndBody (body : List (List Char)) :
    (ofHeadAndBody [[]] body).isAbsolute = true := by
  rw [ofHeadAndBody]
  split
  case isTrue => rfl
  case isFalse more =>
      have nonempty : body ≠ [] := fun empty => more ⟨rfl, empty⟩
      rw [isAbsolute, chars, ofPieces, String.toList_ofList, List.singleton_append,
        List.intercalate_cons_of_ne_nil nonempty]
      rfl

/-- The parent of an absolute path is absolute. -/
theorem isAbsolute_parent? {directory : Path} (absolute : path.isAbsolute = true)
    (found : path.parent? = some directory) : directory.isAbsolute = true := by
  have head : path.headAndBody.1 = [[]] := by
    rw [headAndBody]
    split
    case h_1 first rest cut => rw [if_pos (Or.inl absolute), eq_nil_of_isAbsolute cut absolute]
    case h_2 cut => exact absurd cut (Text.pieces_ne_nil _ _)
  rw [parent?] at found
  split at found
  case h_1 same =>
      rw [same] at head
      cases head
      cases found
  case h_2 same =>
      rw [same] at head
      cases head
      cases found
      exact isAbsolute_ofHeadAndBody _

private theorem not_mem_text_of_mem_components {c : Component} (member : c ∈ path.components) :
    '/' ∉ c.text.toList := by
  obtain ⟨body, steps, shape⟩ := components_shape path
  have start : '/' ∉ Component.root.text.toList ∧ '/' ∉ Component.current.text.toList := by decide
  rcases shape with shape | shape | shape <;> rw [shape] at member
  · rcases List.mem_cons.mp member with rfl | inBody
    · exact start.1
    · exact (steps c inBody).2
  · rcases List.mem_cons.mp member with rfl | inBody
    · exact start.2
    · exact (steps c inBody).2
  · exact (steps c member).2

/-- Joining components one after the other to an absolute path gives absolute paths. -/
theorem isAbsolute_foldl_join {components : List Component} (start : Path)
    (bare : ∀ c ∈ components, '/' ∉ c.text.toList) :
    (components.foldl (fun base c => base.join ⟨c.text⟩) start).isAbsolute = start.isAbsolute := by
  induction components generalizing start with
  | nil => rfl
  | cons first rest ih =>
      obtain ⟨bareFirst, bareRest⟩ := List.forall_mem_cons.mp bare
      rw [List.foldl_cons, ih _ bareRest, isAbsolute_join start bareFirst]

/-- Only the empty path means nothing in a working directory. -/
theorem absolute?_eq_none_iff {working : Path} :
    path.absolute? working = none ↔ path.text = "" := by
  rw [absolute?]
  split
  case isTrue empty => exact iff_of_true rfl empty
  case isFalse given => exact iff_of_false nofun given

/-- A path that was made absolute is so. -/
theorem isAbsolute_absolute? {working result : Path} (absolute : working.isAbsolute = true)
    (found : path.absolute? working = some result) : result.isAbsolute = true := by
  have bare : ∀ c ∈ path.components.filter fun c => c ≠ .root ∧ c ≠ .current,
      '/' ∉ c.text.toList :=
    fun c member => not_mem_text_of_mem_components (List.mem_filter.mp member).1
  have start : (if path.isAbsolute = true then
      if path.chars.take 2 = ['/', '/'] ∧ path.chars.take 3 ≠ ['/', '/', '/'] then ⟨"//"⟩ else ⟨"/"⟩
      else working : Path).isAbsolute = true := by
    split
    case isTrue => split <;> rfl
    case isFalse => exact absolute
  rw [absolute?] at found
  split at found
  case isTrue => cases found
  case isFalse =>
      have plain := (isAbsolute_foldl_join _ bare).trans start
      rw [← Option.some.inj found]
      split
      case isTrue => exact (isAbsolute_join _ List.not_mem_nil).trans plain
      case isFalse => exact plain

end Path

end FunctionBundler
