/-
Module: FunctionBundler.Proofs.Archive.Naming
Purpose: How the archive of an executable is called, for every name the executable can have.
Trusted boundary: none
Main exports:
  Path.splitName_of_dot, Path.splitName_cases, Path.setExtension_join, Archive.componentFor,
  Archive.pathFor_join, Archive.pathFor_eq_append_iff
-/
import FunctionBundler.Archive
import FunctionBundler.Proofs.Path.Pieces
import FunctionBundler.Proofs.Path.Siblings

namespace FunctionBundler

/-!
The path of an archive is that of its executable with the extension replaced, so all
that counts of a name with an extension is its stem.  The archive lies beside the
executable and is called after the stem, except that an extension after two dots is
cut to the two dots, which mean the directory above.  Only for a name without an
extension this amounts to writing `.zip` after it.
-/

namespace Path

variable {base : Path} {name : String} {stem ending : List Char}

/-! ### Stems and extensions -/

private theorem takeWhile_ne_dot (bare : '.' ∉ ending) (rest : List Char) :
    ((ending.reverse ++ rest).takeWhile (· ≠ '.')) =
      ending.reverse ++ rest.takeWhile (· ≠ '.') := by
  apply List.takeWhile_append_of_pos
  intro c member
  rw [decide_eq_true_iff]
  rintro rfl
  exact bare (List.mem_reverse.mp member)

/-- A name is split at its last dot. -/
theorem splitName_of_dot (bare : '.' ∉ ending) (begins : stem ≠ []) :
    splitName (stem ++ '.' :: ending) = (stem, some ending) := by
  have last : ((stem ++ '.' :: ending).reverse.takeWhile (· ≠ '.')).reverse = ending := by
    rw [List.reverse_append, List.reverse_cons, List.append_assoc, takeWhile_ne_dot bare]
    simp
  have length : (stem ++ '.' :: ending).length = stem.length + 1 + ending.length := by
    rw [List.length_append, List.length_cons]
    omega
  have start : (stem ++ '.' :: ending).take
      ((stem ++ '.' :: ending).length - ending.length - 1) = stem := by
    apply List.take_left'
    omega
  have shorter : ¬(stem = [] ∨ ending.length = (stem ++ '.' :: ending).length) := by
    rw [length]
    exact fun either => either.elim begins fun same => by omega
  rw [splitName, last, start, if_neg shorter]

/-- A name has no extension, or one after the last of its dots, which is not its first character. -/
theorem splitName_cases (name : List Char) :
    splitName name = (name, none) ∨
      ∃ stem ending, name = stem ++ '.' :: ending ∧ stem ≠ [] ∧ '.' ∉ ending ∧
        splitName name = (stem, some ending) := by
  by_cases dotted : '.' ∈ name
  · obtain ⟨back, front, cut, bare⟩ := List.eq_append_cons_of_mem (List.mem_reverse.mpr dotted)
    have whole : name = front.reverse ++ '.' :: back.reverse := by
      rw [← List.reverse_reverse name, cut, List.reverse_append, List.reverse_cons,
        List.append_assoc]
      rfl
    have bareEnding : '.' ∉ back.reverse := fun member => bare (List.mem_reverse.mp member)
    by_cases begins : front.reverse = []
    · refine Or.inl ?_
      rw [begins, List.nil_append] at whole
      have last : (name.reverse.takeWhile (· ≠ '.')).reverse = back.reverse := by
        have all := @takeWhile_ne_dot back.reverse bareEnding ['.']
        rw [List.reverse_reverse] at all
        rw [whole, List.reverse_cons, List.reverse_reverse, all]
        simp
      have start : name.take (name.length - back.reverse.length - 1) = [] := by
        rw [whole, List.length_cons, Nat.sub_sub, Nat.sub_self, List.take_zero]
      rw [splitName, last, start, if_pos (Or.inl rfl)]
    · exact Or.inr ⟨_, _, whole, begins, bareEnding, whole ▸ splitName_of_dot bareEnding begins⟩
  · have last : (name.reverse.takeWhile (· ≠ '.')).reverse = name := by
      have all := takeWhile_ne_dot dotted []
      rw [List.append_nil] at all
      rw [all, List.takeWhile_nil, List.append_nil, List.reverse_reverse]
    refine Or.inl ?_
    rw [splitName, last]
    exact if_pos (Or.inr rfl)

/-- The extension of a path that ends in a name is the extension of that name. -/
theorem extension?_join (base : Path) (single : (Component.name name).IsStep) :
    (base.join ⟨name⟩).extension? = (splitName name.toList).2.map String.ofList := by
  rw [extension?, fileName?_join base single]
  rfl

/-! ### Replacing an extension -/

/-- Each character adds its own bytes to a text, in whatever order it is written. -/
theorem utf8ByteSize_reverse_cons (c : Char) (piece : List Char) :
    (String.ofList (c :: piece).reverse).utf8ByteSize =
      (String.ofList piece.reverse).utf8ByteSize + c.utf8Size := by
  rw [List.reverse_cons, String.ofList_append, String.utf8ByteSize_append]
  exact congrArg _ String.utf8ByteSize_singleton

/-- Dropping as many bytes as a piece has drops that piece. -/
theorem dropBytes_append (piece rest : List Char) :
    dropBytes (String.ofList piece.reverse).utf8ByteSize (piece ++ rest) = rest := by
  induction piece with
  | nil => cases rest <;> simp [dropBytes]
  | cons c piece ih =>
      have positive := c.utf8Size_pos
      rw [utf8ByteSize_reverse_cons, List.cons_append, dropBytes, if_pos (by omega),
        Nat.add_sub_cancel, ih]

/-- Cutting off what was written after a path. -/
theorem cutBytes_append (path : Path) (ending : String) :
    (⟨path.text ++ ending⟩ : Path).cutBytes ending.utf8ByteSize = path := by
  have backwards : (⟨path.text ++ ending⟩ : Path).chars.reverse =
      ending.toList.reverse ++ path.chars.reverse := by
    rw [chars, String.toList_append, List.reverse_append]
    rfl
  have cut := dropBytes_append ending.toList.reverse path.chars.reverse
  rw [List.reverse_reverse, String.ofList_toList] at cut
  rw [cutBytes, backwards, cut, List.reverse_reverse, chars, String.ofList_toList]

theorem cutBytes_zero (path : Path) : path.cutBytes 0 = path := by
  have cut := cutBytes_append path ""
  rwa [String.append_empty] at cut

private theorem isIdle_name (single : (Component.name name).IsStep) :
    isIdle name.toList = false := by
  rw [isIdle, decide_eq_false_iff_not]
  exact fun either => either.elim single.text_ne_nil single.text_ne_dot

/-- An extension is written after the stem of the joined name. -/
theorem setExtension_join (base : Path) (single : (Component.name name).IsStep)
    (extension : String) :
    (base.join ⟨name⟩).setExtension extension =
      ofPieces (base.directoryPieces ++
        [(splitName name.toList).1 ++ '.' :: extension.toList]) := by
  have bare : '/' ∉ name.toList := single.2
  have stem : (base.join ⟨name⟩).fileStem? = some (String.ofList (splitName name.toList).1) := by
    rw [fileStem?, fileName?_join base single]
    rfl
  have before := headAndBody_dropLast (piecesOf_join base bare) (isIdle_name single)
    (List.forall_mem_nil _)
  rw [setExtension, stem]
  dsimp only
  rw [before, String.toList_ofList]

/-- The directory above has no stem, so no extension is written after it. -/
theorem setExtension_parent (base : Path) (extension : String) :
    (base.join ⟨Component.parent.text⟩).setExtension extension =
      base.join ⟨Component.parent.text⟩ := by
  have up : (base.join ⟨Component.parent.text⟩).fileStem? = none := by
    rw [fileStem?, fileName?, components_join base Component.isStep_parent, List.getLast?_concat]
    rfl
  rw [setExtension, up]

/-- Cutting the extension leaves the stem and its dot. -/
theorem cutBytes_join (base : Path) (single : (Component.name name).IsStep)
    (cut : name.toList = stem ++ '.' :: ending) :
    (base.join ⟨name⟩).cutBytes (String.ofList ending).utf8ByteSize =
      base.join ⟨String.ofList (stem ++ ['.'])⟩ := by
  have whole : name = String.ofList (stem ++ ['.']) ++ String.ofList ending := by
    rw [← String.ofList_append, List.append_assoc, List.singleton_append, ← cut,
      String.ofList_toList]
  have bare := single.2
  rw [Component.text, whole, String.toList_append, List.mem_append, not_or] at bare
  rw [whole, join_append bare.1 bare.2, cutBytes_append]

end Path

/-! ### The path of an archive -/

namespace Archive

open FunctionBundler.Path

variable {base : Path} {name : String} {stem ending : List Char}

/-- The last component of the path of the archive of an executable of this name. -/
def componentFor (name : String) : Component :=
  match splitName name.toList with
  | (['.'], some _) => .parent
  | (stem, _) => .name (String.ofList stem ++ ".zip")

private theorem componentFor_of_split {extension : Option (List Char)}
    (same : splitName name.toList = (stem, extension)) (keeps : extension = none ∨ stem ≠ ['.']) :
    componentFor name = .name (String.ofList stem ++ ".zip") := by
  rw [componentFor, same]
  split
  case h_1 other =>
      cases other
      exact keeps.elim nofun (absurd rfl)
  case h_2 other =>
      cases other
      rfl

/-- The archive of an executable without an extension is called like it, with `.zip` after it. -/
theorem componentFor_of_bare (bare : (splitName name.toList).2 = none) :
    componentFor name = .name (name ++ ".zip") := by
  rcases splitName_cases name.toList with same | ⟨stem, ending, -, -, -, same⟩
  · rw [componentFor_of_split same (Or.inl rfl), String.ofList_toList]
  · rw [same] at bare
    cases bare

/-- The stem of a single component is one, too. -/
theorem not_mem_stem (single : (Component.name name).IsStep)
    (cut : name.toList = stem ++ '.' :: ending) : '/' ∉ stem := by
  have bare := single.2
  rw [Component.text, cut] at bare
  exact fun member => bare (List.mem_append_left _ member)

/-- Text after which a dot and more is written is the name of a file. -/
theorem isStep_name_dot {more : List Char} (bare : '/' ∉ stem) (begins : stem ≠ [])
    (differs : stem ≠ ['.']) (bareMore : '/' ∉ more) :
    (Component.name (String.ofList (stem ++ '.' :: more))).IsStep := by
  rw [Component.IsStep, Component.text, String.toList_ofList]
  constructor
  · unfold Component.ofPiece?
    split
    case h_1 none | h_2 none | h_3 none =>
        -- What is longer than the two dots is none of these.
        rcases stem with _ | ⟨c, _ | _⟩
        · exact absurd rfl begins
        · simp_all
        · simp at none
    case h_4 => rfl
  · intro member
    rcases List.mem_append.mp member with inStem | inMore
    · exact bare inStem
    · exact (List.mem_cons.mp inMore).elim (by decide) bareMore

private theorem isStep_name_zip (bare : '/' ∉ stem) (begins : stem ≠ []) (differs : stem ≠ ['.']) :
    (Component.name (String.ofList stem ++ ".zip")).IsStep := by
  have bareZip : '/' ∉ "zip".toList := by decide
  have step := isStep_name_dot bare begins differs bareZip
  rwa [String.ofList_append] at step

/-- A single name makes a step. -/
theorem isStep_componentFor (single : (Component.name name).IsStep) :
    (componentFor name).IsStep := by
  rcases splitName_cases name.toList with same | ⟨stem, ending, cut, begins, -, same⟩
  · rw [componentFor_of_split same (Or.inl rfl)]
    exact isStep_name_zip single.2 single.text_ne_nil single.text_ne_dot
  · by_cases dot : stem = ['.']
    · rw [componentFor, same, dot]
      exact Component.isStep_parent
    · rw [componentFor_of_split same (Or.inr dot)]
      exact isStep_name_zip (not_mem_stem single cut) begins dot

/-- The archive of an executable is in the executable's directory, or is the one above it. -/
theorem pathFor_join (base : Path) (single : (Component.name name).IsStep) :
    pathFor (base.join ⟨name⟩) = base.join ⟨(componentFor name).text⟩ := by
  have written {stem : List Char} (named : (Component.name (String.ofList stem ++ ".zip")).IsStep) :
      base.join ⟨(Component.name (String.ofList stem ++ ".zip")).text⟩ =
        ofPieces (base.directoryPieces ++ [stem ++ '.' :: "zip".toList]) := by
    rw [join_eq_ofPieces base named.2, Component.text, String.toList_append, String.toList_ofList]
    rfl
  have isStep := isStep_componentFor single
  rw [pathFor, withExtension, extension?_join base single]
  rcases splitName_cases name.toList with same | ⟨stem, ending, cut, begins, bare, same⟩
  · have called := componentFor_of_split same (Or.inl rfl)
    rw [called] at isStep ⊢
    rw [same, written isStep]
    change (Path.cutBytes _ 0).setExtension "zip" = _
    rw [cutBytes_zero, setExtension_join base single, same]
  · rw [same]
    change (Path.cutBytes _ (String.ofList ending).utf8ByteSize).setExtension "zip" = _
    rw [cutBytes_join base single cut]
    by_cases dot : stem = ['.']
    · rw [componentFor, same, dot]
      exact setExtension_parent base "zip"
    · have called := componentFor_of_split same (Or.inr dot)
      have named := isStep_name_dot (not_mem_stem single cut) begins dot List.not_mem_nil
      rw [called] at isStep ⊢
      rw [setExtension_join base named, String.toList_ofList,
        splitName_of_dot List.not_mem_nil begins, written isStep]

/-- Only for an executable without an extension, the path of the archive is that of the executable
with `.zip` after it. -/
theorem pathFor_eq_append_iff (base : Path) (single : (Component.name name).IsStep) :
    pathFor (base.join ⟨name⟩) = ⟨(base.join ⟨name⟩).text ++ ".zip"⟩ ↔
      (base.join ⟨name⟩).extension? = none := by
  have bare : '/' ∉ name.toList := single.2
  have zipped : (Component.name (name ++ ".zip")).IsStep := by
    have step := isStep_name_zip bare single.text_ne_nil single.text_ne_dot
    rwa [String.ofList_toList] at step
  have added : base.join ⟨(Component.name (name ++ ".zip")).text⟩ =
      ⟨(base.join ⟨name⟩).text ++ ".zip"⟩ := join_append bare (by decide)
  rw [← added, pathFor_join base single, extension?_join base single, Option.map_eq_none_iff]
  constructor
  · intro same
    have components := congrArg Path.components same
    rw [components_join base (isStep_componentFor single),
      components_join base zipped] at components
    have called := List.singleton_inj.mp (List.append_cancel_left components)
    rcases splitName_cases name.toList with bare | ⟨stem, ending, cut, -, -, split⟩
    · rw [bare]
    · by_cases dot : stem = ['.']
      · rw [componentFor, split, dot] at called
        cases called
      · rw [componentFor_of_split split (Or.inr dot)] at called
        have texts := congrArg String.toList (Component.name.inj called)
        rw [String.toList_append, String.toList_append, String.toList_ofList, cut] at texts
        have lengths := congrArg List.length (List.append_cancel_right texts)
        rw [List.length_append, List.length_cons] at lengths
        omega
  · intro bare
    rw [componentFor_of_bare bare]

end Archive

end FunctionBundler
