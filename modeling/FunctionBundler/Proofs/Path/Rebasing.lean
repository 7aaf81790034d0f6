/-
Module: FunctionBundler.Proofs.Path.Rebasing
Purpose: What is left of a path behind an absolute base, and what it means behind another one.
Trusted boundary: none
Main exports:
  Path.body, Path.StepsOnly, Path.components_join_of_stepsOnly, Path.exists_stripBase?_iff,
  Path.stepsOnly_of_stripBase?, Path.components_of_stripBase?
-/
import FunctionBundler.Proofs.Path.Pieces
import FunctionBundler.Proofs.Path.Siblings

namespace FunctionBundler

/-!
Bases are compared by components and cut off by pieces.  Idle pieces in between stand for
no component, so both say the same: a base can be cut off exactly if its components begin
those of the path, and what is left means the components behind them.  What is left
begins with neither a separator nor `.`, so it can be put behind any base.
-/

namespace Component.IsStep

variable {c : Component} (step : c.IsStep)
include step

theorem ne_root : c ≠ .root := by
  rintro rfl
  exact step.text_ne_nil rfl

private theorem ne_current : c ≠ .current := by
  rintro rfl
  exact step.text_ne_dot rfl

end Component.IsStep

namespace Path

variable {path base rest : Path} {parts : List (List Char)}

/-- The components of a path without the root or the leading `.` that it begins with. -/
def body (path : Path) : List Component :=
  path.piecesOf.filterMap Component.ofPiece?

/-- The components of an absolute path are the root and its body. -/
theorem components_of_isAbsolute (absolute : path.isAbsolute = true) :
    path.components = .root :: path.body :=
  if_pos absolute

/-- A path of steps alone: it begins with neither the root nor `.`. -/
def StepsOnly (path : Path) : Prop :=
  ∀ c ∈ path.components, c.IsStep

namespace StepsOnly

variable (steps : path.StepsOnly)
include steps

theorem isAbsolute_eq_false : path.isAbsolute = false := by
  rw [← Bool.not_eq_true]
  intro absolute
  rw [StepsOnly, components_of_isAbsolute absolute] at steps
  exact (steps _ List.mem_cons_self).ne_root rfl

private theorem components_eq_body : path.components = path.body := by
  have relative := steps.isAbsolute_eq_false
  rw [StepsOnly, components, relative, if_neg Bool.false_ne_true] at steps
  rw [components, relative, if_neg Bool.false_ne_true]
  split
  case isTrue dot =>
      rw [if_pos dot] at steps
      exact absurd rfl (steps _ List.mem_cons_self).ne_current
  case isFalse => rfl

end StepsOnly

/-! ### Behind a base -/

/-- What is joined to an absolute path is absolute. -/
theorem isAbsolute_join_of_isAbsolute (absolute : base.isAbsolute = true) (path : Path) :
    (base.join path).isAbsolute = true := by
  rw [isAbsolute, decide_eq_true_iff] at absolute
  obtain ⟨others, begins⟩ := List.head?_eq_some_iff.mp absolute
  rw [join]
  split
  case isTrue also => exact also
  case isFalse =>
      rw [isAbsolute, decide_eq_true_iff]
      split <;> simp only [chars, String.toList_append, List.append_assoc] <;>
        rw [← chars, begins] <;> rfl

/-- Steps that are joined to an absolute path come behind its components. -/
theorem components_join_of_stepsOnly (absolute : base.isAbsolute = true)
    (steps : rest.StepsOnly) :
    (base.join rest).components = base.components ++ rest.components := by
  have relative := steps.isAbsolute_eq_false
  rw [components_of_isAbsolute (isAbsolute_join_of_isAbsolute absolute rest),
    components_of_isAbsolute absolute, steps.components_eq_body, body,
    piecesOf_join_of_relative base relative, List.filterMap_append, filterMap_directoryPieces]
  rfl

/-! ### Without a base -/

private theorem filterMap_dropWhile_isIdle (parts : List (List Char)) :
    (parts.dropWhile isIdle).filterMap Component.ofPiece? =
      parts.filterMap Component.ofPiece? := by
  induction parts with
  | nil => rfl
  | cons piece parts ih =>
      rw [List.dropWhile_cons]
      split
      case isTrue idle => rw [ih, List.filterMap_cons_none (ofPiece?_eq_none_iff.mpr idle)]
      case isFalse => rfl

private theorem filterMap_trimPieces (parts : List (List Char)) :
    (trimPieces parts).filterMap Component.ofPiece? = parts.filterMap Component.ofPiece? := by
  rw [trimPieces, List.filterMap_reverse, filterMap_dropWhile_isIdle, List.filterMap_reverse,
    List.reverse_reverse]

/-- Components are dropped one by one, whatever idle pieces stand between them. -/
theorem filterMap_dropComponents (count : Nat) (parts : List (List Char)) :
    (dropComponents count parts).filterMap Component.ofPiece? =
      (parts.filterMap Component.ofPiece?).drop count := by
  fun_induction dropComponents count parts with
  | case1 parts => rfl
  | case2 => exact List.drop_nil.symm
  | case3 count piece parts idle ih =>
      rw [ih, List.filterMap_cons_none (ofPiece?_eq_none_iff.mpr idle)]
  | case4 count piece parts stands ih =>
      obtain ⟨c, read⟩ : ∃ c, Component.ofPiece? piece = some c := by
        rw [← Option.ne_none_iff_exists']
        exact fun nothing => stands (ofPiece?_eq_none_iff.mp nothing)
      rw [ih, List.filterMap_cons_some read, List.drop_succ_cons]

private theorem subset_dropComponents (count : Nat) (parts : List (List Char)) :
    dropComponents count parts ⊆ parts := by
  fun_induction dropComponents count parts with
  | case1 parts => exact List.Subset.refl parts
  | case2 => exact List.Subset.refl []
  | case3 count piece parts idle ih => exact List.subset_cons_of_subset piece ih
  | case4 count piece parts stands ih => exact List.subset_cons_of_subset piece ih

private theorem trimPieces_prefix (parts : List (List Char)) : trimPieces parts <+: parts := by
  rw [trimPieces, ← List.reverse_suffix, List.reverse_reverse]
  exact List.dropWhile_suffix _

/-- Pieces without the idle ones around them, as a path, mean what they stand for. -/
theorem components_ofPieces_trim (bare : ∀ part ∈ parts, '/' ∉ part) :
    (ofPieces (trimPieces (parts.dropWhile isIdle))).components =
      parts.filterMap Component.ofPiece? := by
  have begins := trimPieces_prefix (parts.dropWhile isIdle)
  have meaning := filterMap_trimPieces (parts.dropWhile isIdle)
  rw [filterMap_dropWhile_isIdle] at meaning
  rw [← meaning]
  cases same : trimPieces (parts.dropWhile isIdle) with
  | nil => rfl
  | cons first others =>
      rw [same] at begins
      have bareAll : ∀ part ∈ first :: others, '/' ∉ part := fun part member =>
        bare part ((List.dropWhile_sublist isIdle).subset (begins.subset member))
      have stands : isIdle first = false := by
        obtain ⟨more, whole⟩ := begins
        have head := List.head?_dropWhile_not isIdle parts
        rw [← whole] at head
        simpa using head
      rw [isIdle, decide_eq_false_iff_not, not_or] at stands
      have absolute : (ofPieces (first :: others)).isAbsolute = false :=
        isAbsolute_ofPieces stands.1 (bareAll first List.mem_cons_self)
      have starts : ¬(first :: others).head? = some ['.'] :=
        fun dot => stands.2 (Option.some.inj dot)
      rw [components, absolute, if_neg Bool.false_ne_true,
        piecesOf_ofPieces (List.cons_ne_nil _ _) bareAll, if_neg starts]

/-- Only an absolute path begins with the components of one. -/
theorem isAbsolute_of_prefix (absolute : base.isAbsolute = true)
    (begins : base.components <+: path.components) : path.isAbsolute = true := by
  cases also : path.isAbsolute with
  | true => rfl
  | false =>
      rw [components_of_isAbsolute absolute, components, also, if_neg Bool.false_ne_true] at begins
      split at begins
      case isTrue => exact Component.noConfusion (List.cons_prefix_cons.mp begins).1
      case isFalse =>
          exact absurd rfl (isStep_of_mem_body (begins.subset List.mem_cons_self)).ne_root

/-- What is left of an absolute path behind its root and `count` components. -/
def behind (path : Path) (count : Nat) : Path :=
  ofPieces (trimPieces ((dropComponents count path.piecesOf.tail).dropWhile isIdle))

private theorem components_behind (absolute : path.isAbsolute = true) (count : Nat) :
    (path.behind count).components = path.body.drop count := by
  have bare : ∀ part ∈ dropComponents count path.piecesOf.tail, '/' ∉ part := fun part member =>
    Text.separator_not_mem_piece (List.mem_of_mem_tail (subset_dropComponents _ _ member))
  have rootless : path.piecesOf.tail.filterMap Component.ofPiece? = path.body := by
    rw [body]
    cases cut : path.piecesOf with
    | nil => rfl
    | cons first others =>
        rw [eq_nil_of_isAbsolute cut absolute]
        rfl
  rw [behind, components_ofPieces_trim bare, filterMap_dropComponents, rootless]

private theorem stripBase?_of_isAbsolute (absolute : base.isAbsolute = true) :
    path.stripBase? base =
      if base.components <+: path.components then some (path.behind base.body.length)
      else none := by
  rw [stripBase?, components_of_isAbsolute absolute]
  simp only [List.isPrefixOf_iff_prefix]
  rfl

/-- A base can be cut off exactly if its components begin those of the path. -/
theorem exists_stripBase?_iff (absolute : base.isAbsolute = true) :
    (∃ rest, path.stripBase? base = some rest) ↔ base.components <+: path.components := by
  rw [stripBase?_of_isAbsolute absolute]
  split <;> simp_all

section

variable (absolute : base.isAbsolute = true) (found : path.stripBase? base = some rest)
include absolute found

private theorem eq_behind_of_stripBase? :
    base.components <+: path.components ∧ rest = path.behind base.body.length := by
  have begins := (exists_stripBase?_iff absolute).mp ⟨rest, found⟩
  rw [stripBase?_of_isAbsolute absolute, if_pos begins] at found
  exact ⟨begins, (Option.some.inj found).symm⟩

/-- What is left of a path behind a base means the components behind those of the base. -/
theorem components_of_stripBase? : path.components = base.components ++ rest.components := by
  obtain ⟨begins, rfl⟩ := eq_behind_of_stripBase? absolute found
  have also := isAbsolute_of_prefix absolute begins
  obtain ⟨others, same⟩ := begins
  rw [components_of_isAbsolute absolute, components_of_isAbsolute also] at same ⊢
  have rests : path.body = base.body ++ others := (List.cons.inj same).2.symm
  rw [components_behind also, rests, List.drop_left]
  rfl

/-- What is left of a path behind a base begins with neither the root nor `.`. -/
theorem stepsOnly_of_stripBase? : rest.StepsOnly := by
  obtain ⟨begins, rfl⟩ := eq_behind_of_stripBase? absolute found
  have also := isAbsolute_of_prefix absolute begins
  intro c member
  rw [components_behind also] at member
  exact isStep_of_mem_body (List.mem_of_mem_drop member)

end

end Path

end FunctionBundler
