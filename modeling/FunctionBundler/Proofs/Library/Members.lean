/-
Module: FunctionBundler.Proofs.Library.Members
Purpose: Sets of libraries are told apart by their members.
Trusted boundary: none
Main exports:
  LibrarySet.Below, LibrarySet.ext, LibrarySet.mem_loaders, LibrarySet.sorted_loaders
-/
import Mathlib.Data.List.Sort
import FunctionBundler.Library

namespace FunctionBundler

/-!
A set lists its libraries in path order, which is strict, so two sets with the same
members are the same list: what was added when, and how often, leaves no trace.
-/

namespace LibrarySet

/-- Path order, as far as sets are listed by it. -/
abbrev Below (first second : LibraryPath) : Prop :=
  first.compare second = .lt

/-- No library is below itself. -/
theorem not_below_self (library : LibraryPath) : ¬Below library library := by
  intro below
  rw [Below, LibraryPath.compare_eq_iff.mpr rfl] at below
  cases below

/-- No two libraries are below each other. -/
theorem not_below_swap {first second : LibraryPath} (below : Below first second) :
    ¬Below second first := by
  rw [Below, LibraryPath.compare_swap, show first.compare second = .lt from below]
  exact nofun

instance : Std.Irrefl Below where
  irrefl := not_below_self

instance : Std.Antisymm Below where
  antisymm _ _ below above := absurd above (not_below_swap below)

/-- Sets are told apart by their members. -/
theorem ext {first second : LibrarySet} (same : ∀ library, library ∈ first ↔ library ∈ second) :
    first = second := by
  obtain ⟨paths, sorted⟩ := first
  obtain ⟨others, otherSorted⟩ := second
  have inOrder : paths.Pairwise Below := sorted
  have equal : paths = others := inOrder.eq_of_mem_iff otherSorted same
  subst equal
  rfl

/-- Loaders are the libraries that are named as such. -/
@[simp] theorem mem_loaders {set : LibrarySet} {library : LibraryPath} :
    library ∈ set.loaders ↔ library ∈ set ∧ library.isLoader = true :=
  List.mem_filter

/-- Loaders are listed in order. -/
theorem sorted_loaders (set : LibrarySet) : set.loaders.Pairwise Below :=
  set.sorted.filter _

end LibrarySet

end FunctionBundler
