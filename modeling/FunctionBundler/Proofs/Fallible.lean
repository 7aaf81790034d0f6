/-
Module: FunctionBundler.Proofs.Fallible
Purpose: What a fallible computation went through if it gave a value.
Trusted boundary: none
Main exports:
  bind_eq_ok_iff, bind_eq_error_iff, map_eq_ok_iff, map_eq_error_iff, exists_of_map_eq_ok,
  mapError_eq_ok_iff, mapError_eq_error_iff, exists_eq_ok_of_isOk, exists_eq_error_of_isOk
-/
namespace FunctionBundler

/-!
Readers, checks and packaging steps are chains of fallible steps.  Such a chain gives a value
only if each step does, so a success is taken apart from its first step on, and so is a
failure up to the step that fails.
-/

variable {ε α β : Type} {first : Except ε α} {result : β}

/-- Two steps succeed exactly if both do. -/
theorem bind_eq_ok_iff {next : α → Except ε β} :
    first >>= next = .ok result ↔ ∃ value, first = .ok value ∧ next value = .ok result := by
  cases first with
  | error fault => simp [bind, Except.bind]
  | ok value => simp [bind, Except.bind]

/-- A chain fails where its first step fails, or later. -/
theorem bind_eq_error_iff {next : α → Except ε β} {fault : ε} :
    first >>= next = .error fault ↔
      first = .error fault ∨ ∃ value, first = .ok value ∧ next value = .error fault := by
  cases first with
  | error other => simp [bind, Except.bind]
  | ok value => simp [bind, Except.bind]

/-- A mapped result is a success exactly if the result was. -/
theorem map_eq_ok_iff {f : α → β} :
    first.map f = .ok result ↔ ∃ value, first = .ok value ∧ f value = result := by
  cases first with
  | error fault => simp [Except.map]
  | ok value => simp [Except.map]

/-- Mapping keeps faults as they are. -/
theorem map_eq_error_iff {f : α → β} {fault : ε} :
    first.map f = .error fault ↔ first = .error fault := by
  cases first with
  | error other =>
      change Except.error other = .error fault ↔ _
      rw [Except.error.injEq, Except.error.injEq]
  | ok value => exact ⟨nofun, nofun⟩

/-- What a mapped success was before. -/
theorem exists_of_map_eq_ok {f : α → β} (same : Except.ok result = first.map f) :
    ∃ value, first = .ok value ∧ result = f value := by
  obtain ⟨value, found, rfl⟩ := map_eq_ok_iff.mp same.symm
  exact ⟨value, found, rfl⟩

/-- Blaming a fault on something keeps successes as they are. -/
theorem mapError_eq_ok_iff {φ : Type} {blame : ε → φ} {value : α} :
    first.mapError blame = .ok value ↔ first = .ok value := by
  cases first with
  | error fault => exact ⟨nofun, nofun⟩
  | ok other =>
      change Except.ok other = .ok value ↔ _
      rw [Except.ok.injEq, Except.ok.injEq]

/-- A blamed fault has a cause. -/
theorem mapError_eq_error_iff {φ : Type} {blame : ε → φ} {fault : φ} :
    first.mapError blame = .error fault ↔ ∃ cause, first = .error cause ∧ blame cause = fault := by
  cases first with
  | error cause =>
      change Except.error (blame cause) = .error fault ↔ _
      simp
  | ok value =>
      constructor
      · nofun
      · rintro ⟨cause, ⟨⟩, -⟩

/-- A computation that can be run to its end gives a value if the run says so. -/
theorem exists_eq_ok_of_isOk (succeeds : first.isOk = true) : ∃ value, first = .ok value := by
  cases first with
  | error fault => cases succeeds
  | ok value => exact ⟨value, rfl⟩

/-- A computation that can be run to its end has a fault if the run says that there is no value. -/
theorem exists_eq_error_of_isOk (fails : first.isOk = false) : ∃ fault, first = .error fault := by
  cases first with
  | error fault => exact ⟨fault, rfl⟩
  | ok value => cases fails

end FunctionBundler
