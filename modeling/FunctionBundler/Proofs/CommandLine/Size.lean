/-
Module: FunctionBundler.Proofs.CommandLine.Size
Purpose: How much of a number of bytes the console shows.
Trusted boundary: none
Main exports:
  Size.level, Size.unit, Size.tenths, Size.scale_units, Size.text_spec, Size.text_loses_tenth
-/
import FunctionBundler.CommandLine.Console
import Mathlib.Data.Nat.Find
import Mathlib.Tactic.Ring
import Mathlib.Tactic.Linarith

namespace FunctionBundler.Size

/-!
A count is divided by 1024 until the next division would leave less than one of the unit,
and each division drops a remainder.  What is left is cut to tenths once more.  So the
tenths shown are those of the exact quotient, or one less where the remainders dropped
would have made up the missing part of a tenth.  In the smallest unit nothing is dropped.
-/

/-- The place in the list of units of the largest one that does not exceed a count. -/
def level (bytes : Nat) : Nat :=
  Nat.findGreatest (fun place => 1024 ^ (place + 1) ≤ bytes) (units.length - 1)

/-- The largest unit that does not exceed a count, in bytes. -/
def unit (bytes : Nat) : Nat := 1024 ^ (level bytes + 1)

/-- How many tenths of its unit a count is said to be. -/
def tenths (bytes : Nat) : Nat := bytes / 1024 ^ level bytes * 10 / 1024

/-- A number of tenths as a decimal fraction of a unit. -/
def decimal (tenths : Nat) (unit : String) : String := s!"{tenths / 10}.{tenths % 10} {unit}"

/-! ### The unit -/

variable {bytes : Nat}

/-- So many units are passed as do not exceed the count, but the last one is not passed. -/
theorem scale_eq {units : List String} {whole : Nat} (listed : units ≠ []) :
    ∃ (passed : Nat) (inside : passed < units.length),
      scale units whole = (whole / 1024 ^ passed, units[passed]) ∧
      (passed ≠ 0 → 1024 ^ (passed + 1) ≤ whole) ∧
      (passed + 1 < units.length → whole < 1024 ^ (passed + 2)) := by
  fun_induction scale units whole with
  | case1 whole => exact absurd rfl listed
  | case2 whole last => exact ⟨0, Nat.one_pos, by simp, by simp, by simp⟩
  | case3 whole unit larger nonempty enough ih =>
      obtain ⟨passed, inside, scaled, reached, below⟩ := ih nonempty
      refine ⟨passed + 1, Nat.succ_lt_succ inside, ?_, fun _ => ?_, fun more => ?_⟩
      · rw [scaled, Nat.div_div_eq_div_mul, ← Nat.pow_succ', List.getElem_cons_succ]
      · by_cases first : passed = 0
        · subst first
          exact enough
        · rw [Nat.pow_succ]
          exact (Nat.le_div_iff_mul_le (by decide)).mp (reached first)
      · rw [Nat.pow_succ]
        exact (Nat.div_lt_iff_lt_mul (by decide)).mp (below (Nat.lt_of_succ_lt_succ more))
  | case4 whole unit larger nonempty few =>
      exact ⟨0, Nat.succ_pos _, by simp, by simp, fun _ => Nat.lt_of_not_le few⟩

private theorem level_lt (bytes : Nat) : level bytes < units.length :=
  Nat.lt_succ_of_le (Nat.findGreatest_le _)

private theorem le_level {place : Nat} (listed : place < units.length)
    (reached : 1024 ^ (place + 1) ≤ bytes) : place ≤ level bytes :=
  Nat.le_findGreatest (Nat.le_of_lt_succ listed) reached

private theorem unit_le (large : 1024 ≤ bytes) : unit bytes ≤ bytes := by
  have smallest : 1024 ^ (0 + 1) ≤ bytes := by rwa [Nat.zero_add, Nat.pow_one]
  exact Nat.findGreatest_spec (P := fun place => 1024 ^ (place + 1) ≤ bytes)
    (Nat.zero_le (units.length - 1)) smallest

/-- Scaling gives the largest unit that fits, and how many of the next smaller there are. -/
theorem scale_units (bytes : Nat) :
    scale units bytes = (bytes / 1024 ^ level bytes, units.get ⟨level bytes, level_lt bytes⟩) := by
  obtain ⟨passed, inside, scaled, reached, below⟩ := @scale_eq units bytes (by decide)
  have same : level bytes = passed := by
    refine Nat.findGreatest_eq_iff.mpr
      ⟨Nat.le_of_lt_succ inside, reached, fun place more last => ?_⟩
    have short := below (Nat.lt_of_le_of_lt more (Nat.lt_succ_of_le last))
    exact Nat.not_le_of_lt (Nat.lt_of_lt_of_le short
      (Nat.pow_le_pow_right (by decide) (Nat.succ_le_succ more)))
  simp only [scaled, same, List.get_eq_getElem]

private theorem text_eq (large : 1024 ≤ bytes) :
    text bytes = decimal (tenths bytes) (units.get ⟨level bytes, level_lt bytes⟩) := by
  rw [text, if_neg (Nat.not_lt_of_le large), scale_units]
  rfl

private theorem lt_unit {other : Nat} (passed : level bytes < level other) :
    bytes < unit other := by
  refine Nat.lt_of_not_le fun reached => Nat.not_lt_of_le ?_ passed
  exact le_level (level_lt other) reached

private theorem level_mono {other : Nat} (more : bytes ≤ other) : level bytes ≤ level other :=
  Nat.findGreatest_mono_left (fun _ reached => Nat.le_trans reached more) _

/-- What is left after the divisions has room for one more digit. -/
theorem whole_mul_lt (word : bytes < 2 ^ 64) : bytes / 1024 ^ level bytes * 10 < 2 ^ 64 := by
  rcases Nat.lt_or_ge (level bytes + 1) units.length with more | last
  · have below : bytes < 1024 ^ 2 * 1024 ^ level bytes := by
      rw [← Nat.pow_add, Nat.add_comm]
      exact Nat.lt_of_not_le fun reached => Nat.lt_irrefl _ (le_level more reached)
    have small := (Nat.div_lt_iff_lt_mul (Nat.pow_pos (by decide))).mpr below
    omega
  · have largest : level bytes = 2 := Nat.le_antisymm (Nat.le_of_lt_succ (level_lt bytes))
      (Nat.le_of_succ_le_succ last)
    rw [largest]
    omega

/-! ### The tenths -/

/-- What is not shown of a count, in tenths of a byte: the remainder of the tenths and those of the
divisions. -/
def dropped (bytes : Nat) : Nat :=
  bytes / 1024 ^ level bytes * 10 % 1024 * 1024 ^ level bytes + bytes % 1024 ^ level bytes * 10

private theorem mul_ten_eq (bytes : Nat) :
    bytes * 10 = tenths bytes * unit bytes + dropped bytes := by
  have whole := Nat.div_add_mod bytes (1024 ^ level bytes)
  have cut := Nat.div_add_mod (bytes / 1024 ^ level bytes * 10) 1024
  rw [dropped, tenths, unit, Nat.pow_succ]
  generalize 1024 ^ level bytes = part at *
  calc
    bytes * 10 = part * (bytes / part * 10) + bytes % part * 10 := by
      rw [← Nat.mul_assoc, ← Nat.add_mul, whole]
    _ = part * (1024 * (bytes / part * 10 / 1024) + bytes / part * 10 % 1024) +
        bytes % part * 10 := by rw [cut]
    _ = _ := by ring

/-- Less than a tenth of the unit is dropped, and the part of a thousandth that 8 of 10240 make. -/
theorem dropped_lt (bytes : Nat) : dropped bytes < unit bytes + 8 * 1024 ^ level bytes := by
  have positive : 0 < 1024 ^ level bytes := Nat.pow_pos (by decide)
  have remainder := Nat.mod_lt bytes positive
  have even : bytes / 1024 ^ level bytes * 10 % 1024 ≤ 1022 := by omega
  have cut := Nat.mul_le_mul_right (1024 ^ level bytes) even
  rw [dropped, unit, Nat.pow_succ]
  omega

private theorem dropped_lt_unit_of_level (smallest : level bytes = 0) :
    dropped bytes < unit bytes := by
  rw [dropped, unit, smallest]
  omega

private theorem exact_eq (bytes : Nat) :
    bytes * 10 / unit bytes = tenths bytes + dropped bytes / unit bytes := by
  rw [mul_ten_eq, Nat.mul_comm]
  exact Nat.mul_add_div (Nat.pow_pos (by decide)) _ _

private theorem dropped_div_unit_le (bytes : Nat) : dropped bytes / unit bytes ≤ 1 := by
  have short := dropped_lt bytes
  have whole : unit bytes = 1024 ^ level bytes * 1024 := Nat.pow_succ _ _
  refine Nat.le_of_lt_succ ((Nat.div_lt_iff_lt_mul (Nat.pow_pos (by decide))).mpr ?_)
  omega

private theorem exact_iff (bytes : Nat) :
    tenths bytes = bytes * 10 / unit bytes ↔ dropped bytes < unit bytes := by
  have positive : 0 < unit bytes := Nat.pow_pos (by decide)
  rw [exact_eq, eq_comm, Nat.add_eq_left, Nat.div_eq_zero_iff_lt positive]

private theorem ten_le_tenths (large : 1024 ≤ bytes) : 10 ≤ tenths bytes := by
  have reached := unit_le large
  rw [unit, Nat.pow_succ, Nat.mul_comm] at reached
  have whole := (Nat.le_div_iff_mul_le (Nat.pow_pos (by decide))).mpr reached
  rw [tenths]
  omega

/-- A larger count is not said to be less. -/
theorem shown_mono {other : Nat} (large : 1024 ≤ bytes) (more : bytes ≤ other) :
    tenths bytes * unit bytes ≤ tenths other * unit other := by
  rcases Nat.eq_or_lt_of_le (level_mono more) with same | passed
  · rw [tenths, tenths, unit, unit, same]
    refine Nat.mul_le_mul_right _ (Nat.div_le_div_right (Nat.mul_le_mul_right 10 ?_))
    exact Nat.div_le_div_right more
  · calc
      tenths bytes * unit bytes ≤ bytes * 10 := by
        rw [mul_ten_eq bytes]
        exact Nat.le_add_right _ _
      _ ≤ unit other * 10 := Nat.mul_le_mul_right 10 (Nat.le_of_lt (lt_unit passed))
      _ ≤ tenths other * unit other := by
        rw [Nat.mul_comm]
        exact Nat.mul_le_mul_right _ (ten_le_tenths (Nat.le_trans large more))

/-- What is shown of 1024 bytes or more: some tenths of the largest unit that does not exceed the
count, no number on the way there overflowing 64 bits.  They are those of the exact quotient or one
less, exact in the smallest unit and wherever the remainders dropped stay below a tenth; they do
not exceed the count, fall short of it by less than a tenth and 8 of 10240 parts of the unit, and do
not decrease as the count grows. -/
theorem text_spec (large : 1024 ≤ bytes) (word : bytes < 2 ^ 64) :
    text bytes = decimal (tenths bytes) (units.get ⟨level bytes, level_lt bytes⟩) ∧
      scale units bytes =
        (bytes / 1024 ^ level bytes, units.get ⟨level bytes, level_lt bytes⟩) ∧
      bytes / 1024 ^ level bytes * 10 < 2 ^ 64 ∧
      (unit bytes ≤ bytes ∧
        ∀ place < units.length, 1024 ^ (place + 1) ≤ bytes → 1024 ^ (place + 1) ≤ unit bytes) ∧
      (bytes * 10 / unit bytes = tenths bytes ∨ bytes * 10 / unit bytes = tenths bytes + 1) ∧
      (bytes * 10 / unit bytes = tenths bytes ↔ dropped bytes < unit bytes) ∧
      (level bytes = 0 → bytes * 10 / unit bytes = tenths bytes) ∧
      (tenths bytes * unit bytes ≤ bytes * 10 ∧
        bytes * 10 < (tenths bytes + 1) * unit bytes + 8 * 1024 ^ level bytes) ∧
      ∀ other, bytes ≤ other → tenths bytes * unit bytes ≤ tenths other * unit other := by
  have split := mul_ten_eq bytes
  have short := dropped_lt bytes
  refine ⟨text_eq large, scale_units bytes, whole_mul_lt word,
    ⟨unit_le large, fun place listed reached => ?_⟩, ?_, ?_, ?_, ⟨?_, ?_⟩,
    fun other => shown_mono large⟩
  · exact Nat.pow_le_pow_right (by decide) (Nat.succ_le_succ (le_level listed reached))
  · rw [exact_eq]
    rcases Nat.le_one_iff_eq_zero_or_eq_one.mp (dropped_div_unit_le bytes) with none | one
    · exact Or.inl (by rw [none, Nat.add_zero])
    · exact Or.inr (by rw [one])
  · rw [eq_comm, exact_iff]
  · exact fun smallest => ((exact_iff bytes).mpr (dropped_lt_unit_of_level smallest)).symm
  · omega
  · rw [Nat.add_one_mul]
    omega

/-- Of a count just above 1.1 MiB one MiB is shown, and 1.1 MiB once the divisions drop nothing. -/
theorem text_spec_above_tenth :
    1024 ≤ 1153434 ∧ 1153434 < 2 ^ 64 ∧ text 1153434 = "1.0 MiB" ∧ 1153434 ≤ 1154048 ∧
      tenths 1153434 * unit 1153434 ≤ tenths 1154048 * unit 1154048 ∧ tenths 1154048 = 11 := by
  obtain ⟨shown, -, -, -, -, -, -, -, mono⟩ := @text_spec 1153434 (by decide) (by decide)
  exact ⟨by decide, by decide, shown.trans (by decide +kernel), by decide, mono 1154048 (by decide),
    by decide +kernel⟩

/-- The exact quotient of that count is 1.1 MiB, of which more than a tenth is missing. -/
theorem text_loses_tenth :
    let bytes := 1153434
    1024 ≤ bytes ∧ bytes < 2 ^ 64 ∧
      decimal (bytes * 10 / unit bytes) (units.get ⟨level bytes, level_lt bytes⟩) = "1.1 MiB" ∧
      text bytes = "1.0 MiB" ∧ text bytes = decimal 10 "MiB" ∧
      10 * unit bytes + unit bytes < bytes * 10 := by
  decide +kernel

end FunctionBundler.Size
