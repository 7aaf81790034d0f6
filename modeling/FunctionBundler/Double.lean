/-
Module: FunctionBundler.Double
Purpose: Rounding to double precision, and which numbers are too large for it.
Trusted boundary: none
Main exports:
  Double.bound, Double.nearest, Double.isFinite, Double.productIsFinite
-/

namespace FunctionBundler.Double

/-!
A double has 53 significant bits, and the numbers from `bound` on have no finite
double nearest to them.  Only sizes matter here, so a double above one is the
natural number that it is.
-/

/-- The numbers from here on round to infinity. -/
def bound : Nat := Nat.pow 2 1024 - Nat.pow 2 970

/-- The number with 53 significant bits that is nearest to a number; of two, the one whose last
significant bit is zero. -/
def nearest (n : Nat) : Nat :=
  let unit := Nat.pow 2 (n.log2 - 52)
  let whole := n / unit
  let rest := n % unit
  if 2 * rest < unit ∨ (2 * rest = unit ∧ whole % 2 = 0) then whole * unit
  else (whole + 1) * unit

/-- Whether digits, read as one number, times a power of ten are below the bound. -/
def isFinite (digits : Nat) (exponent : Int) : Bool :=
  let size := (Nat.toDigits 10 digits).length + exponent
  if digits = 0 ∨ size < 300 then true
  else if size > 320 then false
  else if exponent < 0 then digits < bound * Nat.pow 10 exponent.natAbs
  else digits * Nat.pow 10 exponent.natAbs < bound

/-- Whether digits and a power of ten that are rounded before they are multiplied have a finite
product.  No power of ten above 10³⁰⁸ is finite itself. -/
def productIsFinite (digits : Nat) (exponent : Int) : Bool :=
  digits = 0 || exponent < 0 ||
    (exponent ≤ 308 && nearest digits * nearest (Nat.pow 10 exponent.natAbs) < bound)

end FunctionBundler.Double
