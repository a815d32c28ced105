/-!
# Binary numbers of 64 bits

`Binary64` is a finite number `significand · 2 ^ exponent` with a sign, an infinity or no number at
all. `Binary64.ofDecimal` rounds a decimal number to the nearest one; of two equally near ones it
takes the one with the even significand.
-/

namespace Recast

/-- A floating-point number. -/
inductive Binary64 where
  | finite (negative : Bool) (significand : Nat) (exponent : Int)
  | infinite (negative : Bool)
  | nan
  deriving DecidableEq, Repr

/-- The quotient rounded to the nearest number, a half to the even neighbour. -/
def roundDiv (numerator denominator : Nat) : Nat :=
  let quotient := numerator / denominator
  let twice := 2 * (numerator % denominator)
  if twice < denominator then quotient
  else if denominator < twice then quotient + 1
  else quotient + quotient % 2

/-- The number of decimal digits. -/
def decimalSize (n : Nat) : Nat :=
  (Nat.toDigits 10 n).length

/-- A fraction divided by a power of two, as a fraction. -/
def scaleByTwo (numerator denominator : Nat) (exponent : Int) : Nat × Nat :=
  if 0 ≤ exponent then (numerator, denominator * Nat.pow 2 exponent.toNat)
  else (numerator * Nat.pow 2 (-exponent).toNat, denominator)

/-- The nearest number to a positive fraction. -/
def Binary64.ofFraction (negative : Bool) (numerator denominator : Nat) : Binary64 :=
  let guess : Int := (Nat.log2 numerator : Int) - Nat.log2 denominator - 53
  let (n, d) := scaleByTwo numerator denominator guess
  let exponent := max (if n / d < Nat.pow 2 53 then guess else guess + 1) (-1074)
  let (n, d) := scaleByTwo numerator denominator exponent
  let rounded := roundDiv n d
  let (significand, exponent) :=
    if rounded = Nat.pow 2 53 then (Nat.pow 2 52, exponent + 1) else (rounded, exponent)
  if 971 < exponent then .infinite negative else .finite negative significand exponent

/-- The nearest number to `digits · 10 ^ exponent`. -/
def Binary64.ofDecimal (negative : Bool) (digits : Nat) (exponent : Int) : Binary64 :=
  let size : Int := decimalSize digits + exponent
  if digits = 0 || size < -330 then .finite negative 0 0
  else if 310 < size then .infinite negative
  else if 0 ≤ exponent then .ofFraction negative (digits * Nat.pow 10 exponent.toNat) 1
  else .ofFraction negative digits (Nat.pow 10 (-exponent).toNat)

end Recast
