import Recast.Number.Binary64

/-!
# Arithmetic of binary numbers

Sums and products are computed exactly and rounded once. What has no number is not a number: the
difference of two infinities, and an infinity times zero. A sum that is zero is positive, unless
both terms are negative zeros.
-/

namespace Recast.Binary64

/-- The number with the other sign. -/
def neg : Binary64 → Binary64
  | .finite negative significand exponent => .finite (!negative) significand exponent
  | .infinite negative => .infinite (!negative)
  | .nan => .nan

/-- The nearest number to `n · 2 ^ exponent`; `negative` is the sign of a zero. -/
def ofScaled (negative : Bool) (n : Nat) (exponent : Int) : Binary64 :=
  if n = 0 then .finite negative 0 0
  else .ofFraction negative (n * Nat.pow 2 exponent.toNat) (Nat.pow 2 (-exponent).toNat)

/-- A finite number over a power of two that is at most its own, as an integer. -/
def units (negative : Bool) (significand : Nat) (exponent least : Int) : Int :=
  let n : Int := (significand * Nat.pow 2 (exponent - least).toNat : Nat)
  if negative then -n else n

/-- The sum. -/
def add : Binary64 → Binary64 → Binary64
  | .finite a m e, .finite b n f =>
    let least := min e f
    let sum := units a m e least + units b n f least
    ofScaled (if sum = 0 then a && b else decide (sum < 0)) sum.natAbs least
  | .infinite a, .infinite b => if a = b then .infinite a else .nan
  | .infinite a, .finite .. => .infinite a
  | .finite .., .infinite b => .infinite b
  | .nan, _ => .nan
  | _, .nan => .nan

/-- The product. -/
def mul : Binary64 → Binary64 → Binary64
  | .finite a m e, .finite b n f => ofScaled (a != b) (m * n) (e + f)
  | .infinite a, .infinite b => .infinite (a != b)
  | .infinite a, .finite b n _ => if n = 0 then .nan else .infinite (a != b)
  | .finite a m _, .infinite b => if m = 0 then .nan else .infinite (a != b)
  | .nan, _ => .nan
  | _, .nan => .nan

/-- The nearest number to a whole number, unless that is beyond all of them. -/
def ofNat? (n : Nat) : Option Binary64 :=
  match ofScaled false n 0 with
  | .infinite _ => none
  | x => some x

end Recast.Binary64
