import Recast.Number.Binary64
import Recast.Text.Basic

/-!
# Shortest decimal text

`Binary64.text` writes a number with the fewest digits that read back as the same number, and of
those with the ones nearest to it. The point stands in its place from `0.0001` up to sixteen digits;
other numbers have an exponent of at least two digits.
-/

namespace Recast

/-- The decimals between which a number `numerator · 10 ^ shift / denominator` lies are candidates
for its text. -/
structure Candidate where
  digits : Nat
  exponent : Int

/-- The number of digits before the point of a positive fraction, or how many zeros come after the
point, negative. -/
def pointPosition (numerator denominator : Nat) : Int :=
  if denominator ≤ numerator then decimalSize (numerator / denominator)
  else search 400 0 numerator
where
  /-- Multiplies by ten until the fraction has one digit before the point. -/
  search : Nat → Nat → Nat → Int
    | 0, zeros, _ => -(zeros : Int)
    | fuel + 1, zeros, n =>
      if denominator ≤ n * 10 then -(zeros : Int) else search fuel (zeros + 1) (n * 10)

/-- The decimal of `size` digits that lies between two bounds and is nearest to a number; the bounds
and the number are over one denominator. -/
def nearestOfSize (low value high denominator : Nat) (closed : Bool) (size : Nat) :
    Option Candidate :=
  let exponent := pointPosition value denominator - size
  let up := Nat.pow 10 (-exponent).toNat
  let unit := denominator * Nat.pow 10 exponent.toNat
  let below := value * up / unit
  let fits (digits : Nat) : Bool :=
    if closed then low * up ≤ digits * unit && digits * unit ≤ high * up
    else low * up < digits * unit && digits * unit < high * up
  let down := value * up - below * unit
  let rise := (below + 1) * unit - value * up
  if fits below && (!fits (below + 1) || down < rise || (down == rise && below % 2 == 0)) then
    some ⟨below, exponent⟩
  else if fits (below + 1) then some ⟨below + 1, exponent⟩
  else none

/-- The shortest decimal that reads back as `significand · 2 ^ exponent`. -/
def shortestDecimal (significand : Nat) (exponent : Int) : Candidate :=
  let factor := Nat.pow 2 (exponent - 2).toNat
  let denominator := Nat.pow 2 (2 - exponent).toNat
  let value := 4 * significand * factor
  let gap := if significand = Nat.pow 2 52 && -1074 < exponent then 1 else 2
  let low := (4 * significand - gap) * factor
  let high := (4 * significand + 2) * factor
  ((List.range 17).findSome? fun size =>
    nearestOfSize low value high denominator (significand % 2 == 0) (size + 1)).getD ⟨0, 0⟩

/-- Zeros at the end do not count. -/
def dropEndZeros (digits : Text) : Text :=
  dropEndWhile (· == '0') digits

/-- Digits with the decimal point after `point` of them. -/
def placePoint (digits : Text) (point : Int) : Text :=
  if point ≤ 0 then "0.".toList ++ List.replicate (-point).toNat '0' ++ digits
  else if digits.length ≤ point.toNat then
    digits ++ List.replicate (point.toNat - digits.length) '0' ++ ".0".toList
  else digits.take point.toNat ++ ".".toList ++ digits.drop point.toNat

/-- Digits with an exponent of ten. -/
def placeExponent (digits : Text) (exponent : Int) : Text :=
  let size := showNat exponent.natAbs
  digits.take 1 ++ (if digits.length = 1 then [] else ".".toList ++ digits.drop 1)
    ++ (if exponent < 0 then "e-".toList else "e+".toList)
    ++ (if size.length = 1 then '0' :: size else size)

/-- A number as text. -/
def Binary64.text : Binary64 → Text
  | .nan => "nan".toList
  | .infinite negative => if negative then "-inf".toList else "inf".toList
  | .finite negative significand exponent =>
    let sign := if negative then "-".toList else []
    if significand = 0 then sign ++ "0.0".toList
    else
      let decimal := shortestDecimal significand exponent
      let digits := showNat decimal.digits
      let point := digits.length + decimal.exponent
      let digits := dropEndZeros digits
      sign ++ (if -4 < point && point ≤ 16 then placePoint digits point
        else placeExponent digits (point - 1))

end Recast
