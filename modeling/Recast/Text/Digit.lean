import Recast.Text.Runs

/-!
# Decimal digits

`isDigit` holds of the decimal digits of every script, and `digitValue?` gives the number a digit
stands for.
-/

namespace Recast

/-- The decimal digits beyond ASCII. Every run starts at a zero and goes through the digits in
order. -/
def digitRuns : List Nat :=
  [1504, 10, 134, 10, 198, 10, 412, 10, 118, 10, 118, 10, 118, 10, 118, 10, 118, 10, 118, 10, 118,
   10, 118, 10, 118, 10, 96, 10, 118, 10, 70, 10, 278, 10, 70, 10, 1862, 10, 38, 10, 300, 10, 128,
   10, 166, 10, 6, 10, 182, 10, 86, 10, 134, 10, 6, 10, 35270, 10, 678, 10, 38, 10, 198, 10, 22,
   10, 86, 10, 406, 10, 21270, 10, 1414, 10, 2182, 10, 812, 10, 128, 10, 60, 10, 144, 10, 278, 10,
   342, 10, 118, 10, 374, 10, 102, 10, 102, 10, 422, 10, 102, 10, 758, 10, 246, 10, 70, 10, 19638,
   10, 86, 10, 134, 10, 27764, 50, 2368, 10, 422, 10, 1622, 10, 4758, 10]

/-- The number that a decimal digit of any script stands for. -/
def digitValue? (c : Char) : Option Nat :=
  if '0' ≤ c && c ≤ '9' then some (c.toNat - '0'.toNat)
  else if 0x80 ≤ c.toNat then (runOffset? digitRuns (c.toNat - 0x80)).map (· % 10)
  else none

/-- A decimal digit of any script. -/
def isDigit (c : Char) : Bool :=
  (digitValue? c).isSome

end Recast
