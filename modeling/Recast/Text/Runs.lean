/-!
# Run tables

A class of characters is written as the lengths of its alternating runs: how many code points are
outside, how many inside, and so on. `runOffset?` looks a number up in such a table; the tables of
this library that carry on from ASCII start at U+0080 (`beyondAscii`).
-/

namespace Recast

/-- How far into an inside run the number `n` falls, counted from the table's start. -/
def runOffset? : List Nat → Nat → Option Nat
  | outside :: inside :: rest, n =>
    if n < outside then none
    else if n < outside + inside then some (n - outside)
    else runOffset? rest (n - (outside + inside))
  | _, _ => none

/-- Whether the number `n` falls into an inside run. -/
def inRuns (table : List Nat) (n : Nat) : Bool :=
  (runOffset? table n).isSome

/-- Whether a character beyond ASCII belongs to the class that `table` describes. -/
def beyondAscii (table : List Nat) (c : Char) : Bool :=
  0x80 ≤ c.toNat && inRuns table (c.toNat - 0x80)

end Recast
