import Recast.Config.Value

/-!
# Keys

A `Key` is a value that entries and sets are found by. Numbers are the same key if they are equal,
truth values count as one and zero, and moments with offsets are the same if they are at the same
time. What is no number is equal only to itself.

A set has its members in the order of their slots in a table (`slotOrder`).
-/

namespace Recast.Yaml

/-- A value that can be looked up. -/
structure Key where
  value : Value
  /-- Tells what is no number apart. -/
  identity : Nat

/-! ## Sameness -/

/-- The fraction that a number is. A truth value counts as one or zero. -/
def keyNumber? : Value → Option (Int × Nat)
  | .bool b => some (if b then 1 else 0, 1)
  | .int n => some (n, 1)
  | .float (.finite negative significand exponent) =>
    let n : Int := (significand * Nat.pow 2 exponent.toNat : Nat)
    some (if negative then -n else n, Nat.pow 2 (-exponent).toNat)
  | _ => none

/-- Whether two moments are at the same time. -/
def sameMoment (a b : Moment) : Bool :=
  match a.offset?, b.offset? with
  | some _, some _ => a.instant == b.instant
  | none, none => a == b
  | _, _ => false

/-- Whether two keys are the same. -/
def Key.same (a b : Key) : Bool :=
  match keyNumber? a.value, keyNumber? b.value with
  | some (n, d), some (m, e) => n * e == m * d
  | none, none =>
    match a.value, b.value with
    | .null, .null => true
    | .string s, .string t => s == t
    | .bytes s, .bytes t => s == t
    | .date c, .date d => c == d
    | .moment c, .moment d => sameMoment c d
    | .float (.infinite c), .float (.infinite d) => c == d
    | .float .nan, .float .nan => a.identity == b.identity
    | _, _ => false
  | _, _ => false

/-- The entries with one more: a key that is there keeps its place. -/
def putEntry {α : Type} (entries : List (Key × α)) (key : Key) (value : α) : List (Key × α) :=
  if entries.any fun (k, _) => k.same key then
    entries.map fun (k, v) => if k.same key then (k, value) else (k, v)
  else entries ++ [(key, value)]

/-! ## The order of a set -/

/-- The prime that the numbers of keys are taken modulo. -/
def keyModulus : Nat := Nat.pow 2 61 - 1

/-- The number that decides about the slot of a key, if the key is a number. -/
def slotNumber? : Value → Option Int
  | .bool b => some (if b then 1 else 0)
  | .int n => some (signed (n < 0) (n.natAbs % keyModulus))
  | .float (.finite negative significand exponent) =>
    some (signed negative (significand * Nat.pow 2 (exponent % 61).toNat % keyModulus))
  | .float (.infinite negative) => some (signed negative 314159)
  | _ => none
where
  /-- The number with its sign; minus one is taken by something else. -/
  signed (negative : Bool) (n : Nat) : Int :=
    if negative then (if n = 1 then -2 else -(n : Int)) else n

/-- The size of a table for some members: a power of two, and more than twice as many if there are
five or more. -/
def tableSize (members : Nat) : Nat :=
  if members < 5 then 8 else max 8 (Nat.pow 2 ((2 * members).log2 + 1))

/-- The first free slot from a place on: a few slots in a row, then a place that the number decides
about. -/
def freeSlot (isFree : Nat → Bool) (size : Nat) : Nat → Nat → Nat → Nat
  | 0, _, place => place
  | fuel + 1, rest, place =>
    let run := if place + 9 < size then 10 else 1
    match (List.range run).find? fun step => isFree (place + step) with
    | some step => place + step
    | none =>
      let rest := rest / 32
      freeSlot isFree size fuel rest ((place * 5 + 1 + rest) % size)

/-- Puts a member into its slot. -/
def placeMember (size : Nat) (table : List (Nat × Value)) (number : Int) (member : Value) :
    List (Nat × Value) :=
  let word := (number % (Nat.pow 2 64 : Nat)).toNat
  (freeSlot (fun slot => !table.any (·.1 = slot)) size 64 word (word % size), member) :: table

/-- Members of a set in order: numbers by their slots, and anything else as it was added. -/
def slotOrder (members : List Value) : List Value :=
  match members.mapM slotNumber? with
  | none => members
  | some numbers =>
    let table := (numbers.zip members).foldl
      (fun table (number, member) => placeMember (tableSize members.length) table number member) []
    (table.mergeSort fun a b => a.1 ≤ b.1).map (·.2)

end Recast.Yaml
