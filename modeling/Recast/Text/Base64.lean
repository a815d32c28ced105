import Recast.Text.Basic

/-!
# Base 64

`base64Bytes?` decodes text in base 64: every four signs give three bytes. Characters that are no
signs are passed over, and so are padding signs before the last group; the text ends where its
padding is complete. A group that stays incomplete is no code.
-/

namespace Recast

/-- The number that a sign stands for. -/
def base64Value? (c : Char) : Option Nat :=
  if 'A' ≤ c && c ≤ 'Z' then some (c.toNat - 'A'.toNat)
  else if 'a' ≤ c && c ≤ 'z' then some (c.toNat - 'a'.toNat + 26)
  else if '0' ≤ c && c ≤ '9' then some (c.toNat - '0'.toNat + 52)
  else if c = '+' then some 62
  else if c = '/' then some 63
  else none

/-- A group of signs that is being read. -/
structure Base64Group where
  /-- How many signs it has. -/
  signs : Nat
  /-- The bits that belong to no byte yet. -/
  rest : Nat
  /-- How many padding signs came since the last sign. -/
  pads : Nat

/-- The group after a sign, and the byte that is complete with it. -/
def Base64Group.add (group : Base64Group) (n : Nat) : List UInt8 × Base64Group :=
  match group.signs with
  | 0 => ([], ⟨1, n, 0⟩)
  | 1 => ([UInt8.ofNat (group.rest * 4 + n / 16)], ⟨2, n % 16, 0⟩)
  | 2 => ([UInt8.ofNat (group.rest * 16 + n / 4)], ⟨3, n % 4, 0⟩)
  | _ => ([UInt8.ofNat (group.rest * 64 + n)], ⟨0, 0, 0⟩)

/-- The bytes from a group on. -/
def base64From (group : Base64Group) : Text → Option (List UInt8)
  | [] => if group.signs = 0 then some [] else none
  | c :: cs =>
    if c = '=' then
      if 2 ≤ group.signs then
        if 4 ≤ group.signs + group.pads + 1 then some []
        else base64From { group with pads := group.pads + 1 } cs
      else base64From group cs
    else
      match base64Value? c with
      | none => base64From group cs
      | some n =>
        let (bytes, next) := group.add n
        (base64From next cs).map (bytes ++ ·)

/-- The bytes that a text in base 64 stands for. -/
def base64Bytes? (t : Text) : Option (List UInt8) :=
  base64From ⟨0, 0, 0⟩ t

end Recast
