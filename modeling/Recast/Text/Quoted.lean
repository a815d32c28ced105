import Recast.Text.Basic

/-!
# Quoted literals

`quote` writes a text as a double-quoted literal: the quote, the backslash and the control
characters are escaped, and every other character stands for itself.
-/

namespace Recast

/-- The hexadecimal digit for a number below sixteen. -/
def hexDigit (n : Nat) : Char :=
  if n < 10 then Char.ofNat (48 + n) else Char.ofNat (87 + n)

/-- A number in hexadecimal with at least `width` digits, its low `width` digits if it is longer. -/
def hexDigits : Nat → Nat → Text
  | 0, _ => []
  | width + 1, n => hexDigits width (n / 16) ++ [hexDigit (n % 16)]

/-- How one character stands in a double-quoted literal. -/
def escapeChar (c : Char) : Text :=
  if c = '"' then ['\\', '"']
  else if c = '\\' then ['\\', '\\']
  else if c = '\n' then ['\\', 'n']
  else if c = '\r' then ['\\', 'r']
  else if c = '\t' then ['\\', 't']
  else if c.toNat = 8 then ['\\', 'b']
  else if c.toNat = 12 then ['\\', 'f']
  else if c.toNat < 0x20 then ['\\', 'u'] ++ hexDigits 4 c.toNat
  else [c]

/-- The text as a double-quoted literal. -/
def quote (t : Text) : Text :=
  '"' :: t.flatMap escapeChar ++ ['"']

end Recast
