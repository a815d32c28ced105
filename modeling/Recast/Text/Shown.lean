import Recast.Text.Printable
import Recast.Text.Quoted

/-!
# Texts in messages

A message shows a text between quotes, with escapes for what does not print (`quotedText`). Bytes
are shown as ASCII text with a mark before it (`quotedBytes`).
-/

namespace Recast

/-- An integer in decimal digits. -/
def showInt (n : Int) : Text :=
  if n < 0 then '-' :: showNat n.natAbs else showNat n.natAbs

/-- The escape of a code point by its number. -/
def numericEscape (n : Nat) : Text :=
  if n < 0x100 then "\\x".toList ++ hexDigits 2 n
  else if n < 0x10000 then "\\u".toList ++ hexDigits 4 n
  else "\\U".toList ++ hexDigits 8 n

/-- How one character stands between quotes of the given kind. -/
def quotedChar (quote c : Char) : Text :=
  if c = quote || c = '\\' then ['\\', c]
  else if c = '\n' then "\\n".toList
  else if c = '\r' then "\\r".toList
  else if c = '\t' then "\\t".toList
  else if isPrintable c then [c]
  else numericEscape c.toNat

/-- The quote for a text: a double one if the text has single quotes and no double ones. -/
def quoteFor (single double : Bool) : Char :=
  if single && !double then '"' else '\''

/-- A text between single quotes, or between double quotes if it has single quotes and no double
ones. -/
def quotedText (t : Text) : Text :=
  let quote := quoteFor (t.contains '\'') (t.contains '"')
  quote :: t.flatMap (quotedChar quote) ++ [quote]

/-- How one byte stands between quotes of the given kind. -/
def quotedByte (quote : Char) (byte : UInt8) : Text :=
  let c := Char.ofNat byte.toNat
  if c.toNat < 0x7F then quotedChar quote c else numericEscape c.toNat

/-- Bytes between quotes, with a mark before them. -/
def quotedBytes (bytes : List UInt8) : Text :=
  let has (c : Char) : Bool := bytes.any fun byte => byte.toNat == c.toNat
  let quote := quoteFor (has '\'') (has '"')
  'b' :: quote :: bytes.flatMap (quotedByte quote) ++ [quote]

end Recast
