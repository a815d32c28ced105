/-!
# Blanks

`isBlank` is the whitespace that separates words of code and that trimming removes: the ASCII blanks
and separators, the next-line and no-break characters, and the spaces of every width. `isIndent` is
the narrower class of the characters that indent a line, and `isLayout` adds the line ends to it.
-/

namespace Recast

/-- A whitespace character. -/
def isBlank (c : Char) : Bool :=
  let n := c.toNat
  (9 ≤ n && n ≤ 13) || (0x1C ≤ n && n ≤ 0x20) || n == 0x85 || n == 0xA0 || n == 0x1680
    || (0x2000 ≤ n && n ≤ 0x200A) || n == 0x2028 || n == 0x2029 || n == 0x202F || n == 0x205F
    || n == 0x3000

/-- A space or a tab. -/
def isIndent (c : Char) : Bool :=
  c == ' ' || c == '\t'

/-- A space, a tab or a line end. -/
def isLayout (c : Char) : Bool :=
  c == ' ' || c == '\t' || c == '\r' || c == '\n'

end Recast
