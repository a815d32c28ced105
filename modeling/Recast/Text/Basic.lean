import Recast.Text.Blank

/-!
# Text

A text is a list of characters, and an offset counts characters from its start. `slice` cuts a span
out of a text, `trim` takes the blanks off both ends, `splitOn` and `joinWith` cut at a separator
and put pieces together, and `cutAt?` cuts once at the first occurrence of a character.
-/

namespace Recast

/-- A sequence of characters. -/
abbrev Text := List Char

/-- A half-open range of offsets. -/
structure Span where
  start : Nat
  stop : Nat
  deriving DecidableEq, Repr

/-- The characters from `start` up to, not including, `stop`. -/
def slice (t : Text) (start stop : Nat) : Text :=
  (t.take stop).drop start

/-- The text that a span covers. -/
def Span.of (span : Span) (t : Text) : Text :=
  slice t span.start span.stop

/-! ## Trimming -/

/-- Drops the characters of a class from the end. -/
def dropEndWhile (p : Char → Bool) (t : Text) : Text :=
  (t.reverse.dropWhile p).reverse

/-- Drops the blanks at the start. -/
def trimStart (t : Text) : Text :=
  t.dropWhile isBlank

/-- Drops the blanks at the end. -/
def trimEnd (t : Text) : Text :=
  dropEndWhile isBlank t

/-- Drops the blanks at both ends. -/
def trim (t : Text) : Text :=
  trimEnd (trimStart t)

/-- Whether the text has no character that is not blank. -/
def isBlankText (t : Text) : Bool :=
  t.all isBlank

/-! ## Splitting and joining -/

/-- The pieces between the occurrences of a separator: one more than there are separators. -/
def splitOn (separator : Char) : Text → List Text
  | [] => [[]]
  | c :: cs =>
    if c = separator then [] :: splitOn separator cs
    else
      match splitOn separator cs with
      | [] => [[c]]
      | piece :: pieces => (c :: piece) :: pieces

/-- The text before the first occurrence of a character and the text after it. -/
def cutAt? (mark : Char) : Text → Option (Text × Text)
  | [] => none
  | c :: cs =>
    if c = mark then some ([], cs)
    else (cutAt? mark cs).map fun (before, after) => (c :: before, after)

/-- The pieces with a separator between each two. -/
def joinWith (separator : Text) : List Text → Text
  | [] => []
  | [piece] => piece
  | piece :: pieces => piece ++ separator ++ joinWith separator pieces

/-- The pieces with a comma and a space between each two. -/
def joinComma (pieces : List Text) : Text :=
  joinWith [',', ' '] pieces

/-- The lines of a text. -/
def lines (t : Text) : List Text :=
  splitOn '\n' t

/-- The lines with a line end between each two. -/
def unlines (ls : List Text) : Text :=
  joinWith ['\n'] ls

/-! ## Looking into a text -/

/-- The text after a leading `head`, if it starts with it. -/
def dropHead? : Text → Text → Option Text
  | [], t => some t
  | _ :: _, [] => none
  | h :: hs, c :: cs => if h = c then dropHead? hs cs else none

/-- Whether the text starts with `head`. -/
def startsWith (t head : Text) : Bool :=
  (dropHead? head t).isSome

/-- Whether the text ends with `tail`. -/
def endsWith (t tail : Text) : Bool :=
  startsWith t.reverse tail.reverse

/-- The offset of the first character of a class, counted from `pos`. -/
def offsetOf? (p : Char → Bool) (pos : Nat) : Text → Option Nat
  | [] => none
  | c :: cs => if p c then some pos else offsetOf? p (pos + 1) cs

/-- A number in decimal digits. -/
def showNat (n : Nat) : Text :=
  (Nat.repr n).toList

/-- The list without the elements that occur earlier in it. -/
def firstOccurrences (xs : List Text) : List Text :=
  (xs.foldl (fun seen x => if seen.contains x then seen else x :: seen) []).reverse

end Recast
