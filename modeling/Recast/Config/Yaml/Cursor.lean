import Recast.Text.Basic

/-!
# Places in a document

A `Cursor` is a place in a document: the text from there on, how many characters came before, and
the line and column. Line ends are the line feed and the three other line separators.
-/

namespace Recast.Yaml

/-- A line end. -/
def isBreak (c : Char) : Bool :=
  c == '\n' || c.toNat == 0x85 || c.toNat == 0x2028 || c.toNat == 0x2029

/-- A space or a tab. -/
def isSpace (c : Char) : Bool :=
  c == ' ' || c == '\t'

/-- The line end as content: the two separators of paragraphs and lines stand for themselves. -/
def breakText (c : Char) : Text :=
  if c.toNat == 0x85 then ['\n'] else [c]

/-- Whether a line ends here. -/
def endsLine (t : Text) : Bool :=
  t.head?.all isBreak

/-- Whether a word ends here. -/
def endsWord (t : Text) : Bool :=
  t.head?.all fun c => isSpace c || isBreak c

/-- Whether three characters that divide documents stand here. -/
def isMarker (mark : Char) (t : Text) : Bool :=
  match dropHead? [mark, mark, mark] t with
  | some rest => endsWord rest
  | none => false

/-- Whether a document ends here, if this is the start of a line. -/
def endsDocument (t : Text) : Bool :=
  isMarker '-' t || isMarker '.' t

/-- A place in a document. -/
structure Cursor where
  rest : Text
  index : Nat
  line : Nat
  column : Nat

/-- The place before a document. -/
def Cursor.start (t : Text) : Cursor :=
  ⟨t, 0, 0, 0⟩

/-- The place `n` characters on. -/
def Cursor.advance : Nat → Cursor → Cursor
  | 0, cursor => cursor
  | _ + 1, ⟨[], index, line, column⟩ => ⟨[], index, line, column⟩
  | n + 1, ⟨c :: rest, index, line, column⟩ =>
    Cursor.advance n
      (if isBreak c then ⟨rest, index + 1, line + 1, 0⟩
      else if c.toNat = 0xFEFF then ⟨rest, index + 1, line, column⟩
      else ⟨rest, index + 1, line, column + 1⟩)

/-- The place after the characters of a class. -/
def Cursor.skipWhile (p : Char → Bool) (cursor : Cursor) : Cursor :=
  cursor.advance (cursor.rest.takeWhile p).length

/-- The place where the document goes on with `rest`, one of the ends of what is left. -/
def Cursor.moveTo (cursor : Cursor) (rest : Text) : Cursor :=
  cursor.advance (cursor.rest.length - rest.length)

end Recast.Yaml
