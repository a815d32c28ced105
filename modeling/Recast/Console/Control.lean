import Recast.Text.Letter
import Recast.Text.Wide

/-!
# Control sequences

A control sequence tells a terminal to change a colour or to move its cursor: an escape, an opening
bracket, parameters and a letter. What a run writes on standard output is for a file or another
program, so it goes there without control sequences (`withoutControls`). The sequences are found
from left to right, and characters that meet where one was taken out make no new one.
-/

namespace Recast

/-- The character that a control sequence starts with. -/
def controlStart : Char :=
  '\x1b'

/-- A character between the bracket and the letter of a control sequence. -/
def isControlParameter (point : CodePoint) : Bool :=
  point.char?.any fun c => isAsciiDigit c || c == ';' || c == '?'

/-- The letter that ends a control sequence. -/
def isControlEnd (point : CodePoint) : Bool :=
  point.char?.any isAsciiLetter

/-- How long the control sequence is that a text starts with, zero if it starts with none. -/
def controlLength : Wide → Nat
  | first :: second :: rest =>
    if first = .char controlStart ∧ second = .char '[' then
      let parameters := (rest.takeWhile isControlParameter).length
      if (rest[parameters]?).any isControlEnd then parameters + 3 else 0
    else 0
  | _ => 0

/-- The text without control sequences, after so many characters that still belong to one. -/
def withoutControlsAfter : Nat → Wide → Wide
  | _, [] => []
  | skipped + 1, _ :: rest => withoutControlsAfter skipped rest
  | 0, c :: rest =>
    match controlLength (c :: rest) with
    | 0 => c :: withoutControlsAfter 0 rest
    | length + 1 => withoutControlsAfter length rest

/-- The text without control sequences. -/
def withoutControls (t : Wide) : Wide :=
  withoutControlsAfter 0 t

end Recast
