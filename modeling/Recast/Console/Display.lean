import Recast.Console.Cells
import Recast.Console.Pictures

/-!
# What the console shows

The console takes words in brackets for marks of style, so a message goes to it with its own
brackets escaped, and it shows them as they are. The escapes leave their trace: a backslash before a
bracket that opens no mark is lost, and a single backslash at the end of a message is shown twice.
Names between colons become pictures, some control characters are dropped, and tabs become spaces.
`Display.line` is the line that a message makes.
-/

namespace Recast.Display

/-! ## Marks -/

/-- A character that a mark of style may start with. -/
def isMarkStart (c : Char) : Bool :=
  ('a' ≤ c && c ≤ 'z') || c == '#' || c == '/' || c == '@'

/-- A word in brackets that could be a mark of style. -/
structure Mark where
  /-- How many backslashes stand before it. -/
  slashes : Nat
  text : Text

/-- Recognises a mark and the backslashes before it. -/
def mark : Recogniser Mark := fun _ ahead =>
  let slashes := ahead.takeWhile (· == '\\')
  match ahead.drop slashes.length with
  | '[' :: c :: cs =>
    let body := cs.takeWhile fun c => !(c == '[' || c == ']')
    match cs.drop body.length with
    | ']' :: after =>
      if isMarkStart c then
        some (covers ⟨slashes.length, '[' :: c :: body ++ [']']⟩ ahead after)
      else none
    | _ => none
  | _ => none

/-- The text with one backslash less before every bracket. -/
def dropEscapes : Text → Text
  | [] => []
  | c :: cs => if c = '\\' && cs.head? = some '[' then dropEscapes cs else c :: dropEscapes cs

/-- How a piece without marks is shown. -/
def piece (t : Text) : Text :=
  showPictures (dropEscapes t)

/-- How the text from `last` on is shown, with the marks in it as they are. -/
def piecesFrom (t : Text) : Nat → List (Occurrence Mark) → Text
  | last, [] => piece (t.drop last)
  | last, found :: rest =>
    piece (slice t last found.start) ++ List.replicate found.value.slashes '\\' ++
      piece found.value.text
      ++ piecesFrom t found.stop rest

/-- How a message is shown, its end apart. -/
def pieces (t : Text) : Text :=
  piecesFrom t 0 (occurrences mark t)

/-! ## The end of a message -/

/-- How many backslashes a text ends with. -/
def endSlashes (t : Text) : Nat :=
  (t.reverse.takeWhile (· == '\\')).length

/-- A single backslash at the end is doubled. -/
def doubleEnd (t : Text) : Text :=
  if endSlashes t = 1 then t ++ ['\\'] else t

/-- How a message is shown. -/
def message (t : Text) : Text :=
  pieces (doubleEnd t)

/-- How a message between marks for faint text is shown. Two backslashes before the closing mark are
shown as one, and one that is left over shows the mark. -/
def faint (t : Text) : Text :=
  let t := doubleEnd t
  let slashes := endSlashes t
  pieces (t.take (t.length - slashes)) ++ List.replicate (slashes / 2) '\\'
    ++ if slashes % 2 = 1 then "[/dim]".toList else []

/-! ## Lines -/

/-- A control character that is dropped. -/
def isDropped (c : Char) : Bool :=
  [7, 8, 11, 12, 13].contains c.toNat

/-- A line of the console. -/
def line (t : Text) : Text :=
  expandTabs 0 (t.filter (!isDropped ·)) ++ ['\n']

end Recast.Display
