import Recast.Text.Case
import Recast.Text.Shown

/-!
# Wide texts

A document can name any code point, also one half of a surrogate pair, which is no character. A
`Wide` text holds both. `Wide.toText` gives the text of a wide text that holds characters only, and
says where the halves are in any other; only a text can be encoded. `Wide.shown` shows any wide text
in a message.
-/

namespace Recast

/-- A character, or half of a surrogate pair. -/
inductive CodePoint where
  | char (c : Char)
  /-- The half with this number, counted from the first. -/
  | half (n : Fin 0x800)
  deriving DecidableEq, Repr

/-- The number of a code point. -/
def CodePoint.toNat : CodePoint → Nat
  | .char c => c.toNat
  | .half n => 0xD800 + n.val

/-- The code point with a number, if there is one. -/
def CodePoint.ofNat? (n : Nat) : Option CodePoint :=
  if h : 0xD800 ≤ n ∧ n < 0xE000 then some (.half ⟨n - 0xD800, by omega⟩)
  else if n < 0x110000 then some (.char (Char.ofNat n))
  else none

/-- The character that a code point is. -/
def CodePoint.char? : CodePoint → Option Char
  | .char c => some c
  | .half _ => none

/-- Whether a code point is half of a surrogate pair. -/
def CodePoint.isHalf (point : CodePoint) : Bool :=
  point.char?.isNone

/-- Whether a code point is a blank. -/
def CodePoint.isBlank : CodePoint → Bool
  | .char c => Recast.isBlank c
  | .half _ => false

/-- A sequence of code points. -/
abbrev Wide := List CodePoint

/-- Halves that cannot be encoded, with their place. -/
structure EncodeFault where
  lead : Fin 0x800
  first : Nat
  last : Nat
  deriving DecidableEq, Repr

/-- What is wrong and where. -/
def EncodeFault.message (fault : EncodeFault) : Text :=
  "'utf-8' codec can't encode character".toList
    ++ (if fault.first = fault.last then
        " '".toList ++ numericEscape (0xD800 + fault.lead.val) ++ "' in position ".toList ++
          showNat fault.first
      else "s in position ".toList ++ showNat fault.first ++ "-".toList ++ showNat fault.last)
    ++ ": surrogates not allowed".toList

namespace Wide

/-- A text as a wide text. -/
def ofText (t : Text) : Wide :=
  t.map .char

/-- The text of a wide text from offset `pos` on, or the first halves in it. -/
def toTextFrom (pos : Nat) : Wide → Except EncodeFault Text
  | [] => .ok []
  | .char c :: rest => (toTextFrom (pos + 1) rest).map (c :: ·)
  | .half n :: rest => .error ⟨n, pos, pos + (rest.takeWhile CodePoint.isHalf).length⟩

/-- The text of a wide text that holds characters only, or the first halves in any other. -/
def toText (w : Wide) : Except EncodeFault Text :=
  toTextFrom 0 w

/-- The text of a wide text that holds characters only. -/
def text? (w : Wide) : Option Text :=
  w.toText.toOption

/-- The text with an escape for every half that is no character. -/
def escapedText (w : Wide) : Text :=
  w.flatMap fun
    | .char c => [c]
    | .half n => numericEscape (0xD800 + n.val)

/-- Whether a wide text is a certain text. -/
def isText (w : Wide) (t : Text) : Bool :=
  w == ofText t

/-- Whether all of it is blank. -/
def isBlank (w : Wide) : Bool :=
  w.all CodePoint.isBlank

/-- Drops the blanks at both ends. -/
def trim (w : Wide) : Wide :=
  ((w.dropWhile CodePoint.isBlank).reverse.dropWhile CodePoint.isBlank).reverse

/-- The pieces between the occurrences of a separator. -/
def splitOn (separator : Char) : Wide → List Wide
  | [] => [[]]
  | point :: rest =>
    if point = .char separator then [] :: splitOn separator rest
    else
      match splitOn separator rest with
      | [] => [[point]]
      | piece :: pieces => (point :: piece) :: pieces

/-- The pieces with a separator between each two. -/
def joinWith (separator : Text) (pieces : List Wide) : Wide :=
  (pieces.intersperse (ofText separator)).flatten

/-- The lower case of a text after `run`, the characters before it up to the last half, read
backwards. -/
def lowerFrom (run : Text) : Wide → Wide
  | [] => ofText (lowerAfter [] run.reverse)
  | .char c :: rest => lowerFrom (c :: run) rest
  | .half n :: rest => ofText (lowerAfter [] run.reverse) ++ .half n :: lowerFrom [] rest

/-- The lower case. No word goes on past a half. -/
def lower (w : Wide) : Wide :=
  lowerFrom [] w

/-- How one code point stands between quotes of the given kind. -/
def shownPoint (quote : Char) : CodePoint → Text
  | .char c => quotedChar quote c
  | .half n => numericEscape (0xD800 + n.val)

/-- A wide text in a message. -/
def shown (w : Wide) : Text :=
  let quote := quoteFor (w.contains (.char '\'')) (w.contains (.char '"'))
  quote :: w.flatMap (shownPoint quote) ++ [quote]

/-- Whether a wide text comes before another or is the same, by the numbers of the code points. -/
def precedes : Wide → Wide → Bool
  | [], _ => true
  | _ :: _, [] => false
  | a :: as, b :: bs => a.toNat < b.toNat || (a.toNat = b.toNat && precedes as bs)

end Wide

end Recast
