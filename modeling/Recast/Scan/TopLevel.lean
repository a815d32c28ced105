import Recast.Scan.Token

/-!
# The top level of code

Code is read at its top level by passing over strings, comments, brackets and elements:
`topLevelMatches` finds a `Pattern` there, `splitTopLevel` cuts at separators (outside strings and
brackets only), and `containsMarkup` says whether an element opens outside strings and comments.
`openerAt?` goes the other way and finds the bracket that a closing one belongs to.
-/

namespace Recast

/-- A pattern looks at the text before an offset (read backwards) and after it, and gives the length
of its match. -/
abbrev Pattern := Text → Text → Option Nat

/-- The end of the bracket that the character `c` at `pos` opens; an open bracket goes to the end of
the text. -/
def nestedEnd? (pos : Nat) (c : Char) (cs : Text) : Option Nat :=
  (Bracket.ofOpener? c).map fun kind =>
    (bracketEnd kind 0 [c] (pos + 1) 0 cs).getD (pos + 1 + cs.length)

/-- The end of the bracket, string, comment or element that starts with the character `c` at
`pos`. -/
def unitEnd? (pos : Nat) (behind : Text) (c : Char) (cs : Text) : Option Nat :=
  match nestedEnd? pos c cs with
  | some stop => some stop
  | none => opaqueEnd? pos behind c cs

/-- The matches of a pattern from `pos` on that start outside brackets, strings, comments and
elements. -/
def topLevelFrom (pattern : Pattern) (behind : Text) (pos resume : Nat) : Text → List Span
  | [] => []
  | c :: cs =>
    if pos < resume then topLevelFrom pattern (c :: behind) (pos + 1) resume cs
    else
      match unitEnd? pos behind c cs with
      | some stop => topLevelFrom pattern (c :: behind) (pos + 1) stop cs
      | none =>
        match pattern behind (c :: cs) with
        | some size =>
          ⟨pos, pos + size⟩ :: topLevelFrom pattern (c :: behind) (pos + 1) (pos + size) cs
        | none => topLevelFrom pattern (c :: behind) (pos + 1) resume cs

/-- The matches of a pattern at the top level of code, from an offset on. -/
def topLevelMatches (t : Text) (pattern : Pattern) (start : Nat) : List Span :=
  topLevelFrom pattern (t.take start).reverse start 0 (t.drop start)

/-- The spans between separators that stand outside brackets and strings. -/
def pieceSpans (isSeparator : Char → Bool) (start pos resume : Nat) : Text → List Span
  | [] => [⟨start, pos⟩]
  | c :: cs =>
    if pos < resume then pieceSpans isSeparator start (pos + 1) resume cs
    else if isQuote c then pieceSpans isSeparator start (pos + 1) (literalEnd c (pos + 1) 0 cs) cs
    else
      match nestedEnd? pos c cs with
      | some stop => pieceSpans isSeparator start (pos + 1) stop cs
      | none =>
        if isSeparator c then ⟨start, pos⟩ :: pieceSpans isSeparator (pos + 1) (pos + 1) resume cs
        else pieceSpans isSeparator start (pos + 1) resume cs

/-- The trimmed pieces of code between separators outside brackets and strings, without the blank
ones. -/
def splitTopLevel (isSeparator : Char → Bool) (t : Text) : List Text :=
  piecesOf t (pieceSpans isSeparator 0 0 0 t)

/-- A comma. -/
def isComma (c : Char) : Bool :=
  c == ','

/-- Whether an element opens in the code that follows `behind` (read backwards). -/
def containsMarkupFrom (behind : Text) (pos resume : Nat) : Text → Bool
  | [] => false
  | c :: cs =>
    if pos < resume then containsMarkupFrom (c :: behind) (pos + 1) resume cs
    else if isQuote c then
      containsMarkupFrom (c :: behind) (pos + 1) (literalEnd c (pos + 1) 0 cs) cs
    else
      match commentEnd? pos c cs with
      | some stop => containsMarkupFrom (c :: behind) (pos + 1) stop cs
      | none =>
        (c == '<' && opensMarkup behind cs) || containsMarkupFrom (c :: behind) (pos + 1) resume cs

/-- Whether an element opens in code, outside strings and comments. -/
def containsMarkup (t : Text) : Bool :=
  containsMarkupFrom [] 0 0 t

/-- The offset of the bracket that brings the depth back to zero, reading `behind` backwards. Every
kind of bracket counts, and nothing is passed over. -/
def openerBehind? (depth : Int) : Text → Option Nat
  | [] => none
  | c :: before =>
    if isCloser c then openerBehind? (depth + 1) before
    else if isOpener c then
      if depth = 1 then some before.length else openerBehind? (depth - 1) before
    else openerBehind? depth before

/-- The offset of the bracket that opens the one closing at `pos`. -/
def openerAt? (t : Text) (pos : Nat) : Option Nat :=
  openerBehind? 0 (t.take (pos + 1)).reverse

end Recast
