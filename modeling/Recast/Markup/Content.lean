import Recast.Scan.TopLevel
import Recast.Text.Lines
import Recast.Text.Quoted

/-!
# Text content

`textValue` writes the content of a text element as a value: a string literal when it is text only,
the expression itself when there is one and no text, and a template literal otherwise.
-/

namespace Recast

/-- A piece of content. -/
inductive ContentPiece where
  | literal (t : Text)
  | expression (t : Text)
  deriving DecidableEq, Repr

/-- Whether an expression is only a block comment. -/
def isCommentExpression (inner : Text) : Bool :=
  startsWith inner "/*".toList && endsWith inner "*/".toList

/-- Whether an expression says nothing: it is empty or only a comment. -/
def isSilent (inner : Text) : Bool :=
  inner.isEmpty || isCommentExpression inner

/-- The piece of content that a token is; an expression that says nothing is none. -/
def contentPiece? (content : Text) (token : Token) : Option ContentPiece :=
  if token.kind = .expression then
    let inner := trim ((token.of content).drop 1).dropLast
    if isSilent inner then none else some (.expression inner)
  else some (.literal (token.of content))

/-- How text stands in a template literal. -/
def escapeTemplate : Text → Text
  | [] => []
  | '$' :: '{' :: cs => '\\' :: '$' :: '{' :: escapeTemplate cs
  | c :: cs =>
    if c = '\\' then '\\' :: '\\' :: escapeTemplate cs
    else if c = '`' then '\\' :: '`' :: escapeTemplate cs
    else c :: escapeTemplate cs

/-- The expressions among the pieces. -/
def contentExpressions (pieces : List ContentPiece) : List Text :=
  pieces.filterMap fun
    | .expression t => some t
    | .literal _ => none

/-- The texts among the pieces. -/
def contentLiterals (pieces : List ContentPiece) : List Text :=
  pieces.filterMap fun
    | .literal t => some t
    | .expression _ => none

/-- How a piece stands in a template literal. -/
def templatePiece : ContentPiece → Text
  | .literal t => escapeTemplate (collapseBlanks t)
  | .expression t => "$\x7b".toList ++ t ++ "\x7d".toList

/-- The value of pieces of content. -/
def contentValue (pieces : List ContentPiece) : Text :=
  match contentExpressions pieces with
  | [] => quote (trim (collapseBlanks (contentLiterals pieces).flatten))
  | [expression] =>
    if (contentLiterals pieces).all isBlankText then expression else template
  | _ => template
where
  /-- The pieces as a template literal. -/
  template : Text :=
    "`".toList ++ trim (pieces.flatMap templatePiece) ++ "`".toList

/-- The content of a text element as a value. -/
def textValue (content : Text) : Except MarkupFault Text :=
  (tokens content 0).map fun found => contentValue (found.filterMap (contentPiece? content))

/-- Whether a unit of content is an element or an expression with an element in it. -/
def isMarkupUnit : Text → Bool
  | '<' :: _ => true
  | '{' :: rest => containsMarkup rest.dropLast
  | _ => false

end Recast
