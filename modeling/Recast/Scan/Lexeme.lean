import Recast.Scan.Fault
import Recast.Text.Letter

/-!
# The pieces that scanning is made of

Small decisions on the next few characters, shared by all scanners: the three kinds of `Bracket`,
quotes, comments (`commentEnd?`), tag names (`tagName`), and whether a `<` in code opens markup or
compares (`opensMarkup`).

The decisions that lead to a nested scan take the nested scans' answers as arguments: `opaqueEndBy`
for a piece of code that is passed over as a whole, and `markBy` for the tag or expression at the
next character of markup.
-/

namespace Recast

/-! ## Brackets and quotes -/

/-- The kinds of brackets. -/
inductive Bracket where
  | curly
  | round
  | square
  deriving DecidableEq, Repr

/-- The opening character. -/
def Bracket.opener : Bracket → Char
  | .curly => '{'
  | .round => '('
  | .square => '['

/-- The closing character. -/
def Bracket.closer : Bracket → Char
  | .curly => '}'
  | .round => ')'
  | .square => ']'

/-- The kind that a character opens. -/
def Bracket.ofOpener? (c : Char) : Option Bracket :=
  if c = '{' then some .curly
  else if c = '(' then some .round
  else if c = '[' then some .square
  else none

/-- An opening bracket of any kind. -/
def isOpener (c : Char) : Bool :=
  c == '(' || c == '[' || c == '{'

/-- A closing bracket of any kind. -/
def isCloser (c : Char) : Bool :=
  c == ')' || c == ']' || c == '}'

/-- A character that opens a string or template literal. -/
def isQuote (c : Char) : Bool :=
  c == '\'' || c == '"' || c == '`'

/-! ## Comments -/

/-- The offset past the end of a block comment whose text goes on at `pos`. -/
def blockCommentEnd (pos : Nat) : Text → Nat
  | [] => pos
  | '*' :: '/' :: _ => pos + 2
  | _ :: cs => blockCommentEnd (pos + 1) cs

/-- The offset past the comment that starts with the character `c` at `pos`; a line comment ends
before its line end, and an open comment ends with the text. -/
def commentEnd? (pos : Nat) (c : Char) (cs : Text) : Option Nat :=
  if c = '/' then
    match cs with
    | '/' :: rest => some ((offsetOf? (· == '\n') (pos + 2) rest).getD (pos + 2 + rest.length))
    | '*' :: rest => some (blockCommentEnd (pos + 2) rest)
    | _ => none
  else none

/-! ## Tags -/

/-- A character that may follow the first one of a tag name. -/
def isTagNameChar (c : Char) : Bool :=
  isNameChar c || c == '.' || c == ':' || c == '-'

/-- The tag name at the start of a text; empty for a fragment. -/
def tagName : Text → Text
  | c :: cs => if isNameStart c then c :: cs.takeWhile isTagNameChar else []
  | [] => []

/-- The characters after which a `<` in code opens markup. -/
def precedesMarkup (c : Char) : Bool :=
  "([=,\x7b:?;!&|%^+-*/~<>".toList.contains c

/-- Whether a `<` in code opens markup, with `behind` the text before it read backwards and `ahead`
the text after it. A comparison or a type argument follows a name or has a blank after it; markup
follows an operator, an opening bracket, `return` or the start of the text. -/
def opensMarkup (behind ahead : Text) : Bool :=
  match ahead with
  | [] => false
  | next :: _ =>
    (isLetter next || next == '_' || next == '$' || next == '>')
      && match behind.dropWhile isLayout with
        | [] => true
        | last :: before =>
          precedesMarkup last
            || (isNameChar last && (last :: before).takeWhile isNameChar == "return".toList.reverse)

/-- Whether a `<` between tags opens a tag of any kind. -/
def opensTag : Text → Bool
  | [] => false
  | next :: _ => isLetter next || next == '/' || next == '>' || next == '_' || next == '$'

/-- Where an opening tag ends, and whether it closes itself. -/
structure TagEnd where
  stop : Nat
  selfClosing : Bool
  deriving DecidableEq, Repr

/-! ## Tokens of markup -/

/-- The kinds of tokens. -/
inductive Token.Kind where
  | text
  | expression
  | opening
  | selfClosing
  | closing
  deriving DecidableEq, Repr

/-- A piece of markup: a tag, a brace expression or the text between them. Only tags have a name. -/
structure Token where
  kind : Token.Kind
  start : Nat
  stop : Nat
  name : Text
  deriving DecidableEq, Repr

/-- The text that a token covers. -/
def Token.of (token : Token) (t : Text) : Text :=
  slice t token.start token.stop

/-- The tag or brace expression that starts with the character `c` at `pos`, if one does. `braceEnd`
gives the end of the expression, `tagEnd` that of the opening tag of a given name. -/
def markBy (pos : Nat) (c : Char) (cs : Text) (braceEnd : Unit → Option Nat)
    (tagEnd : Text → Except MarkupFault TagEnd) : Option (Except MarkupFault Token) :=
  if c = '{' then
    match braceEnd () with
    | some stop => some (.ok ⟨.expression, pos, stop, []⟩)
    | none => some (.error ⟨.unclosedExpression, pos⟩)
  else if c = '<' && opensTag cs then
    match cs with
    | '/' :: rest =>
      match cutAt? '>' rest with
      | some (name, _) => some (.ok ⟨.closing, pos, pos + 3 + name.length, trim name⟩)
      | none => some (.error ⟨.unterminatedClosingTag, pos⟩)
    | _ =>
      match tagEnd (tagName cs) with
      | .error fault => some (.error fault)
      | .ok ⟨stop, selfClosing⟩ =>
        some (.ok ⟨if selfClosing then .selfClosing else .opening, pos, stop, tagName cs⟩)
  else none

/-! ## Pieces of code that are passed over -/

/-- The end of an element from the end of its opening tag; `childrenEnd` gives the end of what
follows the tag. -/
def elementEndBy (tagEnd : Except MarkupFault TagEnd)
    (childrenEnd : Nat → Except MarkupFault (Option Nat)) : Except MarkupFault (Option Nat) :=
  match tagEnd with
  | .error fault => .error fault
  | .ok tag => if tag.selfClosing then .ok (some tag.stop) else childrenEnd tag.stop

/-- The end of the string, comment or element that starts with the character `c` at `pos`, if one
does. `literalEnd` gives the end of a literal, `elementEnd` that of an element. Markup with a fault
in it is read as code. -/
def opaqueEndBy (pos : Nat) (c : Char) (behind cs : Text) (literalEnd : Unit → Nat)
    (elementEnd : Unit → Except MarkupFault (Option Nat)) : Option Nat :=
  if isQuote c then some (literalEnd ())
  else if c = '/' then commentEnd? pos c cs
  else if c = '<' && opensMarkup behind cs then
    match elementEnd () with
    | .ok found => found
    | .error _ => none
  else none

end Recast
