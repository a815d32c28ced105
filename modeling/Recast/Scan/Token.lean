import Recast.Scan.Extent

/-!
# Tokens and children

`tokens` cuts markup into tags, brace expressions and the text between them. `childSpans` groups the
tokens into siblings: a complete element, an expression or a run of text is one unit, and an element
left open takes everything after it. `splitChildren` gives the units' texts.
-/

namespace Recast

/-- The text between `start` and `stop` as a token, if there is any. -/
def textToken (start stop : Nat) : List Token :=
  if start < stop then [⟨.text, start, stop, []⟩] else []

/-- The tokens from `pos` on, where the text before the next mark starts at `textStart`. -/
def tokensFrom (textStart pos resume : Nat) : Text → Except MarkupFault (List Token)
  | [] => .ok (textToken textStart pos)
  | c :: cs =>
    if pos < resume then tokensFrom textStart (pos + 1) resume cs
    else
      match markAt pos c cs with
      | none => tokensFrom textStart (pos + 1) resume cs
      | some (.error fault) => .error fault
      | some (.ok token) =>
        match tokensFrom token.stop (pos + 1) token.stop cs with
        | .error fault => .error fault
        | .ok rest => .ok (textToken textStart pos ++ token :: rest)

/-- The tokens of a text from an offset on. -/
def tokens (t : Text) (start : Nat) : Except MarkupFault (List Token) :=
  tokensFrom start start 0 (t.drop start)

/-- The siblings among the tokens of a text of length `size`; `depth` counts the open elements, the
outermost of which starts at `unitStart`. -/
def childSpans (size depth unitStart : Nat) : List Token → List Span
  | [] => if depth = 0 then [] else [⟨unitStart, size⟩]
  | token :: rest =>
    if depth = 0 then
      if token.kind = .opening then childSpans size 1 token.start rest
      else ⟨token.start, token.stop⟩ :: childSpans size 0 unitStart rest
    else if token.kind = .opening then childSpans size (depth + 1) unitStart rest
    else if token.kind = .closing then
      if depth = 1 then ⟨unitStart, token.stop⟩ :: childSpans size 0 unitStart rest
      else childSpans size (depth - 1) unitStart rest
    else childSpans size depth unitStart rest

/-- The trimmed texts of the spans, without the blank ones. -/
def piecesOf (t : Text) (spans : List Span) : List Text :=
  (spans.map fun span => trim (span.of t)).filter (!·.isEmpty)

/-- The siblings of a children text. -/
def splitChildren (t : Text) : Except MarkupFault (List Text) :=
  (tokens t 0).map fun found => piecesOf t (childSpans t.length 0 0 found)

end Recast
