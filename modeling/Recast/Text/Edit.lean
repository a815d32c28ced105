import Recast.Text.Basic

/-!
# Edits

`replaceSpans` puts new texts in the place of spans of a text. It copies what lies between the end
of a span and the start of the next one.
-/

namespace Recast

/-- A span and the text that takes its place. -/
structure Edit where
  span : Span
  text : Text
  deriving DecidableEq, Repr

/-- The text from `last` on with the edits made in order. -/
def replaceFrom (t : Text) : Nat → List Edit → Text
  | last, [] => t.drop last
  | last, edit :: edits =>
    slice t last edit.span.start ++ edit.text ++ replaceFrom t edit.span.stop edits

/-- The text with the edits made in order. -/
def replaceSpans (t : Text) (edits : List Edit) : Text :=
  replaceFrom t 0 edits

/-- The order of texts by code points; a start of a text comes before it. -/
def textLe : Text → Text → Bool
  | [], _ => true
  | _ :: _, [] => false
  | c :: cs, d :: ds => c.toNat < d.toNat || (c == d && textLe cs ds)

/-- The order of edits: by start, then by end, then by the new text. -/
def Edit.le (a b : Edit) : Bool :=
  a.span.start < b.span.start
    || (a.span.start == b.span.start
      && (a.span.stop < b.span.stop || (a.span.stop == b.span.stop && textLe a.text b.text)))

/-- The edits without those that start before the end of an earlier one. -/
def dropOverlaps : Nat → List Edit → List Edit
  | _, [] => []
  | last, edit :: edits =>
    if edit.span.start < last then dropOverlaps last edits
    else edit :: dropOverlaps edit.span.stop edits

/-- The text with edits given in any order; of overlapping ones the first is made. -/
def applyEdits (t : Text) (edits : List Edit) : Text :=
  replaceSpans t (dropOverlaps 0 (edits.mergeSort Edit.le))

end Recast
