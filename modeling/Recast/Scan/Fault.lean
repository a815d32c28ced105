import Recast.Text.Basic

/-!
# Faults in markup

A `MarkupFault` says why markup cannot be read on, and at which offset. `MarkupFault.message` is its
wording.
-/

namespace Recast

/-- Why markup cannot be read. -/
inductive MarkupFault.Cause where
  /-- The brace of an attribute value is never closed. -/
  | unclosedAttribute (tag : Text)
  /-- An opening tag never reaches its end. -/
  | unterminatedTag (tag : Text)
  /-- A brace between tags is never closed. -/
  | unclosedExpression
  /-- A closing tag never reaches its end. -/
  | unterminatedClosingTag
  deriving DecidableEq, Repr

/-- A cause and the offset at which it shows. -/
structure MarkupFault where
  cause : MarkupFault.Cause
  offset : Nat
  deriving DecidableEq, Repr

/-- What is wrong, without the place. -/
def MarkupFault.Cause.describe : MarkupFault.Cause → Text
  | .unclosedAttribute tag => "Unclosed attribute expression in <".toList ++ tag ++ ">".toList
  | .unterminatedTag tag => "Unterminated tag <".toList ++ tag
  | .unclosedExpression => "Unclosed expression in markup".toList
  | .unterminatedClosingTag => "Unterminated closing tag".toList

/-- What is wrong and where. -/
def MarkupFault.message (fault : MarkupFault) : Text :=
  fault.cause.describe ++ " (at offset ".toList ++ showNat fault.offset ++ ")".toList

end Recast
