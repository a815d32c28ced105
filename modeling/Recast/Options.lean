import Recast.Text.Wide

/-!
# Options

The `Options` choose the shape of the written source: how state is kept, which module is imported,
how output files are named, and how much of an effect is quoted in a summary. The texts come from a
configuration, so they are wide.
-/

namespace Recast

/-- How a state variable is kept. -/
inductive StateStyle where
  /-- In a `Binding` container that the accessor sets. -/
  | binding
  /-- In a plain field that the accessor assigns. -/
  | field
  deriving DecidableEq, Repr

/-- How the style is named in a configuration. -/
def StateStyle.name : StateStyle → Text
  | .binding => "binding".toList
  | .field => "field".toList

/-- The choices for one conversion. -/
structure Options where
  stateStyle : StateStyle
  importModule : Wide
  outputSuffix : Wide
  /-- How many characters of an effect its summary keeps; a negative number leaves off that many at
  the end. -/
  effectSummaryLength : Int
  deriving DecidableEq, Repr

/-- The options of an empty configuration. -/
def Options.standard : Options where
  stateStyle := .binding
  importModule := .ofText "../horizon_ui".toList
  outputSuffix := .ofText ".horizon.ts".toList
  effectSummaryLength := 50

end Recast
