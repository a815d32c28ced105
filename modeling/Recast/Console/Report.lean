import Recast.Console.Display
import Recast.Source.Conversion

/-!
# The printed report

What the console shows of a run: single messages with a sign of their kind, and the report of a
conversion, which lists components, errors and warnings and ends with the verdict. The verbosity
decides how much of it is shown.
-/

namespace Recast.Console

/-- A message of success. -/
def success (message : Text) : Text :=
  Display.line ("✓ ".toList ++ Display.message message)

/-- A message of an error. -/
def error (message : Text) : Text :=
  Display.line ("✗ ".toList ++ Display.message message)

/-- A message of a warning. -/
def warning (message : Text) : Text :=
  Display.line ("⚠ ".toList ++ Display.message message)

/-- A message that is shown from verbosity 1 on. -/
def info (verbosity : Int) (message : Text) : Text :=
  if 1 ≤ verbosity then Display.line (Display.message message) else []

/-- A message that is shown from verbosity 2 on. -/
def debug (verbosity : Int) (message : Text) : Text :=
  if 2 ≤ verbosity then Display.line (Display.faint message) else []

/-- A list of names under a component, if there are any. -/
def details (label : Text) (values : List Text) : Text :=
  if values.isEmpty then []
  else Display.line ("      ".toList ++ label ++ ": ".toList ++ Display.message (joinComma values))

/-- A component and what it has. -/
def component (record : ComponentRecord) : Text :=
  Display.line ("  • ".toList ++ Display.message record.name
      ++ if record.isClass then " (class)".toList else " (functional)".toList)
    ++ details "props".toList record.props
    ++ details "state".toList record.state
    ++ details "effects".toList record.effects

/-- A list of messages under a title with their number, if there are any. -/
def messages (title : Text) (item : Text → Text) (texts : List Text) : Text :=
  if texts.isEmpty then []
  else Display.line ("\n".toList ++ title ++ " (".toList ++ showNat texts.length ++ "):".toList)
    ++ texts.flatMap item

/-- The report of a conversion. -/
def report (verbosity : Int) (r : Report) : Text :=
  (if r.components.isEmpty || verbosity < 1 then []
    else Display.line "\nComponents:".toList ++ r.components.flatMap component)
  ++ messages "Errors".toList error r.errors
  ++ messages "Warnings".toList warning r.warnings
  ++ Display.line (if r.success then "\nConversion completed successfully".toList
    else "\nConversion failed".toList)

end Recast.Console
