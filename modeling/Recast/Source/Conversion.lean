import Recast.Source.Import
import Recast.Stack.Component

/-!
# Conversion of a source

`convert` takes a source through all steps: imports out, functional components, class components,
header in front. Calls may nest up to `callLimit`. A failure ends it with no code; the warnings up
to it stay. `convertAll` converts several sources one after the other.
-/

namespace Recast

/-- The source with all components converted. -/
def convertComponents (options : Options) (source : Text) : Outcome Text := do
  let functionals ← convertFunctionals options source
  convertClasses options functionals

/-- How many calls that call each other may be open at once. -/
def callLimit : Nat := 1000

/-- The steps of a conversion with room for `limit` calls, with a warning if there was nothing to
convert. -/
def convertSourceWithin (limit : Nat) (options : Options) (source : Text) : Attempt Wide :=
  let converted := do
    let body ← convertComponentsWithin limit options (stripImports source)
    return importHeader options ++ Wide.ofText ("\n\n".toList ++ trim body ++ "\n".toList)
  match converted.result with
  | .error _ => converted
  | .ok _ =>
    if converted.journal.components.isEmpty then
      ⟨converted.journal ++ [.warned .noComponents], converted.result⟩
    else converted

/-- The steps of a conversion. -/
def convertSource (options : Options) (source : Text) : Attempt Wide :=
  convertSourceWithin callLimit options source

/-- What a conversion reports. -/
structure Report where
  success : Bool
  code : Wide
  errors : List Text
  warnings : List Text
  components : List ComponentRecord
  deriving DecidableEq, Repr

/-- The text of the one error of a failed conversion. -/
def failureMessage (failure : Failure) : Text :=
  "Conversion failed: ".toList ++ failure.message

/-- The report of an attempt. -/
def Attempt.report (attempt : Attempt Wide) : Report :=
  let warnings := attempt.journal.warnings.map (·.message)
  match attempt.result with
  | .ok code => ⟨true, code, [], warnings, attempt.journal.components⟩
  | .error failure => ⟨false, [], [failureMessage failure], warnings, []⟩

/-- Converts a source with room for `limit` calls and reports. -/
def convertWithin (limit : Nat) (options : Options) (source : Text) : Report :=
  (convertSourceWithin limit options source).report

/-- Converts a source and reports. -/
def convert (options : Options) (source : Text) : Report :=
  convertWithin callLimit options source

/-! ## Sessions -/

/-- Where a converter stands. -/
inductive Phase where
  | idle
  | completed
  | failed
  deriving DecidableEq, Repr

/-- The phase after a conversion. -/
def Report.phase (report : Report) : Phase :=
  if report.success then .completed else .failed

/-- The reports of several sources, converted one after the other. -/
def convertAll (options : Options) (sources : List Text) : List Report :=
  sources.map (convert options)

end Recast
