import Recast.Config.Value
import Recast.Options

/-!
# Configuration fields

`readOptions` takes options from the entries of a configuration. Every field may be missing; a field
that is there has to be valid, and the first that is not, in the order of `Field`, is the fault.
Unknown fields do no harm (`unknownFields`).
-/

namespace Recast

/-- The fields of a configuration, in the order in which they are checked. -/
inductive Field where
  | stateStyle
  | importModule
  | outputSuffix
  | effectSummaryLength
  deriving DecidableEq, Repr

/-- The field's name. -/
def Field.name : Field → Text
  | .stateStyle => "state_style".toList
  | .importModule => "import_module".toList
  | .outputSuffix => "output_suffix".toList
  | .effectSummaryLength => "effect_summary_length".toList

/-- All fields. -/
def Field.all : List Field :=
  [.stateStyle, .importModule, .outputSuffix, .effectSummaryLength]

/-- What is wrong with a field. -/
inductive FieldFault where
  /-- The style is none of the known ones. -/
  | unknownStyle (got : Value)
  /-- A text field is blank or no text. -/
  | blank (field : Field)
  /-- The length is no integer. -/
  | notInteger (got : Value)
  /-- The length is not positive. -/
  | tooSmall (got : Int)

/-- The field that is wrong. -/
def FieldFault.field : FieldFault → Field
  | .unknownStyle _ => .stateStyle
  | .blank field => field
  | .notInteger _ => .effectSummaryLength
  | .tooSmall _ => .effectSummaryLength

/-- The wording of a fault. -/
def FieldFault.message (fault : FieldFault) : Text :=
  "Field '".toList ++ fault.field.name ++ "' must be ".toList
    ++ match fault with
      | .unknownStyle got =>
        "one of ".toList ++ joinComma [StateStyle.binding.name, StateStyle.field.name]
          ++ ", got ".toList ++ got.text
      | .blank _ => "a non-empty string".toList
      | .notInteger got => "an integer, got ".toList ++ got.typeName
      | .tooSmall got => "at least 1, got ".toList ++ showInt got

/-- Whether the wording of a fault would hold an integer that is too long to be written. -/
def FieldFault.isUnwritable : FieldFault → Bool
  | .unknownStyle got => got.isUnwritable
  | .tooSmall got => isTooLong got
  | _ => false

/-! ## Entries -/

/-- The entries of a configuration. -/
abbrev Entries := List (Value × Value)

/-- Whether a key is the name of a field. -/
def Field.isNamedBy (field : Field) : Value → Bool
  | .string key => key.isText field.name
  | _ => false

/-- The value of a field. -/
def Entries.get? (entries : Entries) (field : Field) : Option Value :=
  (entries.find? fun (key, _) => field.isNamedBy key).map (·.2)

/-- The keys that are no fields. -/
def unknownKeys (keys : List Value) : List Value :=
  keys.filter fun key => !Field.all.any (·.isNamedBy key)

/-- The names of the keys that are no fields, in order. -/
def unknownFields (keys : List Value) : List Wide :=
  ((unknownKeys keys).map Value.fieldName).mergeSort Wide.precedes

/-! ## Options -/

/-- The style that a value names. -/
def readStyle (value : Value) : Except FieldFault StateStyle :=
  match value with
  | .string t =>
    if t.isText StateStyle.binding.name then .ok .binding
    else if t.isText StateStyle.field.name then .ok .field
    else .error (.unknownStyle value)
  | _ => .error (.unknownStyle value)

/-- The trimmed text of a text field. -/
def readText (field : Field) (value : Value) : Except FieldFault Wide :=
  match value with
  | .string t => if t.isBlank then .error (.blank field) else .ok t.trim
  | _ => .error (.blank field)

/-- A positive length. -/
def readLength (value : Value) : Except FieldFault Int :=
  match value with
  | .int n => if n < 1 then .error (.tooSmall n) else .ok n
  | _ => .error (.notInteger value)

/-- What is read off a value, or the standard if there is none. -/
def readOr {α : Type} (standard : α) (read : Value → Except FieldFault α) (value? : Option Value) :
    Except FieldFault α :=
  match value? with
  | some value => read value
  | none => .ok standard

/-- The options that the values of the fields give. -/
def optionsOf (value? : Field → Option Value) : Except FieldFault Options := do
  let standard := Options.standard
  let stateStyle ← readOr standard.stateStyle readStyle (value? .stateStyle)
  let importModule ← readOr standard.importModule (readText .importModule) (value? .importModule)
  let outputSuffix ← readOr standard.outputSuffix (readText .outputSuffix) (value? .outputSuffix)
  let effectSummaryLength ← readOr standard.effectSummaryLength readLength
      (value? .effectSummaryLength)
  return { stateStyle, importModule, outputSuffix, effectSummaryLength }

/-- The options that the entries of a configuration give. -/
def readOptions (entries : Entries) : Except FieldFault Options :=
  optionsOf entries.get?

/-- A configuration that gives the options back. -/
def Options.entries (options : Options) : Entries :=
  [(.string (.ofText Field.stateStyle.name), .string (.ofText options.stateStyle.name)),
   (.string (.ofText Field.importModule.name), .string options.importModule),
   (.string (.ofText Field.outputSuffix.name), .string options.outputSuffix),
   (.string (.ofText Field.effectSummaryLength.name), .int options.effectSummaryLength)]

end Recast
