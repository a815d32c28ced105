import Recast.Number.Reading

/-!
# Faults of a document

A document that breaks a rule of the notation is malformed. Other faults lie in what a scalar says:
it has the form or the tag of some kind of value and stands for none of that kind (`ValueFault`).
-/

namespace Recast.Yaml

/-- Why there is no value. -/
inductive ValueFault where
  /-- A word is no truth value. -/
  | noTruth (word : Wide)
  /-- A number has no digits at all. -/
  | noDigits
  /-- A text is no integer in a base. -/
  | notInteger (base : Nat) (text : Wide)
  /-- An integer has too many digits to be read. -/
  | tooManyDigits (count : Nat)
  /-- A text is no number. -/
  | notNumber (text : Wide)
  /-- A whole number is beyond all floating-point numbers. -/
  | beyondNumbers
  /-- A text is no moment. -/
  | notMoment
  /-- A moment is asked of a mapping. -/
  | momentOfMapping
  /-- A moment is on no calendar or clock. -/
  | offCalendar (problem : Text)
  /-- An escape names no code point. -/
  | noCharacter (code : Nat)
  /-- An integer has too many digits to be written. -/
  | unwritable
  /-- The text of a mapping is the text of itself. -/
  | endless
  deriving DecidableEq, Repr

/-- How a message speaks of too many digits. -/
def digitsMessage (detail : Text) : Text :=
  "Exceeds the limit (".toList ++ showNat mostDigits ++
    " digits) for integer string conversion".toList ++ detail
    ++ "; use sys.set_int_max_str_digits() to increase the limit".toList

/-- The wording of a fault. -/
def ValueFault.message : ValueFault → Text
  | .noTruth word => word.shown
  | .noDigits => "string index out of range".toList
  | .notInteger base text =>
    "invalid literal for int() with base ".toList ++ showNat base ++ ": ".toList ++
      text.shown.take 200
  | .tooManyDigits count =>
    digitsMessage (": value has ".toList ++ showNat count ++ " digits".toList)
  | .notNumber text => "could not convert string to float: ".toList ++ text.shown
  | .beyondNumbers => "int too large to convert to float".toList
  | .notMoment => "'NoneType' object has no attribute 'groupdict'".toList
  | .momentOfMapping => "expected string or bytes-like object, got 'list'".toList
  | .offCalendar problem => problem
  | .noCharacter code =>
    if code < Nat.pow 2 31 then "chr() arg not in range(0x110000)".toList
    else "Python int too large to convert to C int".toList
  | .unwritable => digitsMessage []
  | .endless => "maximum recursion depth exceeded".toList

/-- Why a document has no value. -/
inductive Fault where
  /-- The document breaks a rule of the notation. -/
  | malformed
  /-- Something in it stands for no value. -/
  | noValue (cause : ValueFault)
  deriving DecidableEq, Repr

/-- An integer in a base. -/
def integer (base : Nat) (w : Wide) : Except Fault Int :=
  (readInteger base w).mapError fun
    | .form => .noValue (.notInteger base w)
    | .digits count => .noValue (.tooManyDigits count)

end Recast.Yaml
