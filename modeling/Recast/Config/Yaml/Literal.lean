import Recast.Config.Moment
import Recast.Config.Value
import Recast.Config.Yaml.Fault
import Recast.Config.Yaml.Form
import Recast.Number.Arithmetic
import Recast.Text.Base64

/-!
# Literals

`literal` gives the value of a scalar with a tag. Every kind of value has its own notation, which is
wider than the forms that tell an untagged scalar. A scalar whose content does not fit its tag
stands for no value.
-/

namespace Recast.Yaml

/-- A truth value: six words in any case. -/
def readBool (content : Wide) : Except Fault Bool :=
  let word := content.lower
  if ["yes", "true", "on"].any (word.isText ·.toList) then .ok true
  else if ["no", "false", "off"].any (word.isText ·.toList) then .ok false
  else .error (.noValue (.noTruth word))

/-! ## Numbers -/

/-- The content of a number without underscores. -/
def dropUnderscores (content : Wide) : Wide :=
  content.filter (· ≠ .char '_')

/-- The sign at the start of a number, which may not be empty, and the rest: whether it is
negative. -/
def numberSign : Wide → Except Fault (Bool × Wide)
  | [] => .error (.noValue .noDigits)
  | .char '-' :: rest => .ok (true, rest)
  | .char '+' :: rest => .ok (false, rest)
  | rest => .ok (false, rest)

/-- The number that parts stand for, each worth sixty times the one after it. -/
def sixtieths (parts : List Int) : Int :=
  parts.foldl (fun n part => n * 60 + part) 0

/-- An integer without its sign. The base is told by what the digits start with. -/
def readMagnitude (body : Wide) : Except Fault Int :=
  match body with
  | [] => .error (.noValue .noDigits)
  | [.char '0'] => .ok 0
  | .char '0' :: .char 'b' :: digits => integer 2 digits
  | .char '0' :: .char 'x' :: digits => integer 16 digits
  | .char '0' :: _ => integer 8 body
  | _ =>
    if body.contains (.char ':') then ((body.splitOn ':').mapM (integer 10)).map sixtieths
    else integer 10 body

/-- An integer. -/
def readInt (content : Wide) : Except Fault Int := do
  let (negative, body) ← numberSign (dropUnderscores content)
  let n ← readMagnitude body
  return if negative then -n else n

/-- A number off a text. -/
def readNumber (w : Wide) : Except Fault Binary64 :=
  match readBinary64? w with
  | some x => .ok x
  | none => .error (.noValue (.notNumber w))

/-- The sum of parts, the last one first, each times a power of sixty; every step is rounded. -/
def addSixtieths (sum : Binary64) (weight : Nat) : List Binary64 → Except Fault Binary64
  | [] => .ok sum
  | part :: parts =>
    match Binary64.ofNat? weight with
    | none => .error (.noValue .beyondNumbers)
    | some x => addSixtieths (sum.add (part.mul x)) (weight * 60) parts

/-- A floating-point number. -/
def readFloat (content : Wide) : Except Fault Binary64 := do
  let (negative, body) ← numberSign (dropUnderscores content).lower
  let x ←
    if body.isText ".inf".toList then .ok (.infinite false)
    else if body.isText ".nan".toList then .ok .nan
    else if body.contains (.char ':') then do
      let parts ← (body.splitOn ':').mapM readNumber
      addSixtieths (.finite false 0 0) 1 parts.reverse
    else readNumber body
  return if negative then x.neg else x

/-- Whether a floating-point number is written as the one that is no number. All of these are the
same key. -/
def isSharedNan (content : Wide) : Bool :=
  match numberSign (dropUnderscores content).lower with
  | .ok (_, body) => body.isText ".nan".toList
  | .error _ => false

/-! ## Moments -/

/-- Millionths of a second from the digits after the point. -/
def microseconds (digits : Text) : Nat :=
  let digits := digits.take 6
  numberOf 10 (digits ++ List.replicate (6 - digits.length) '0')

/-- Why an offset is too large. -/
def offsetFault? (offset? : Option Int) : Option Text :=
  match offset? with
  | some offset =>
    if offset.natAbs < 1440 then none
    else some
      ("offset must be a timedelta strictly between -timedelta(hours=24) and ".toList
      ++ "timedelta(hours=24), not ".toList ++ differenceText offset ++ ".".toList)
  | none => none

/-- The value, unless something is wrong with it. -/
def sound (fault? : Option Text) (value : Value) : Except Fault Value :=
  match fault? with
  | some problem => .error (.noValue (.offCalendar problem))
  | none => .ok value

/-- The date or moment that a form stands for. -/
def MomentForm.value (form : MomentForm) : Except Fault Value :=
  let date : Date := ⟨form.year, form.month, form.day⟩
  match form.time? with
  | none => sound date.fault? (.date date)
  | some (hour, minute, second, fraction, offset?) =>
    let moment : Moment := ⟨date, hour, minute, second, microseconds fraction, offset?⟩
    sound (offsetFault? offset? <|> moment.fault?) (.moment moment)

/-- A date or a moment. -/
def readMoment (content : Wide) : Except Fault Value :=
  match content.text?.bind fun t => momentForm? (dropLineEnd t) with
  | some form => form.value
  | none => .error (.noValue .notMoment)

/-! ## All kinds -/

/-- Bytes in base 64. Only ASCII characters may stand in them. -/
def readBytes (content : Wide) : Except Fault (List UInt8) :=
  match content.text? with
  | some t =>
    if t.all (·.toNat < 0x80) then
      match base64Bytes? t with
      | some bytes => .ok bytes
      | none => .error .malformed
    else .error .malformed
  | none => .error .malformed

/-- The value of a scalar with a tag. -/
def literal (tag : Tag) (content : Wide) : Except Fault Value :=
  match tag with
  | .null => .ok .null
  | .bool => (readBool content).map .bool
  | .int => (readInt content).map .int
  | .float => (readFloat content).map .float
  | .binary => (readBytes content).map .bytes
  | .moment => readMoment content
  | .string => .ok (.string content)
  | _ => .error .malformed

end Recast.Yaml
