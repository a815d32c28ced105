import Recast.Number.Reading

/-!
# Tags and forms

A `Tag` says what kind of value a node stands for. A scalar without one is told by its form: a word
for nothing or for a truth value, an integer in one of five forms, a number with a point, a date or
a moment, and a text otherwise. One line end after a form does not count.
-/

namespace Recast.Yaml

/-- What kind of value a node stands for. -/
inductive Tag where
  | null
  | bool
  | int
  | float
  | binary
  | moment
  | string
  | sequence
  | mapping
  | set
  /-- A sequence of mappings with one entry each. -/
  | pairs
  /-- As a key: the entries of the value belong to the mapping. -/
  | merge
  /-- As a key: the value stands for the whole mapping. -/
  | value
  | unknown
  deriving DecidableEq, Repr

/-- The start of the names of all tags with a meaning. -/
def tagStart : Text :=
  "tag:yaml.org,2002:".toList

/-- The tag with a full name. -/
def Tag.ofName (name : Text) : Tag :=
  match (dropHead? tagStart name).map String.ofList with
  | some "null" => .null
  | some "bool" => .bool
  | some "int" => .int
  | some "float" => .float
  | some "binary" => .binary
  | some "timestamp" => .moment
  | some "str" => .string
  | some "seq" => .sequence
  | some "map" => .mapping
  | some "set" => .set
  | some "omap" => .pairs
  | some "pairs" => .pairs
  | some "merge" => .merge
  | some "value" => .value
  | _ => .unknown

/-! ## Words -/

/-- Whether a text is one of some words. -/
def isWord (words : List String) (t : Text) : Bool :=
  words.any (·.toList = t)

/-- The words for nothing. -/
def nullWords : List String :=
  ["~", "null", "Null", "NULL", ""]

/-- The words for a truth value. -/
def boolWords : List String :=
  ["yes", "Yes", "YES", "no", "No", "NO", "true", "True", "TRUE", "false", "False", "FALSE",
   "on", "On", "ON", "off", "Off", "OFF"]

/-! ## Numbers -/

/-- A text of digits of a base and underscores, at least one of them. -/
def isDigits (base : Nat) (t : Text) : Bool :=
  !t.isEmpty && t.all fun c => c == '_' || isBaseDigit base c

/-- Digits and underscores after a digit. -/
def isNumber (t : Text) : Bool :=
  t.head?.any Char.isDigit && isDigits 10 t

/-- One or two digits, of which the first is below six if there are two. -/
def isSixtieth : Text → Bool
  | [a] => a.isDigit
  | [a, b] => '0' ≤ a && a ≤ '5' && b.isDigit
  | _ => false

/-- An integer: binary, octal, hexadecimal, decimal, or in sixtieths. -/
def isIntForm (t : Text) : Bool :=
  match (splitSign t).2 with
  | '0' :: 'b' :: digits => isDigits 2 digits
  | '0' :: 'x' :: digits => isDigits 16 digits
  | ['0'] => true
  | '0' :: digits => isDigits 8 digits
  | body =>
    match Recast.splitOn ':' body with
    | whole :: parts => isNumber whole && parts.all isSixtieth
    | [] => false

/-- An exponent with a sign, or nothing. -/
def isExponent : Text → Bool
  | [] => true
  | e :: sign :: digits =>
    (e == 'e' || e == 'E') && (sign == '+' || sign == '-') && !digits.isEmpty &&
      digits.all Char.isDigit
  | _ => false

/-- The digits after a point, and an exponent. -/
def isFraction (t : Text) : Bool :=
  isExponent (t.dropWhile fun c => c.isDigit || c == '_')

/-- A number with a point, in sixtieths or not, or one of the three numbers that have no digits. -/
def isFloatForm (t : Text) : Bool :=
  let body := (splitSign t).2
  let unsigned := body.length == t.length
  match cutAt? '.' body with
  | none => false
  | some ([], rest) =>
    isWord ["inf", "Inf", "INF"] rest
      || (unsigned &&
        (isWord ["nan", "NaN", "NAN"] rest || (rest.head?.any Char.isDigit && isFraction rest)))
  | some (before, rest) =>
    match Recast.splitOn ':' before with
    | [whole] => isNumber whole && isFraction rest
    | whole :: parts =>
      isNumber whole && parts.all isSixtieth && rest.all fun c => c.isDigit || c == '_'
    | [] => false

/-! ## Moments -/

/-- The parts of a date, perhaps with a time and an offset from universal time. -/
structure MomentForm where
  year : Nat
  month : Nat
  day : Nat
  /-- Hour, minute, second, the digits after the point and the offset in minutes. -/
  time? : Option (Nat × Nat × Nat × Text × Option Int)

/-- The number of `least` up to `most` digits at the start of a text, and the text after them. -/
def takeNumber? (least most : Nat) (t : Text) : Option (Nat × Text) :=
  let digits := (t.takeWhile Char.isDigit).take most
  if digits.length < least then none else some (numberOf 10 digits, t.drop digits.length)

/-- The offset from universal time, in minutes, if there is one. -/
def readOffset? (t : Text) : Option (Option Int) :=
  match t.dropWhile isIndent with
  | [] => if t.isEmpty then some none else none
  | ['Z'] => some (some 0)
  | sign :: rest =>
    if sign == '+' || sign == '-' then do
      let (hours, rest) ← takeNumber? 1 2 rest
      let (minutes, rest) ← match rest with
        | ':' :: rest => takeNumber? 2 2 rest
        | rest => some (0, rest)
      if !rest.isEmpty then none
      let offset : Int := hours * 60 + minutes
      some (some (if sign == '-' then -offset else offset))
    else none

/-- A time after a date. -/
def readTime? (t : Text) : Option (Nat × Nat × Nat × Text × Option Int) := do
  let t ← match t with
    | [] => none
    | c :: cs =>
      if c == 'T' || c == 't' then some cs
      else if isIndent c then some (cs.dropWhile isIndent)
      else none
  let (hour, t) ← takeNumber? 1 2 t
  let (minute, t) ← takeNumber? 2 2 (← dropHead? [':'] t)
  let (second, t) ← takeNumber? 2 2 (← dropHead? [':'] t)
  let (fraction, t) := match t with
    | '.' :: t => (t.takeWhile Char.isDigit, t.dropWhile Char.isDigit)
    | t => ([], t)
  return (hour, minute, second, fraction, ← readOffset? t)

/-- The parts of a date or a moment. -/
def momentForm? (t : Text) : Option MomentForm := do
  let (year, rest) ← takeNumber? 4 4 t
  let (month, rest) ← takeNumber? 1 2 (← dropHead? ['-'] rest)
  let (day, rest) ← takeNumber? 1 2 (← dropHead? ['-'] rest)
  if rest.isEmpty then return ⟨year, month, day, none⟩
  else return ⟨year, month, day, some (← readTime? rest)⟩

/-- The form of a date or a moment: a date alone has two digits for the month and for the day. -/
def isMomentForm (t : Text) : Bool :=
  (momentForm? t).any fun form => form.time?.isSome || t.length == 10

/-! ## All forms -/

/-- A text without one line end after it. -/
def dropLineEnd (t : Text) : Text :=
  if t.getLast? = some '\n' then t.dropLast else t

/-- The tag of a text, told by its form. -/
def Tag.ofText (t : Text) : Tag :=
  let body := dropLineEnd t
  if body.isEmpty && !t.isEmpty then .string
  else if isWord boolWords body then .bool
  else if isFloatForm body then .float
  else if isIntForm body then .int
  else if isWord ["<<"] body then .merge
  else if isWord nullWords body then .null
  else if isMomentForm body then .moment
  else if isWord ["="] body then .value
  else if isWord ["!", "&", "*"] body then .unknown
  else .string

/-- The tag of a scalar, told by its form. -/
def Tag.ofContent (content : Wide) : Tag :=
  (content.text?.map Tag.ofText).getD .string

end Recast.Yaml
