import Recast.Number.Binary64
import Recast.Text.Digit
import Recast.Text.Wide

/-!
# Reading numbers

`readInteger` and `readBinary64?` read a number off a text that holds nothing else but blanks around
it. Digits of all scripts count. An integer may have the mark of its base before its digits and
single underscores between them, and in base ten it has at most `mostDigits` digits.
-/

namespace Recast

/-- The ASCII character that a code point counts as: a space for a blank, a digit for a digit of any
script. -/
def plainChar : CodePoint → Char
  | .half _ => '?'
  | .char c =>
    if c.toNat < 0x80 then c
    else if isBlank c then ' '
    else
      match digitValue? c with
      | some n => Char.ofNat ('0'.toNat + n)
      | none => '?'

/-- A space, a tab, or one of the ASCII line ends. -/
def isPlainBlank (c : Char) : Bool :=
  c == ' ' || (9 ≤ c.toNat && c.toNat ≤ 13)

/-- The characters that a number is read off, without the blanks around them. -/
def numeral (w : Wide) : Text :=
  dropEndWhile isPlainBlank ((w.map plainChar).dropWhile isPlainBlank)

/-- The number that a digit of a base up to thirty-six stands for. -/
def baseDigit? (c : Char) : Option Nat :=
  if '0' ≤ c && c ≤ '9' then some (c.toNat - '0'.toNat)
  else if 'a' ≤ c && c ≤ 'z' then some (c.toNat - 'a'.toNat + 10)
  else if 'A' ≤ c && c ≤ 'Z' then some (c.toNat - 'A'.toNat + 10)
  else none

/-- Whether a character is a digit of a base. -/
def isBaseDigit (base : Nat) (c : Char) : Bool :=
  (baseDigit? c).any (· < base)

/-- The number that digits of a base stand for. -/
def numberOf (base : Nat) (digits : Text) : Nat :=
  digits.foldl (fun n c => n * base + (baseDigit? c).getD 0) 0

/-- The sign at the start of a number and the rest: whether it is negative. -/
def splitSign : Text → Bool × Text
  | '-' :: cs => (true, cs)
  | '+' :: cs => (false, cs)
  | cs => (false, cs)

/-- The letter that marks a base after a zero. -/
def baseMark? (base : Nat) : Option Char :=
  if base = 2 then some 'b' else if base = 8 then some 'o' else if base = 16 then some 'x' else none

/-- The digits after the mark of the base, if it is there; an underscore may follow the mark. -/
def dropBaseMark (base : Nat) : Text → Text
  | '0' :: c :: cs =>
    if baseMark? base = some c.toLower then (dropHead? ['_'] cs).getD cs else '0' :: c :: cs
  | cs => cs

/-! ## Integers -/

/-- How many decimal digits an integer may be read off or written with. -/
def mostDigits : Nat := 4300

/-- Whether an integer has more decimal digits than can be written. -/
def isTooLong (n : Int) : Bool :=
  Nat.pow 10 mostDigits ≤ n.natAbs

/-- Why a text is no integer. -/
inductive IntegerFault where
  /-- It has another form. -/
  | form
  /-- It has too many digits. -/
  | digits (count : Nat)
  deriving DecidableEq, Repr

/-- Whether underscores stand alone between other characters only. -/
def hasInnerUnderscores (t : Text) : Bool :=
  (splitOn '_' t).all (!·.isEmpty)

/-- The integer that a text stands for in a base. -/
def readInteger (base : Nat) (w : Wide) : Except IntegerFault Int :=
  let (negative, body) := splitSign (numeral w)
  let body := dropBaseMark base body
  let run := body.takeWhile fun c => c == '_' || isBaseDigit base c
  let digits := run.filter (· ≠ '_')
  if !hasInnerUnderscores run then .error .form
  else if (baseMark? base).isNone && mostDigits < digits.length then .error (.digits digits.length)
  else if run.length < body.length then .error .form
  else
    let n : Int := numberOf base digits
    .ok (if negative then -n else n)

/-! ## Numbers with a point -/

/-- The exponent at the end of a number: a letter, perhaps a sign, and digits. -/
def readExponent? : Text → Option Int
  | [] => some 0
  | e :: cs =>
    let (negative, digits) := splitSign cs
    if e.toLower == 'e' && !digits.isEmpty && digits.all Char.isDigit then
      let n : Int := numberOf 10 digits
      some (if negative then -n else n)
    else none

/-- A number in decimal digits, with or without a point. -/
def readDecimal? (negative : Bool) (t : Text) : Option Binary64 := do
  let whole := t.takeWhile Char.isDigit
  let rest := t.dropWhile Char.isDigit
  let (fraction, rest) := match rest with
    | '.' :: cs => (cs.takeWhile Char.isDigit, cs.dropWhile Char.isDigit)
    | cs => ([], cs)
  if whole.isEmpty && fraction.isEmpty then none
  let exponent ← readExponent? rest
  return .ofDecimal negative (numberOf 10 (whole ++ fraction)) (exponent - fraction.length)

/-- The number nearest to what a text stands for. -/
def readBinary64? (w : Wide) : Option Binary64 :=
  let (negative, body) := splitSign (numeral w)
  let word := String.ofList (body.map Char.toLower)
  if word = "inf" || word = "infinity" then some (.infinite negative)
  else if word = "nan" then some .nan
  else readDecimal? negative body

end Recast
