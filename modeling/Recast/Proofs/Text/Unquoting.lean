import Mathlib.Tactic.Common
import Mathlib.Tactic.SplitIfs
import Recast.Number.Reading
import Recast.Text.Quoted

/-!
# Reading quoted literals

`unquote?` reads a double-quoted literal: a backslash stands before a quote, a backslash or a slash,
before the letter of a control character, or before the number of a character in four hexadecimal
digits. The literal has to be the whole text, and a control character does not stand in it as it is.
A text in quotes reads as the text (`unquote?_quote`).
-/

namespace Recast

/-- The character that one character behind a backslash stands for. -/
def shortEscape? (c : Char) : Option Char :=
  if c = '"' || c = '\\' || c = '/' then some c
  else if c = 'n' then some '\n'
  else if c = 'r' then some '\r'
  else if c = 't' then some '\t'
  else if c = 'b' then some (Char.ofNat 8)
  else if c = 'f' then some (Char.ofNat 12)
  else none

/-- The character whose number stands in hexadecimal digits; half of a surrogate pair is none. -/
def numberedChar? (digits : Text) : Option Char :=
  if digits.all (isBaseDigit 16) && decide (numberOf 16 digits).isValidChar then
    some (Char.ofNat (numberOf 16 digits))
  else none

/-- The text that the inside of a literal stands for, up to its closing quote at the end of the
text. -/
def unescape? : Text → Option Text
  | [] => none
  | c :: cs =>
    if c = '"' then if cs.isEmpty then some [] else none
    else if c = '\\' then
      match cs with
      | 'u' :: a :: b :: d :: e :: rest =>
        (numberedChar? [a, b, d, e]).bind fun x => (unescape? rest).map (x :: ·)
      | d :: rest => (shortEscape? d).bind fun x => (unescape? rest).map (x :: ·)
      | [] => none
    else if c.toNat < 0x20 then none
    else (unescape? cs).map (c :: ·)

/-- The text that a double-quoted literal stands for. -/
def unquote? : Text → Option Text
  | [] => none
  | c :: cs => if c = '"' then unescape? cs else none

/-! ## What quoting writes -/

theorem unescape?_short {d x : Char} (letter : d ≠ 'u') (escape : shortEscape? d = some x)
    (rest : Text) : unescape? ('\\' :: d :: rest) = (unescape? rest).map (x :: ·) := by
  rw [unescape?.eq_def]
  simp only [Char.reduceEq, if_false, if_true]
  split
  · rename_i same
    exact absurd (List.cons.inj same).1 letter
  · rename_i same
    obtain ⟨rfl, rfl⟩ := List.cons.inj same
    rw [escape, Option.bind_some]
  · rename_i same
    cases same

/-- A control character is read back from its number. -/
theorem unescape?_numbered {c : Char} (control : c.toNat < 0x20) (rest : Text) :
    unescape? ('\\' :: 'u' :: (hexDigits 4 c.toNat ++ rest)) = (unescape? rest).map (c :: ·) := by
  have table : ∀ n < 0x20, numberedChar? (hexDigits 4 n) = some (Char.ofNat n) := by decide
  have read := table c.toNat control
  rw [Char.ofNat_toNat] at read
  have digits : ∀ n, hexDigits 4 n =
      [hexDigit (n / 16 / 16 / 16 % 16), hexDigit (n / 16 / 16 % 16), hexDigit (n / 16 % 16),
        hexDigit (n % 16)] :=
    fun _ => rfl
  rw [digits] at read ⊢
  rw [unescape?.eq_def]
  simp only [Char.reduceEq, if_false, if_true, List.cons_append, List.nil_append]
  rw [read, Option.bind_some]

theorem unescape?_escapeChar (c : Char) (rest : Text) :
    unescape? (escapeChar c ++ rest) = (unescape? rest).map (c :: ·) := by
  have numbered : ∀ n : Nat, c.toNat = n → c = Char.ofNat n := by
    rintro n rfl
    rw [Char.ofNat_toNat]
  rw [escapeChar]
  split_ifs with quote backslash line back tab b f control
  · subst quote
    exact unescape?_short (by decide) rfl rest
  · subst backslash
    exact unescape?_short (by decide) rfl rest
  · subst line
    exact unescape?_short (by decide) rfl rest
  · subst back
    exact unescape?_short (by decide) rfl rest
  · subst tab
    exact unescape?_short (by decide) rfl rest
  · rw [numbered 8 b]
    exact unescape?_short (by decide) rfl rest
  · rw [numbered 12 f]
    exact unescape?_short (by decide) rfl rest
  · exact unescape?_numbered control rest
  · rw [List.singleton_append, unescape?.eq_def]
    simp only [quote, backslash, control, if_false]

/-- The inside of a text in quotes, with the closing quote. -/
theorem unescape?_escaped (t : Text) : unescape? (t.flatMap escapeChar ++ ['"']) = some t := by
  induction t with
  | nil => rfl
  | cons c cs ih =>
    rw [List.flatMap_cons, List.append_assoc, unescape?_escapeChar, ih, Option.map_some]

/-- A text in quotes reads as the text. -/
theorem unquote?_quote (t : Text) : unquote? (quote t) = some t := by
  rw [quote, List.cons_append, unquote?, if_pos rfl, unescape?_escaped]

end Recast
