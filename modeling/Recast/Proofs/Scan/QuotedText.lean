import Recast.Proofs.Scan.Passage
import Recast.Proofs.Text.Unquoting

/-!
# Quoted texts are single literals

Two readers go over a double-quoted literal. `unquote?` gives the text that it stands for and takes
a numbered escape as six characters; the scanner looks for the closing quote only, and a backslash
hides just the one character after it. They stay in step all the same: the digits of a number, which
the scanner reads as they are, are neither quotes nor backslashes (`literalEnd_digits`). So a
literal that can be read ends for the scanner where it ends for its reader
(`literalEnd_of_unescape?`), whatever stands before and behind it (`literalEndAt_of_unquote?`).

What `quote` writes can be read, and is read as the text it was written from. It is therefore one
literal wherever it is put, and no two texts are written alike (`quote_one_literal`).
-/

namespace Recast

/-! ## Literals that can be read -/

/-- A digit has no meaning of its own in a literal. -/
theorem ne_of_isBaseDigit {base : Nat} {c : Char} (digit : isBaseDigit base c) :
    c ≠ '\\' ∧ c ≠ '"' := by
  constructor
  · rintro rfl
    exact Bool.false_ne_true digit
  · rintro rfl
    exact Bool.false_ne_true digit

/-- The digits of a number are passed over. -/
theorem literalEnd_digits {digits : Text} (valid : digits.all (isBaseDigit 16)) (rest : Text)
    (pos : Nat) :
    literalEnd '"' pos 0 (digits ++ rest) = literalEnd '"' (pos + digits.length) 0 rest := by
  induction digits generalizing pos with
  | nil => rfl
  | cons c cs ih =>
    obtain ⟨first, others⟩ := Bool.and_eq_true_iff.1 valid
    obtain ⟨backslash, quote⟩ := ne_of_isBaseDigit first
    rw [List.cons_append, literalEnd_ordinary backslash quote (.inl (by decide)), ih others,
      List.length_cons, Nat.add_right_comm, Nat.add_assoc]

theorem all_isBaseDigit_of_numberedChar? {digits : Text} {c : Char}
    (named : numberedChar? digits = some c) : digits.all (isBaseDigit 16) := by
  rw [numberedChar?] at named
  split at named
  · exact (Bool.and_eq_true_iff.1 ‹_›).1
  · cases named

/-- The inside of a literal that can be read ends at its closing quote, the first one that no
backslash hides. -/
theorem literalEnd_of_unescape? {w t : Text} (read : unescape? w = some t) (pos : Nat)
    (rest : Text) : literalEnd '"' pos 0 (w ++ rest) = pos + w.length := by
  -- Along the reader: each of its escapes is a whole number of the scanner's steps.
  fun_induction unescape? w generalizing t pos with
  | case1 => cases read
  | case2 cs last =>
    rw [List.isEmpty_iff.1 last]
    exact literalEnd_close (by decide) pos rest
  | case3 => cases read
  | case4 a b d e cs _ ih =>
    obtain ⟨c, named, others⟩ := Option.bind_eq_some_iff.1 read
    obtain ⟨_, found, -⟩ := Option.map_eq_some_iff.1 others
    have digits := literalEnd_digits (all_isBaseDigit_of_numberedChar? named) (cs ++ rest) (pos + 2)
    rw [List.cons_append, List.cons_append, literalEnd_escape]
    refine digits.trans ((ih found _).trans ?_)
    simp only [List.length_cons, List.length_nil]
    omega
  | case5 d cs _ _ ih =>
    obtain ⟨c, -, others⟩ := Option.bind_eq_some_iff.1 read
    obtain ⟨_, found, -⟩ := Option.map_eq_some_iff.1 others
    rw [List.cons_append, List.cons_append, literalEnd_escape, ih found, List.length_cons,
      List.length_cons]
    omega
  | case6 => cases read
  | case7 => cases read
  | case8 c cs quote backslash _ ih =>
    obtain ⟨_, found, -⟩ := Option.map_eq_some_iff.1 read
    rw [List.cons_append, literalEnd_ordinary backslash quote (.inl (by decide)), ih found,
      List.length_cons]
    omega

/-- A literal that can be read is one literal, whatever stands before and behind it. -/
theorem literalEndAt_of_unquote? {w t : Text} (read : unquote? w = some t) (front rest : Text) :
    literalEndAt (front ++ w ++ rest) front.length = front.length + w.length := by
  fun_cases unquote? w with
  | case1 => cases read
  | case2 cs =>
    have here : (front ++ '"' :: cs ++ rest).drop front.length = '"' :: (cs ++ rest) := by
      rw [List.append_assoc, List.drop_left, List.cons_append]
    rw [unquote?, if_pos rfl] at read
    rw [literalEndAt, here]
    refine (literalEnd_of_unescape? read (front.length + 1) rest).trans ?_
    rw [List.length_cons, Nat.add_assoc, Nat.add_comm 1]
  | case3 c cs other =>
    rw [unquote?, if_neg other] at read
    cases read

/-! ## Texts in quotes -/

/-- The inside of a text in quotes ends at its closing quote. -/
theorem literalEnd_escaped (rest t : Text) (pos : Nat) :
    literalEnd '"' pos 0 (t.flatMap escapeChar ++ '"' :: rest) =
      pos + (t.flatMap escapeChar).length + 1 := by
  have inside := literalEnd_of_unescape? (unescape?_escaped t) pos rest
  rwa [List.append_assoc, List.length_append, ← Nat.add_assoc] at inside

/-- A text in quotes is one literal wherever it stands, and it reads as the text, so that no two
texts are written alike. -/
theorem quote_one_literal :
    (∀ front t rest : Text, literalEndAt (front ++ quote t ++ rest) front.length =
      front.length + (quote t).length) ∧
      (∀ t : Text, unquote? (quote t) = some t) ∧ Function.Injective quote := by
  refine ⟨fun front t rest => literalEndAt_of_unquote? (unquote?_quote t) front rest,
    unquote?_quote, ?_⟩
  intro s t same
  have read : some s = some t := by rw [← unquote?_quote s, same, unquote?_quote t]
  exact Option.some.inj read

-- Backslashes at the end, and a quote behind the literal that would close one left open.
example : literalEndAt ("f(".toList ++ quote "\\\"\x01\\\\".toList ++ "\")".toList) 2 = 18 := by
  decide

end Recast
