import Mathlib.Data.List.Basic
import Mathlib.Tactic.Common
import Recast.Scan.Token

/-!
# How scanners pass over a piece of text

A scanner that stands in front of a piece it need not look into goes on behind it. A `resume` that
lies behind is the same as none (`literalEnd_of_le` and its siblings), and characters before
`resume` are passed over in one go (`literalEnd_skip` and its siblings), so that every later law can
be stated with `resume = 0`.

`isPlainCode` holds of the characters that open no literal, comment or element. In text of plain
characters a bracket ends where the count of its kind says so: `closesFrom` does that count, and
`bracketEnd_plain` says that the scanner agrees with it.
-/

namespace Recast

/-! ## Where scanning resumes -/

theorem literalEnd_of_le (quote : Char) :
    ∀ (t : Text) {pos resume : Nat}, resume ≤ pos →
      literalEnd quote pos resume t = literalEnd quote pos 0 t
  | [], _, _, _ => rfl
  | c :: cs, pos, resume, h => by
    have tail : literalEnd quote (pos + 1) resume cs = literalEnd quote (pos + 1) 0 cs :=
      literalEnd_of_le quote cs (by omega)
    rw [literalEnd.eq_def, literalEnd.eq_def quote pos 0]
    simp only [Nat.not_lt.2 h, Nat.not_lt_zero, if_false, tail]
    split
    · rfl
    · split
      · rfl
      · split
        · split
          · rfl
          · exact tail
        · rfl

theorem bracketEnd_of_le (kind : Bracket) :
    ∀ (t : Text) {depth : Nat} {behind : Text} {pos resume : Nat}, resume ≤ pos →
      bracketEnd kind depth behind pos resume t = bracketEnd kind depth behind pos 0 t
  | [], _, _, _, _, _ => rfl
  | c :: cs, depth, behind, pos, resume, h => by
    have tail : ∀ d, bracketEnd kind d (c :: behind) (pos + 1) resume cs =
        bracketEnd kind d (c :: behind) (pos + 1) 0 cs :=
      fun d => bracketEnd_of_le kind cs (by omega)
    rw [bracketEnd, bracketEnd]
    simp only [Nat.not_lt.2 h, Nat.not_lt_zero, if_false, tail]

theorem tagEnd_of_le (name : Text) (start : Nat) :
    ∀ (t : Text) {previous : Char} {pos resume : Nat}, resume ≤ pos →
      tagEnd name start previous pos resume t = tagEnd name start previous pos 0 t
  | [], _, _, _, _ => rfl
  | c :: cs, previous, pos, resume, h => by
    have tail : tagEnd name start c (pos + 1) resume cs = tagEnd name start c (pos + 1) 0 cs :=
      tagEnd_of_le name start cs (by omega)
    rw [tagEnd, tagEnd]
    simp only [Nat.not_lt.2 h, Nat.not_lt_zero, if_false, tail]

theorem childrenEnd_of_le (name : Text) :
    ∀ (t : Text) {depth pos resume : Nat}, resume ≤ pos →
      childrenEnd name depth pos resume t = childrenEnd name depth pos 0 t
  | [], _, _, _, _ => rfl
  | c :: cs, depth, pos, resume, h => by
    have tail : ∀ d, childrenEnd name d (pos + 1) resume cs = childrenEnd name d (pos + 1) 0 cs :=
      fun d => childrenEnd_of_le name cs (by omega)
    rw [childrenEnd, childrenEnd]
    simp only [Nat.not_lt.2 h, Nat.not_lt_zero, if_false, tail]

theorem tokensFrom_of_le :
    ∀ (t : Text) {textStart pos resume : Nat}, resume ≤ pos →
      tokensFrom textStart pos resume t = tokensFrom textStart pos 0 t
  | [], _, _, _, _ => rfl
  | c :: cs, textStart, pos, resume, h => by
    have tail : tokensFrom textStart (pos + 1) resume cs = tokensFrom textStart (pos + 1) 0 cs :=
      tokensFrom_of_le cs (by omega)
    rw [tokensFrom, tokensFrom]
    simp only [Nat.not_lt.2 h, Nat.not_lt_zero, if_false, tail]

theorem literalEnd_skip (quote : Char) (rest : Text) :
    ∀ (t : Text) (pos : Nat),
      literalEnd quote pos (pos + t.length) (t ++ rest) = literalEnd quote (pos + t.length) 0 rest
  | [], pos => literalEnd_of_le quote rest (Nat.le_refl _)
  | c :: cs, pos => by
    have h := literalEnd_skip quote rest cs (pos + 1)
    rw [List.cons_append, literalEnd.eq_def]
    simp only [List.length_cons, Nat.lt_add_right_iff_pos, Nat.zero_lt_succ, if_true]
    rwa [← Nat.add_assoc, Nat.add_right_comm]

theorem bracketEnd_skip (kind : Bracket) (depth : Nat) (rest : Text) :
    ∀ (t behind : Text) (pos : Nat),
      bracketEnd kind depth behind pos (pos + t.length) (t ++ rest) =
        bracketEnd kind depth (t.reverse ++ behind) (pos + t.length) 0 rest
  | [], behind, pos => bracketEnd_of_le kind rest (Nat.le_refl _)
  | c :: cs, behind, pos => by
    have h := bracketEnd_skip kind depth rest cs (c :: behind) (pos + 1)
    rw [List.cons_append, bracketEnd, if_pos (by simp)]
    rw [List.length_cons, ← Nat.add_assoc, Nat.add_right_comm, h]
    simp

theorem tagEnd_skip (name : Text) (start : Nat) (rest : Text) :
    ∀ (t : Text) (previous : Char) (pos : Nat),
      tagEnd name start previous pos (pos + t.length) (t ++ rest) =
        tagEnd name start (t.getLastD previous) (pos + t.length) 0 rest
  | [], _, pos => tagEnd_of_le name start rest (Nat.le_refl _)
  | c :: cs, previous, pos => by
    have h := tagEnd_skip name start rest cs c (pos + 1)
    rw [List.cons_append, tagEnd, if_pos (by simp)]
    rw [List.length_cons, ← Nat.add_assoc, Nat.add_right_comm, h]
    cases cs <;> rfl

theorem childrenEnd_skip (name : Text) (depth : Nat) (rest : Text) :
    ∀ (t : Text) (pos : Nat),
      childrenEnd name depth pos (pos + t.length) (t ++ rest) =
        childrenEnd name depth (pos + t.length) 0 rest
  | [], pos => childrenEnd_of_le name rest (Nat.le_refl _)
  | c :: cs, pos => by
    have h := childrenEnd_skip name depth rest cs (pos + 1)
    rw [List.cons_append, childrenEnd, if_pos (by simp)]
    rwa [List.length_cons, ← Nat.add_assoc, Nat.add_right_comm]

theorem tokensFrom_skip (textStart : Nat) (rest : Text) :
    ∀ (t : Text) (pos : Nat),
      tokensFrom textStart pos (pos + t.length) (t ++ rest) =
        tokensFrom textStart (pos + t.length) 0 rest
  | [], pos => tokensFrom_of_le rest (Nat.le_refl _)
  | c :: cs, pos => by
    have h := tokensFrom_skip textStart rest cs (pos + 1)
    rw [List.cons_append, tokensFrom, if_pos (by simp)]
    rwa [List.length_cons, ← Nat.add_assoc, Nat.add_right_comm]

/-! ## Literals -/

/-- A character with no meaning of its own inside a literal is passed over. -/
theorem literalEnd_ordinary {quote c : Char} (hb : c ≠ '\\') (hq : c ≠ quote)
    (hd : quote ≠ '`' ∨ c ≠ '$')
    (pos : Nat) (cs : Text) :
    literalEnd quote pos 0 (c :: cs) = literalEnd quote (pos + 1) 0 cs := by
  have hd' : (decide (quote = '`') && decide (c = '$')) = false := by
    rcases hd with h | h <;> simp [h]
  rw [literalEnd.eq_def]
  simp [hb, hq, hd']

theorem literalEnd_close {quote : Char} (hb : quote ≠ '\\') (pos : Nat) (cs : Text) :
    literalEnd quote pos 0 (quote :: cs) = pos + 1 := by
  rw [literalEnd.eq_def]
  simp [hb]

/-- A backslash hides the character after it. -/
theorem literalEnd_escape (quote : Char) (pos : Nat) (c : Char) (cs : Text) :
    literalEnd quote pos 0 ('\\' :: c :: cs) = literalEnd quote (pos + 2) 0 cs := by
  have skip := literalEnd_skip quote cs [c] (pos + 1)
  rw [List.length_singleton, List.singleton_append] at skip
  rw [literalEnd.eq_def]
  simp only [Nat.not_lt_zero, if_false, if_true]
  exact skip

/-- A quoted text without its quote and without backslashes ends at the quote. -/
theorem literalEnd_plain {quote : Char} (hq : quote ≠ '`') (hb : quote ≠ '\\') (rest : Text) :
    ∀ (t : Text) (pos : Nat), quote ∉ t → '\\' ∉ t →
      literalEnd quote pos 0 (t ++ quote :: rest) = pos + t.length + 1
  | [], pos, _, _ => literalEnd_close hb pos rest
  | c :: cs, pos, h, h' => by
    simp only [List.mem_cons, not_or] at h h'
    have ih := literalEnd_plain hq hb rest cs (pos + 1) h.2 h'.2
    rw [List.cons_append, literalEnd_ordinary (Ne.symm h'.1) (Ne.symm h.1) (.inl hq), ih,
      List.length_cons]
    omega

/-! ## Plain code -/

/-- A character that opens no literal, no comment and no element. -/
def isPlainCode (c : Char) : Bool :=
  !isQuote c && c != '/' && c != '<'

theorem opaqueEndBy_plain {c : Char} (h : isPlainCode c) (pos : Nat) (behind cs : Text)
    (literal : Unit → Nat) (element : Unit → Except MarkupFault (Option Nat)) :
    opaqueEndBy pos c behind cs literal element = none := by
  simp only [isPlainCode, Bool.and_eq_true, Bool.not_eq_true', bne_iff_ne] at h
  simp [opaqueEndBy, h.1.1, h.1.2, h.2]

/-- Whether the brackets of a kind close one another, with `depth` of them open at the start. -/
def closesFrom (kind : Bracket) : Nat → Text → Bool
  | depth, [] => depth == 0
  | depth, c :: cs =>
    if c = kind.opener then closesFrom kind (depth + 1) cs
    else if c = kind.closer then 0 < depth && closesFrom kind (depth - 1) cs
    else closesFrom kind depth cs

theorem closesFrom_of_not_mem {kind : Bracket} {t : Text} (opener : kind.opener ∉ t)
    (closer : kind.closer ∉ t) : closesFrom kind 0 t := by
  induction t with
  | nil => rfl
  | cons c cs ih =>
    simp only [List.mem_cons, not_or] at opener closer
    rw [closesFrom, if_neg (Ne.symm opener.1), if_neg (Ne.symm closer.1), ih opener.2 closer.2]

/-- A bracket around plain code whose own brackets close one another ends right after it. -/
theorem bracketEnd_plain (kind : Bracket) (rest : Text) :
    ∀ (t : Text) {depth : Nat} (behind : Text) (pos : Nat), (∀ c ∈ t, isPlainCode c) →
      closesFrom kind depth t →
      bracketEnd kind depth behind pos 0 (t ++ kind.closer :: rest) = some (pos + t.length + 1)
  | [], depth, behind, pos, _, hd => by
    have hd : depth = 0 := by simpa [closesFrom] using hd
    have hne : kind.closer ≠ kind.opener := by cases kind <;> decide
    have hp : isPlainCode kind.closer := by cases kind <;> decide
    rw [List.nil_append, bracketEnd, if_neg (Nat.not_lt_zero _), opaqueEndBy_plain hp]
    simp [hne, hd]
  | c :: cs, depth, behind, pos, ht, hd => by
    have ih := fun d (h : closesFrom kind d cs) =>
      bracketEnd_plain kind rest cs (c :: behind) (pos + 1) (fun x hx => ht x (by simp [hx])) h
    have hlen : pos + 1 + cs.length + 1 = pos + (c :: cs).length + 1 := by simp; omega
    rw [List.cons_append, bracketEnd, if_neg (Nat.not_lt_zero _),
      opaqueEndBy_plain (ht c (by simp))]
    rw [closesFrom] at hd
    dsimp only
    split at hd
    · rw [if_pos ‹_›, ih _ hd, hlen]
    · rw [if_neg ‹_›]
      split at hd
      · rw [if_pos ‹_›]
        obtain ⟨hpos, hd⟩ := Bool.and_eq_true_iff.1 hd
        rw [if_neg (Nat.ne_of_gt (of_decide_eq_true hpos)), ih _ hd, hlen]
      · rw [if_neg ‹_›, ih _ hd, hlen]

end Recast
