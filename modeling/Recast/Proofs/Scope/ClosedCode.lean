import Mathlib.Data.List.Induction
import Recast.Proofs.Scan.Nesting
import Recast.Proofs.Scope.Code

/-!
# Closed code

Brackets in masked code are matched in two ways. Some scanners count brackets of every kind and look
at nothing else: `depthAfter` says how deep a text leaves them. The others pass over literals and
over groups in brackets as wholes: a text is `Closed` if it can be read so, as single characters,
literals and groups. Both are about text as it stands, without offsets, and each scanner is
described by one of them.

Masked code has no markup if no `<` behind an opening bracket opens an element (`Unmarked`).
-/

namespace Recast

/-! ## Counting brackets -/

/-- The bracket depth behind a text. There is none if the text closes a bracket that was open before
it, or has a stop character outside brackets. -/
def depthAfter (isStop : Char → Bool) (depth : Nat) : Text → Option Nat
  | [] => some depth
  | c :: cs =>
    if isOpener c then depthAfter isStop (depth + 1) cs
    else if isCloser c then if depth = 0 then none else depthAfter isStop (depth - 1) cs
    else if isStop c && depth = 0 then none
    else depthAfter isStop depth cs

/-- The text goes on in the block or bracket that it starts in, up to its end. -/
def StaysInside (t : Text) : Prop :=
  (depthAfter (fun _ => false) 0 t).isSome

/-- The text closes each bracket that it opens, and no other; no stop character is outside
brackets. -/
def IsLevel (isStop : Char → Bool) (t : Text) : Prop :=
  depthAfter isStop 0 t = some 0

instance (t : Text) : Decidable (StaysInside t) :=
  inferInstanceAs (Decidable (_ = true))

instance (isStop : Char → Bool) (t : Text) : Decidable (IsLevel isStop t) :=
  inferInstanceAs (Decidable (_ = _))

section Counting

variable {isStop : Char → Bool} {depth : Nat} {c : Char} {t : Text}

theorem depthAfter_append (isStop : Char → Bool) (u : Text) : ∀ (t : Text) (depth : Nat),
    depthAfter isStop depth (t ++ u) = (depthAfter isStop depth t).bind (depthAfter isStop · u)
  | [], _ => rfl
  | c :: cs, depth => by
    have ih := depthAfter_append isStop u cs
    rw [List.cons_append, depthAfter, depthAfter]
    split
    · exact ih _
    · split
      · split
        · rfl
        · exact ih _
      · split
        · rfl
        · exact ih _

theorem depthAfter_other (opener : isOpener c = false) (closer : isCloser c = false)
    (stop : isStop c = false)
    (depth : Nat) (cs : Text) : depthAfter isStop depth (c :: cs) = depthAfter isStop depth cs := by
  simp only [depthAfter, opener, closer, stop, Bool.false_and, Bool.false_eq_true, if_false]

theorem depthAfter_plain
    (plain : ∀ c ∈ t, isOpener c = false ∧ isCloser c = false ∧ isStop c = false) (depth : Nat) :
    depthAfter isStop depth t = some depth := by
  induction t with
  | nil => rfl
  | cons c cs ih =>
    obtain ⟨opener, closer, stop⟩ := plain c List.mem_cons_self
    rw [depthAfter_other opener closer stop]
    exact ih fun d hd => plain d (List.mem_cons_of_mem _ hd)

/-- Fewer stop characters do not end a text earlier. -/
theorem depthAfter_mono {isStop' : Char → Bool} (fewer : ∀ c, isStop' c → isStop c) :
    ∀ {t : Text} {depth next : Nat}, depthAfter isStop depth t = some next →
      depthAfter isStop' depth t = some next
  | [], _, _, h => h
  | c :: cs, depth, next, h => by
    rw [depthAfter] at h ⊢
    split at h
    · rename_i opener
      rw [if_pos opener]
      exact depthAfter_mono fewer h
    · rename_i opener
      rw [if_neg opener]
      split at h
      · rename_i closer
        rw [if_pos closer]
        split at h
        · cases h
        · rename_i deep
          rw [if_neg deep]
          exact depthAfter_mono fewer h
      · rename_i closer
        rw [if_neg closer]
        split at h
        · cases h
        · rename_i stop
          rw [if_neg fun stop' =>
            stop (by simp only [Bool.and_eq_true] at stop' ⊢; exact ⟨fewer c stop'.1, stop'.2⟩)]
          exact depthAfter_mono fewer h

/-- Inside more brackets no character stops the text. -/
theorem depthAfter_deeper (isStop : Char → Bool) (more : Nat) : ∀ {t : Text} {depth next : Nat},
    depthAfter (fun _ => false) depth t = some next →
      depthAfter isStop (depth + more + 1) t = some (next + more + 1)
  | [], _, _, h => by
    obtain rfl := Option.some.inj h
    rfl
  | c :: cs, depth, next, h => by
    rw [depthAfter] at h ⊢
    split at h
    · rename_i opener
      have ih := depthAfter_deeper isStop more h
      rw [if_pos opener, ← ih]
      congr 1
      omega
    · rename_i opener
      rw [if_neg opener]
      split at h
      · rename_i closer
        rw [if_pos closer]
        split at h
        · cases h
        · have ih := depthAfter_deeper isStop more h
          rw [if_neg (by omega), ← ih]
          congr 1
          omega
      · rename_i closer
        rw [if_neg closer, if_neg (by simp)]
        rw [if_neg (by simp)] at h
        exact depthAfter_deeper isStop more h

/-- A group in brackets is passed over. -/
theorem depthAfter_group (isStop : Char → Bool) (kind : Bracket) {inner : Text}
    (level : IsLevel (fun _ => false) inner) (depth : Nat) (rest : Text) :
    depthAfter isStop depth (kind.opener :: (inner ++ kind.closer :: rest)) =
      depthAfter isStop depth rest := by
  have inside := depthAfter_deeper isStop depth level
  rw [Nat.zero_add] at inside
  rw [depthAfter, if_pos (isOpener_opener kind), depthAfter_append, inside, Option.bind_some,
    depthAfter, if_neg (by rw [isOpener_closer]; decide), if_pos (isCloser_closer kind),
    if_neg (Nat.succ_ne_zero _), Nat.add_sub_cancel]

theorem isLevel_group (isStop : Char → Bool) (kind : Bracket) {inner : Text}
    (level : IsLevel (fun _ => false) inner) :
    IsLevel isStop (kind.opener :: (inner ++ [kind.closer])) :=
  depthAfter_group isStop kind level 0 []

theorem isLevel_plain
    (plain : ∀ c ∈ t, isOpener c = false ∧ isCloser c = false ∧ isStop c = false) :
    IsLevel isStop t :=
  depthAfter_plain plain 0

theorem IsLevel.append {u : Text} (ht : IsLevel isStop t) (hu : IsLevel isStop u) :
    IsLevel isStop (t ++ u) := by
  rw [IsLevel, depthAfter_append, ht]
  exact hu

theorem IsLevel.mono {isStop' : Char → Bool} (h : IsLevel isStop t)
    (fewer : ∀ c, isStop' c → isStop c) : IsLevel isStop' t :=
  depthAfter_mono fewer h

/-! ## Scanners that count brackets -/

theorem le_expressionEndFrom (isStop : Char → Bool) : ∀ (t : Text) (depth pos : Nat),
    pos ≤ expressionEndFrom isStop depth pos t
  | [], _, _ => Nat.le_refl _
  | c :: cs, depth, pos => by
    have ih := fun depth => le_expressionEndFrom isStop cs depth (pos + 1)
    rw [expressionEndFrom]
    split
    · exact (Nat.le_succ pos).trans (ih _)
    · split
      · split
        · exact Nat.le_refl _
        · exact (Nat.le_succ pos).trans (ih _)
      · split
        · exact Nat.le_refl _
        · exact (Nat.le_succ pos).trans (ih _)

/-- An expression goes on through a text that leaves a depth. -/
theorem expressionEndFrom_append (rest : Text) : ∀ {t : Text} {depth next : Nat} (pos : Nat),
    depthAfter isStop depth t = some next →
      expressionEndFrom isStop depth pos (t ++ rest) =
        expressionEndFrom isStop next (pos + t.length) rest
  | [], _, _, _, h => by
    obtain rfl := Option.some.inj h
    rfl
  | c :: cs, depth, next, pos, h => by
    rw [List.cons_append, expressionEndFrom, List.length_cons, Nat.add_comm cs.length,
      ← Nat.add_assoc]
    rw [depthAfter] at h
    split at h
    · rename_i opener
      rw [if_pos opener]
      exact expressionEndFrom_append rest (pos + 1) h
    · rename_i opener
      rw [if_neg opener]
      split at h
      · rename_i closer
        rw [if_pos closer]
        split at h
        · cases h
        · rename_i deep
          rw [if_neg deep]
          exact expressionEndFrom_append rest (pos + 1) h
      · rename_i closer
        rw [if_neg closer]
        split at h
        · cases h
        · rename_i stop
          rw [if_neg stop]
          exact expressionEndFrom_append rest (pos + 1) h

/-- No default value starts in a text without an equals sign outside brackets. -/
theorem dropDefaultFrom_append (rest : Text) :
    ∀ {t : Text} {depth next : Nat} (previous : Option Char),
    depthAfter (· == '=') depth t = some next →
      dropDefaultFrom depth previous (t ++ rest) =
        t ++ dropDefaultFrom next (t.getLast?.or previous) rest
  | [], _, _, _, h => by
    obtain rfl := Option.some.inj h
    rfl
  | c :: cs, depth, next, previous, h => by
    have ih := fun {depth : Nat} (h : depthAfter (· == '=') depth cs = some next) =>
      dropDefaultFrom_append rest (some c) h
    have last : (c :: cs).getLast?.or previous = cs.getLast?.or (some c) := by
      rw [List.getLast?_cons]
      cases cs.getLast? <;> rfl
    rw [List.cons_append, dropDefaultFrom, last, List.cons_append]
    rw [depthAfter] at h
    split at h
    · rename_i opener
      rw [if_pos opener, ← ih h]
      rfl
    · rename_i opener
      rw [if_neg opener]
      split at h
      · rename_i closer
        rw [if_pos closer]
        split at h
        · cases h
        · have shallower : (depth : Int) - 1 = ((depth - 1 : Nat) : Int) := by omega
          rw [shallower, ih h]
      · rename_i closer
        rw [if_neg closer]
        split at h
        · cases h
        · rename_i stop
          rw [if_neg, ih h]
          simp only [Bool.and_eq_true, decide_eq_true_eq, not_and, beq_iff_eq] at stop ⊢
          exact fun equals => absurd (Int.natCast_eq_zero.1 equals.2) (stop equals.1)

theorem dropDefaultFrom_isPrefix : ∀ (t : Text) (depth : Int) (previous : Option Char),
    dropDefaultFrom depth previous t <+: t
  | [], _, _ => List.nil_prefix
  | c :: cs, depth, previous => by
    have ih := fun depth => dropDefaultFrom_isPrefix cs depth (some c)
    rw [dropDefaultFrom]
    split
    · exact List.cons_prefix_cons.2 ⟨rfl, ih _⟩
    · split
      · exact List.cons_prefix_cons.2 ⟨rfl, ih _⟩
      · split
        · exact List.nil_prefix
        · exact List.cons_prefix_cons.2 ⟨rfl, ih _⟩

/-- Read backwards, a text that leaves a depth is passed over from this depth. -/
theorem openerBehind?_append (rest : Text) (t : Text) :
    ∀ {depth : Nat}, depthAfter (fun _ => false) 0 t = some depth →
    openerBehind? (1 + depth) (t.reverse ++ rest) = openerBehind? 1 rest := by
  induction t using List.reverseRecOn with
  | nil =>
    intro depth h
    obtain rfl := Option.some.inj h
    rfl
  | append_singleton t c ih =>
    intro depth h
    rw [depthAfter_append] at h
    obtain ⟨before, left, step⟩ := Option.bind_eq_some_iff.1 h
    rw [List.reverse_append, List.reverse_singleton, List.append_assoc, List.singleton_append,
      openerBehind?, ← ih left]
    rw [depthAfter] at step
    split at step
    · rename_i opener
      obtain rfl := Option.some.inj step
      have closer : isCloser c = false := by
        simp only [isOpener, Bool.or_eq_true, beq_iff_eq] at opener
        rcases opener with (rfl | rfl) | rfl <;> rfl
      rw [if_neg (by rw [closer]; decide), if_pos opener, if_neg (by omega)]
      congr 1
      omega
    · rename_i opener
      split at step
      · rename_i closer
        rw [if_pos closer]
        split at step
        · cases step
        · obtain rfl := Option.some.inj step
          congr 1
          omega
      · rename_i closer
        rw [if_neg (by simp)] at step
        obtain rfl := Option.some.inj step
        rw [if_neg closer, if_neg opener]

end Counting

/-! ## Reading literals and groups as wholes -/

/-- Code that is read to its end: single characters, literals and groups in brackets. The characters
outside literals and groups are `allowed`. A slash is not the last character, and opens no
comment. -/
inductive Closed : (Char → Bool) → Text → Prop where
  | nil {allowed : Char → Bool} : Closed allowed []
  | mark {allowed : Char → Bool} {c : Char} {t : Text} (valid : allowed c)
    (opener : isOpener c = false) (closer : isCloser c = false) (quote : isQuote c = false)
    (comment : c = '/' → ∃ d ds, t = d :: ds ∧ d ≠ '/' ∧ d ≠ '*') (rest : Closed allowed t) :
    Closed allowed (c :: t)
  | literal {allowed : Char → Bool} {quote : Char} {content t : Text} (opens : isQuote quote)
    (valid : isContent quote content) (rest : Closed allowed t) :
    Closed allowed (quote :: (content ++ quote :: t))
  | group {allowed : Char → Bool} (kind : Bracket) {inner t : Text}
    (inside : Closed (fun _ => true) inner)
    (rest : Closed allowed t) : Closed allowed (kind.opener :: (inner ++ kind.closer :: t))

/-- No `<` behind an opening bracket opens markup. -/
def Unmarked (t : Text) : Prop :=
  ∀ (before : Text) (kind : Bracket) (passed ahead : Text),
    t = before ++ kind.opener :: (passed ++ '<' :: ahead) →
    opensMarkup (passed.reverse ++ [kind.opener]) ahead = false

section Reading

variable {allowed : Char → Bool} {t u : Text}

theorem Closed.append (ht : Closed allowed t) (hu : Closed allowed u) :
    Closed allowed (t ++ u) := by
  induction ht with
  | nil => exact hu
  | mark valid opener closer quote comment _ ih =>
    refine .mark valid opener closer quote (fun slash => ?_) (ih hu)
    obtain ⟨d, ds, rfl, first⟩ := comment slash
    exact ⟨d, ds ++ u, rfl, first⟩
  | literal opens valid _ ih =>
    rw [List.cons_append, List.append_assoc, List.cons_append]
    exact .literal opens valid (ih hu)
  | group kind inside _ _ ih =>
    rw [List.cons_append, List.append_assoc, List.cons_append]
    exact .group kind inside (ih hu)

theorem Closed.mono {allowed' : Char → Bool} (h : Closed allowed t)
    (more : ∀ c, allowed c → allowed' c) : Closed allowed' t := by
  induction h with
  | nil => exact .nil
  | mark valid opener closer quote comment _ ih =>
    exact .mark (more _ valid) opener closer quote comment (ih more)
  | literal opens valid _ ih => exact .literal opens valid (ih more)
  | group kind inside _ _ ih => exact .group kind inside (ih more)

theorem closed_of_plain (plain : ∀ c ∈ t, isPlainMark c ∧ allowed c) : Closed allowed t := by
  induction t with
  | nil => exact .nil
  | cons c cs ih =>
    obtain ⟨mark, valid⟩ := plain c List.mem_cons_self
    obtain ⟨code, opener, closer⟩ := isPlainMark_iff.1 mark
    simp only [isPlainCode, Bool.and_eq_true, Bool.not_eq_true', bne_iff_ne] at code
    exact .mark valid opener closer code.1.1 (fun slash => absurd slash code.1.2)
      (ih fun d hd => plain d (by simp [hd]))

theorem opensMarkup_of_append {behind ahead : Text} (rest : Text)
    (h : opensMarkup behind (ahead ++ rest) = false) : opensMarkup behind ahead = false := by
  cases ahead with
  | nil => rfl
  | cons c cs => exact h

/-- A part of unmarked code is unmarked. -/
theorem Unmarked.part (h : Unmarked t) (before after : Text) (split : t = before ++ (u ++ after)) :
    Unmarked u := by
  rintro front kind passed ahead rfl
  refine opensMarkup_of_append after (h (before ++ front) kind passed (ahead ++ after) ?_)
  simp [split]

/-- What is read in brackets opens no markup. -/
def NoMarkup (behind t rest : Text) : Prop :=
  ∀ passed ahead, t = passed ++ '<' :: ahead →
    opensMarkup (passed.reverse ++ behind) (ahead ++ rest) = false

theorem Unmarked.inside {kind : Bracket} {rest : Text} (h : Unmarked (kind.opener :: (t ++ rest))) :
    NoMarkup [kind.opener] t rest := by
  rintro passed ahead rfl
  exact h [] kind passed (ahead ++ rest) (by simp)

theorem NoMarkup.append {behind rest : Text} (h : NoMarkup behind (t ++ u) rest) :
    NoMarkup behind t (u ++ rest) ∧ NoMarkup (t.reverse ++ behind) u rest := by
  constructor
  · rintro passed ahead rfl
    simpa using h passed (ahead ++ u) (by simp)
  · rintro passed ahead rfl
    simpa using h (t ++ passed) ahead (by simp)

theorem NoMarkup.tail {behind rest : Text} {c : Char} (h : NoMarkup behind (c :: t) rest) :
    NoMarkup (c :: behind) t rest := by
  rintro passed ahead rfl
  simpa using h (c :: passed) ahead rfl

/-- A character without meaning is passed over in brackets. -/
theorem bracketEnd_mark {c : Char} (opener : isOpener c = false) (closer : isCloser c = false)
    (quote : isQuote c = false)
    {behind cs : Text} {pos : Nat} (comment : commentEnd? pos c cs = none)
    (markup : c = '<' → opensMarkup behind cs = false) (kind : Bracket) (depth : Nat) :
    bracketEnd kind depth behind pos 0 (c :: cs) =
      bracketEnd kind depth (c :: behind) (pos + 1) 0 cs := by
  have opens : c ≠ kind.opener := by
    rintro rfl
    rw [isOpener_opener] at opener
    cases opener
  have closes : c ≠ kind.closer := by
    rintro rfl
    rw [isCloser_closer] at closer
    cases closer
  have passed : ∀ literal element, opaqueEndBy pos c behind cs literal element = none := by
    intro literal element
    rw [opaqueEndBy, if_neg (by rw [quote]; decide)]
    split
    · exact comment
    · rw [if_neg]
      simp only [Bool.and_eq_true, decide_eq_true_eq, not_and]
      intro less
      rw [markup less]
      decide
  rw [bracketEnd, if_neg (Nat.not_lt_zero _), passed]
  simp only [if_neg opens, if_neg closes]

theorem commentEnd?_eq_none {c : Char} {cs : Text}
    (h : c = '/' → ∃ d ds, cs = d :: ds ∧ d ≠ '/' ∧ d ≠ '*') (pos : Nat) :
    commentEnd? pos c cs = none := by
  rw [commentEnd?.eq_def]
  split
  · rename_i slash
    obtain ⟨d, ds, rfl, line, block⟩ := h slash
    split
    · rename_i same
      exact absurd (List.cons.inj same).1 line
    · rename_i same
      exact absurd (List.cons.inj same).1 block
    · rfl
  · rfl

theorem ne_of_isQuote {quote : Char} (h : isQuote quote) : quote ≠ '\\' ∧ quote ≠ '{' := by
  simp only [isQuote, Bool.or_eq_true, beq_iff_eq] at h
  rcases h with (rfl | rfl) | rfl <;> decide

theorem literalEnd_valid {quote : Char} (opens : isQuote quote) {content : Text}
    (valid : isContent quote content)
    (rest : Text) (pos : Nat) :
    literalEnd quote pos 0 (content ++ quote :: rest) = pos + content.length + 1 := by
  have brace : (quote :: rest).head? ≠ some '{' :=
    fun h => (ne_of_isQuote opens).2 (Option.some.inj h)
  rw [literalEnd_content brace content pos valid, literalEnd_close (ne_of_isQuote opens).1]

/-- A bracket that is looked for goes on behind closed code. -/
theorem bracketEnd_closed (closed : Closed allowed t) (kind : Bracket) :
    ∀ (depth : Nat) (behind rest : Text) (pos : Nat),
    NoMarkup behind t rest →
      bracketEnd kind depth behind pos 0 (t ++ rest) =
        bracketEnd kind depth (t.reverse ++ behind) (pos + t.length) 0 rest := by
  induction closed with
  | nil => intros; rfl
  | @mark _ c t valid opener closer quote comment _ ih =>
    intro depth behind rest pos markup
    have less : c = '<' → opensMarkup behind (t ++ rest) = false := by
      rintro rfl
      exact markup [] t rfl
    have slash : c = '/' → ∃ d ds, t ++ rest = d :: ds ∧ d ≠ '/' ∧ d ≠ '*' := by
      intro slash
      obtain ⟨d, ds, rfl, first⟩ := comment slash
      exact ⟨d, ds ++ rest, rfl, first⟩
    rw [List.cons_append, bracketEnd_mark opener closer quote (commentEnd?_eq_none slash pos) less,
      ih depth (c :: behind) rest (pos + 1) markup.tail]
    simp [Nat.add_assoc, Nat.add_comm 1]
  | @literal _ quote content t opens valid _ ih =>
    intro depth behind rest pos markup
    have tail : NoMarkup (quote :: (content.reverse ++ quote :: behind)) t rest := by
      simpa using (markup.tail.append.2).tail
    rw [List.cons_append, List.append_assoc, List.cons_append,
      bracketEnd_literal opens kind depth behind pos (literalEnd_valid opens valid _ _),
      ih depth _ rest _ tail]
    simp only [List.reverse_cons, List.reverse_append, List.append_assoc, List.length_cons,
      List.length_append, List.singleton_append]
    congr 1
    omega
  | @group _ other inner t _ _ ihInner ih =>
    intro depth behind rest pos markup
    have inside : NoMarkup (other.opener :: behind) inner (other.closer :: (t ++ rest)) := by
      simpa using markup.tail.append.1
    have tail : NoMarkup (other.closer :: (inner.reverse ++ other.opener :: behind)) t rest := by
      simpa using (markup.tail.append.2).tail
    rw [List.cons_append, List.append_assoc, List.cons_append, bracketEnd_open,
      ihInner _ _ _ _ inside, bracketEnd_close, ih depth _ rest _ tail]
    simp only [List.reverse_cons, List.reverse_append, List.append_assoc, List.length_cons,
      List.length_append, List.singleton_append]
    congr 1
    omega

/-- A bracket around closed code ends right behind it. -/
theorem bracketEnd_group (closed : Closed allowed t) (kind : Bracket) {rest : Text}
    (unmarked : Unmarked (kind.opener :: (t ++ kind.closer :: rest))) (pos : Nat) :
    bracketEnd kind 0 [kind.opener] pos 0 (t ++ kind.closer :: rest) =
      some (pos + t.length + 1) := by
  rw [bracketEnd_closed closed kind 0 _ _ pos unmarked.inside, bracketEnd_closer]

theorem bracketEndAt?_group (closed : Closed allowed t) (kind : Bracket) (front : Text)
    {rest : Text} (unmarked : Unmarked (front ++ kind.opener :: (t ++ kind.closer :: rest))) :
    bracketEndAt? (front ++ kind.opener :: (t ++ kind.closer :: rest)) front.length =
      some (front.length + t.length + 2) := by
  have here := unmarked.part (u := kind.opener :: (t ++ kind.closer :: rest)) front [] (by simp)
  rw [bracketEndAt?, List.drop_left]
  dsimp only
  rw [ofOpener?_opener, Option.bind_some, bracketEnd_group closed kind here]
  exact congrArg some (by omega)

/-! ## Pieces -/

variable {isSeparator : Char → Bool}

theorem nestedEnd?_eq_none {c : Char} (opener : isOpener c = false) (pos : Nat) (cs : Text) :
    nestedEnd? pos c cs = none := by
  rw [nestedEnd?, ofOpener?_eq_none opener]
  rfl

/-- A character that opens nothing and separates nothing belongs to the piece before it. -/
theorem pieceSpans_mark {c : Char} (opener : isOpener c = false) (quote : isQuote c = false)
    (separates : isSeparator c = false) (start pos : Nat) (cs : Text) :
    pieceSpans isSeparator start pos 0 (c :: cs) = pieceSpans isSeparator start (pos + 1) 0 cs := by
  rw [pieceSpans, if_neg (Nat.not_lt_zero _), quote, if_neg Bool.false_ne_true,
    nestedEnd?_eq_none opener]
  dsimp only
  rw [separates, if_neg Bool.false_ne_true]

theorem pieceSpans_separator {c : Char} (opener : isOpener c = false) (quote : isQuote c = false)
    (separates : isSeparator c) (start pos : Nat) (cs : Text) :
    pieceSpans isSeparator start pos 0 (c :: cs) =
      ⟨start, pos⟩ :: pieceSpans isSeparator (pos + 1) (pos + 1) 0 cs := by
  rw [pieceSpans, if_neg (Nat.not_lt_zero _), quote, if_neg Bool.false_ne_true,
    nestedEnd?_eq_none opener]
  dsimp only
  rw [if_pos separates]

theorem pieceSpans_literal {quote : Char} (opens : isQuote quote) {content : Text}
    (valid : isContent quote content) (start pos : Nat) (rest : Text) :
    pieceSpans isSeparator start pos 0 (quote :: (content ++ quote :: rest)) =
      pieceSpans isSeparator start (pos + content.length + 2) 0 rest := by
  have skip := pieceSpans_skip isSeparator start rest (content ++ [quote]) (pos + 1)
  rw [List.append_assoc, List.singleton_append, List.length_append, List.length_singleton,
    ← Nat.add_assoc] at skip
  rw [pieceSpans, if_neg (Nat.not_lt_zero _), if_pos opens, literalEnd_valid opens valid, skip]
  congr 1
  omega

theorem pieceSpans_group (closed : Closed allowed t) (kind : Bracket) {rest : Text}
    (unmarked : Unmarked (kind.opener :: (t ++ kind.closer :: rest))) (start pos : Nat) :
    pieceSpans isSeparator start pos 0 (kind.opener :: (t ++ kind.closer :: rest)) =
      pieceSpans isSeparator start (pos + t.length + 2) 0 rest := by
  have quote : isQuote kind.opener = false := by cases kind <;> rfl
  have ends : nestedEnd? pos kind.opener (t ++ kind.closer :: rest) =
      some (pos + 1 + (t ++ [kind.closer]).length) := by
    rw [nestedEnd?, ofOpener?_opener, Option.map_some, bracketEnd_group closed kind unmarked]
    simp [Nat.add_assoc]
  have skip := pieceSpans_skip isSeparator start rest (t ++ [kind.closer]) (pos + 1)
  rw [List.append_assoc, List.singleton_append] at skip
  rw [pieceSpans, if_neg (Nat.not_lt_zero _), quote, if_neg Bool.false_ne_true, ends]
  dsimp only
  rw [skip, List.length_append, List.length_singleton,
    show pos + 1 + (t.length + 1) = pos + t.length + 2 by omega]

/-- Closed code without separators belongs to the piece before it. -/
theorem pieceSpans_closed (closed : Closed allowed t)
    (none : ∀ c, allowed c → isSeparator c = false) (start : Nat) :
    ∀ (pos : Nat) (rest : Text), Unmarked (t ++ rest) →
      pieceSpans isSeparator start pos 0 (t ++ rest) =
        pieceSpans isSeparator start (pos + t.length) 0 rest := by
  induction closed with
  | nil => intros; rfl
  | @mark _ c t valid opener closer quote _ _ ih =>
    intro pos rest unmarked
    have tail : Unmarked (t ++ rest) := unmarked.part [c] [] (by simp)
    rw [List.cons_append, pieceSpans_mark opener quote (none c valid), ih none (pos + 1) rest tail,
      List.length_cons]
    congr 1
    omega
  | @literal _ quote content t opens valid _ ih =>
    intro pos rest unmarked
    have tail : Unmarked (t ++ rest) := unmarked.part (quote :: (content ++ [quote])) [] (by simp)
    rw [List.cons_append, List.append_assoc, List.cons_append, pieceSpans_literal opens valid,
      ih none _ rest tail]
    simp only [List.length_cons, List.length_append]
    congr 1
    omega
  | @group _ kind inner t inside _ _ ih =>
    intro pos rest unmarked
    rw [List.cons_append, List.append_assoc, List.cons_append] at unmarked ⊢
    have tail : Unmarked (t ++ rest) :=
      unmarked.part (kind.opener :: (inner ++ [kind.closer])) [] (by simp)
    rw [pieceSpans_group inside kind unmarked, ih none _ rest tail]
    simp only [List.length_cons, List.length_append]
    congr 1
    omega

/-- Behind closed code and a separator there are the pieces of the rest. -/
theorem mem_pieceSpans_behind (closed : Closed allowed t) {span : Span} {mark : Char}
    (opener : isOpener mark = false)
    (quote : isQuote mark = false) (separates : isSeparator mark) {rest : Text} :
    ∀ (start pos : Nat),
    Unmarked (t ++ mark :: rest) →
      span ∈ pieceSpans isSeparator (pos + t.length + 1) (pos + t.length + 1) 0 rest →
        span ∈ pieceSpans isSeparator start pos 0 (t ++ mark :: rest) := by
  induction closed with
  | nil =>
    intro start pos _ h
    rw [List.nil_append, pieceSpans_separator opener quote separates]
    exact List.mem_cons_of_mem _ h
  | @mark _ c t valid opener' closer quote' _ _ ih =>
    intro start pos unmarked h
    have tail : Unmarked (t ++ mark :: rest) := unmarked.part [c] [] (by simp)
    have next : pos + (c :: t).length + 1 = pos + 1 + t.length + 1 := by
      rw [List.length_cons]; omega
    rw [next] at h
    rw [List.cons_append]
    cases separates' : isSeparator c with
    | true =>
      rw [pieceSpans_separator opener' quote' separates']
      exact List.mem_cons_of_mem _ (ih (pos + 1) (pos + 1) tail h)
    | false =>
      rw [pieceSpans_mark opener' quote' separates']
      exact ih start (pos + 1) tail h
  | @literal _ other content t opens valid _ ih =>
    intro start pos unmarked h
    have tail : Unmarked (t ++ mark :: rest) :=
      unmarked.part (other :: (content ++ [other])) [] (by simp)
    have next : pos + (other :: (content ++ other :: t)).length + 1 =
        pos + content.length + 2 + t.length + 1 := by
      simp only [List.length_cons, List.length_append]
      omega
    rw [next] at h
    rw [List.cons_append, List.append_assoc, List.cons_append, pieceSpans_literal opens valid]
    exact ih start _ tail h
  | @group _ kind inner t inside _ _ ih =>
    intro start pos unmarked h
    have next : pos + (kind.opener :: (inner ++ kind.closer :: t)).length + 1 =
        pos + inner.length + 2 + t.length + 1 := by
      simp only [List.length_cons, List.length_append]
      omega
    rw [next] at h
    rw [List.cons_append, List.append_assoc, List.cons_append] at unmarked ⊢
    have tail : Unmarked (t ++ mark :: rest) :=
      unmarked.part (kind.opener :: (inner ++ [kind.closer])) [] (by simp)
    rw [pieceSpans_group inside kind unmarked]
    exact ih start _ tail h

/-- The piece that starts before a text ends somewhere in it. -/
theorem exists_pieceSpan (isSeparator : Char → Bool) (start : Nat) :
    ∀ (t : Text) (pos resume : Nat),
    ∃ cut, cut <+: t ∧ ⟨start, pos + cut.length⟩ ∈ pieceSpans isSeparator start pos resume t
  | [], pos, resume => ⟨[], List.nil_prefix, by simp [pieceSpans]⟩
  | c :: cs, pos, resume => by
    have longer : ∀ resume, ∃ cut, cut <+: c :: cs ∧
        ⟨start, pos + cut.length⟩ ∈ pieceSpans isSeparator start (pos + 1) resume cs := by
      intro resume
      obtain ⟨cut, start, found⟩ := exists_pieceSpan isSeparator start cs (pos + 1) resume
      refine ⟨c :: cut, List.cons_prefix_cons.2 ⟨rfl, start⟩, ?_⟩
      rwa [List.length_cons, Nat.add_comm cut.length, ← Nat.add_assoc]
    rw [pieceSpans]
    split
    · exact longer resume
    · split
      · exact longer _
      · split
        · exact longer _
        · split
          · exact ⟨[], List.nil_prefix, List.mem_cons_self⟩
          · exact longer resume

end Reading

/-! ## Nested text -/

/-- An open bracket is closed somewhere, behind nested text. -/
theorem exists_closer_of_openAfter : ∀ {t : Text} {kind : Bracket} {stack : List Bracket},
    openAfter (kind :: stack) t = some [] →
      ∃ inner rest, t = inner ++ kind.closer :: rest ∧ Nested inner ∧ openAfter stack rest = some []
  | [], _, _, h => by simp [openAfter] at h
  | c :: cs, kind, stack, h => by
    obtain ⟨next, step, rest⟩ := Option.bind_eq_some_iff.1 h
    rcases bracketStep_cases step
      with ⟨other, rfl, rfl⟩ | ⟨other, rfl, same⟩ | ⟨opener, closer, rfl⟩
    · -- A bracket opens: it is closed first, and then the one that was open.
      obtain ⟨inside, behind, rfl, nested, open'⟩ := exists_closer_of_openAfter rest
      have shorter : behind.length <
          (other.opener :: (inside ++ other.closer :: behind)).length := by
        simp only [List.length_cons, List.length_append]
        omega
      obtain ⟨inner, after, rfl, nested', last⟩ := exists_closer_of_openAfter open'
      refine ⟨other.opener :: (inside ++ other.closer :: inner), after, by simp, ?_, last⟩
      rw [Nested, openAfter, bracketStep_opener, Option.bind_some, nested.openAfter_append,
        openAfter, bracketStep_closer]
      exact nested'
    · obtain ⟨rfl, rfl⟩ := List.cons.inj same
      exact ⟨[], cs, rfl, rfl, rest⟩
    · obtain ⟨inner, after, rfl, nested, last⟩ := exists_closer_of_openAfter rest
      refine ⟨c :: inner, after, rfl, ?_, last⟩
      rw [Nested, openAfter, bracketStep_other opener closer]
      exact nested
termination_by t => t.length

/-- Nested text closes each bracket that it opens, and no other. -/
theorem depthAfter_of_openAfter :
    ∀ {t : Text} {stack next : List Bracket}, openAfter stack t = some next →
    depthAfter (fun _ => false) stack.length t = some next.length
  | [], _, _, h => by rw [depthAfter, Option.some.inj h]
  | c :: cs, stack, next, h => by
    obtain ⟨middle, step, rest⟩ := Option.bind_eq_some_iff.1 h
    have ih := depthAfter_of_openAfter rest
    rcases bracketStep_cases step with ⟨kind, rfl, rfl⟩ | ⟨kind, rfl, rfl⟩ | ⟨opener, closer, rfl⟩
    · rw [depthAfter, if_pos (isOpener_opener kind)]
      exact ih
    · rw [depthAfter, if_neg (by rw [isOpener_closer]; decide), if_pos (isCloser_closer kind),
        if_neg (by simp)]
      exact ih
    · rw [depthAfter_other opener closer rfl]
      exact ih

theorem isLevel_of_nested {t : Text} (h : Nested t) : IsLevel (fun _ => false) t :=
  depthAfter_of_openAfter h

/-- Nested text of plain characters is closed code. The characters outside brackets are the ones
that do not stop it. -/
theorem closed_of_nested {isStop : Char → Bool} :
    ∀ {t : Text}, Nested t → (∀ c ∈ t, isPlainCode c) →
    IsLevel isStop t → Closed (fun c => !isStop c) t
  | [], _, _, _ => .nil
  | c :: cs, nested, plain, level => by
    have code := plain c List.mem_cons_self
    simp only [isPlainCode, Bool.and_eq_true, Bool.not_eq_true', bne_iff_ne] at code
    obtain ⟨next, step, rest⟩ := Option.bind_eq_some_iff.1 nested
    rcases bracketStep_cases step with ⟨kind, rfl, rfl⟩ | ⟨kind, -, same⟩ | ⟨opener, closer, rfl⟩
    · obtain ⟨inner, behind, rfl, inside, after⟩ := exists_closer_of_openAfter rest
      have shorter : inner.length < (kind.opener :: (inner ++ kind.closer :: behind)).length ∧
          behind.length < (kind.opener :: (inner ++ kind.closer :: behind)).length := by
        simp only [List.length_cons, List.length_append]
        omega
      rw [IsLevel, depthAfter_group isStop kind (isLevel_of_nested inside)] at level
      refine .group kind ?_ (closed_of_nested after (fun d hd => plain d (by simp [hd])) level)
      exact closed_of_nested inside (fun d hd => plain d (by simp [hd])) (isLevel_of_nested inside)
    · cases same
    · have other : isStop c = false := by
        rw [IsLevel, depthAfter, if_neg (by simp [opener]), if_neg (by simp [closer])] at level
        cases stop : isStop c with
        | false => rfl
        | true => simp [stop] at level
      rw [IsLevel, depthAfter_other opener closer other] at level
      exact .mark (by simp [other]) opener closer code.1.1 (fun slash => absurd slash code.1.2)
        (closed_of_nested rest (fun d hd => plain d (by simp [hd])) level)
termination_by t => t.length

end Recast
