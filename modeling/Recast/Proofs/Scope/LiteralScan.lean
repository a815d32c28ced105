import Recast.Proofs.Scan.Found
import Recast.Proofs.Scope.MaskModes

/-!
# Literals on the way through code

A scan of code from left to right passes over strings, comments and template literals as wholes, and
comes back to code in each substitution of a template: `CodeAt` says where it gets to, and
`StaticAt` where it stands in the static text of a template. Masking goes character by character and
has to be at the same places in the same state. It is: a template ends for it where the scan says
(`MaskState.template_run`), and code in a substitution is left at its closing brace
(`MaskState.code_run`).

So what the scan meets as a literal (`Inert`) is hidden or a quote (`Inert.hidden`), and what it
meets as code is shown (`CodeAt.shown`).
-/

namespace Recast

/-! ## The scan -/

mutual

/-- A scan of code from left to right gets to `pos`, in code that ends at `stop`. -/
inductive CodeAt (t : Text) : Nat → Nat → Prop where
  | start : CodeAt t t.length 0
  | mark {stop pos : Nat} {c : Char} (here : CodeAt t stop pos) (inside : pos < stop)
    (char : t[pos]? = some c)
    (quote : isQuote c = false) (comment : commentEndAt? t pos = none) : CodeAt t stop (pos + 1)
  | comment {stop pos close : Nat} (here : CodeAt t stop pos) (inside : pos < stop)
    (found : commentEndAt? t pos = some close) : CodeAt t stop (min close stop)
  | literal {stop pos : Nat} {c : Char} (here : CodeAt t stop pos) (inside : pos < stop)
    (char : t[pos]? = some c) (quote : isQuote c) : CodeAt t stop (min (literalEndAt t pos) stop)
  | substitution {stop pos close : Nat} (here : StaticAt t stop pos)
    (opens : slice t pos (pos + 2) = ['$', '{'])
    (found : bracketEndAt? t (pos + 1) = some close) (inside : close ≤ stop) :
    CodeAt t (close - 1) (pos + 2)

/-- The scan gets to `pos` in the static text of a template literal, in code that ends at `stop`. -/
inductive StaticAt (t : Text) : Nat → Nat → Prop where
  | opening {stop pos : Nat} (here : CodeAt t stop pos) (inside : pos < stop)
    (char : t[pos]? = some '`') :
    StaticAt t stop (pos + 1)
  | char {stop pos : Nat} {c : Char} (here : StaticAt t stop pos) (inside : pos < stop)
    (char : t[pos]? = some c)
    (escape : c ≠ '\\') (quote : c ≠ '`') (static : slice t pos (pos + 2) ≠ ['$', '{']) :
    StaticAt t stop (pos + 1)
  | escape {stop pos : Nat} (here : StaticAt t stop pos) (inside : pos + 1 < stop)
    (char : t[pos]? = some '\\') :
    StaticAt t stop (pos + 2)
  | substituted {stop pos close : Nat} (here : StaticAt t stop pos)
    (opens : slice t pos (pos + 2) = ['$', '{'])
    (found : bracketEndAt? t (pos + 1) = some close) (inside : close ≤ stop) : StaticAt t stop close

end

/-- The offset lies in a string, a comment or the static text of a template that the scan meets. A
template whose substitution is never closed is static to its end. -/
inductive Inert (t : Text) : Nat → Prop where
  | string {stop pos p : Nat} {c : Char} (here : CodeAt t stop pos) (inside : pos < stop)
    (char : t[pos]? = some c)
    (quote : c = '"' ∨ c = '\'') (after : pos ≤ p) (before : p < min (literalEndAt t pos) stop) :
    Inert t p
  | comment {stop pos close p : Nat} (here : CodeAt t stop pos) (inside : pos < stop)
    (found : commentEndAt? t pos = some close) (after : pos ≤ p) (before : p < min close stop) :
    Inert t p
  | static {stop p : Nat} (here : StaticAt t stop p) (inside : p < stop) : Inert t p
  | escaped {stop pos : Nat} (here : StaticAt t stop pos) (inside : pos + 1 < stop)
    (char : t[pos]? = some '\\') :
    Inert t (pos + 1)
  | unclosed {stop pos p : Nat} (here : StaticAt t stop pos)
    (opens : slice t pos (pos + 2) = ['$', '{'])
    (never : ∀ close, bracketEndAt? t (pos + 1) = some close → stop < close) (after : pos ≤ p)
    (before : p < stop) :
    Inert t p

/-! ## Bounds -/

theorem resume_le_literalEnd (quote : Char) :
    ∀ (t : Text) (pos resume : Nat), resume ≤ pos + t.length →
    resume ≤ literalEnd quote pos resume t
  | [], pos, resume, h => h
  | c :: cs, pos, resume, h => by
    by_cases passed : pos < resume
    · rw [literalEnd.eq_def]
      simp only [if_pos passed]
      exact resume_le_literalEnd quote cs (pos + 1) resume (by rw [List.length_cons] at h; omega)
    · exact (Nat.not_lt.1 passed).trans (literalEnd_bounds quote (c :: cs) pos resume).1

/-- A literal goes on behind what is passed over. -/
theorem literalEnd_passed (quote : Char) {t : Text} {pos resume : Nat} (after : pos ≤ resume)
    (inside : resume ≤ pos + t.length) :
    literalEnd quote pos resume t = literalEnd quote resume 0 (t.drop (resume - pos)) := by
  have distance : pos + (t.take (resume - pos)).length = resume := by
    rw [List.length_take]
    omega
  have skip := literalEnd_skip quote (t.drop (resume - pos)) (t.take (resume - pos)) pos
  rwa [List.take_append_drop, distance] at skip

/-- A dollar sign without a brace is an ordinary character of a template. -/
theorem literalEnd_dollar {cs : Text} (static : cs.head? ≠ some '{') (pos : Nat) :
    literalEnd '`' pos 0 ('$' :: cs) = literalEnd '`' (pos + 1) 0 cs := by
  rw [literalEnd.eq_def]
  simp only [Nat.not_lt_zero, if_false, Char.reduceEq, decide_true, Bool.and_self, if_true]
  split
  · exact absurd rfl static
  · rfl

/-- A template goes on behind a substitution. -/
theorem literalEnd_substitution {cs : Text} {pos close : Nat}
    (found : bracketEnd .curly 0 ['{'] (pos + 2) 0 cs = some close) :
    literalEnd '`' pos 0 ('$' :: '{' :: cs) = literalEnd '`' (pos + 2) close cs := by
  rw [literalEnd.eq_def]
  simp only [Nat.not_lt_zero, if_false, Char.reduceEq, decide_true, Bool.and_self, if_true, found]

theorem literalEnd_substituted {t cs : Text} {pos close : Nat}
    (here : t.drop pos = '$' :: '{' :: cs)
    (found : bracketEnd .curly 0 ['{'] (pos + 2) 0 cs = some close) :
    literalEnd '`' pos 0 ('$' :: '{' :: cs) = literalEnd '`' close 0 (t.drop close) := by
  have bounds := (bracketEnd_found .curly found).bounds
  have rest : t.drop (pos + 2) = cs := by rw [← List.drop_drop, here]; rfl
  rw [literalEnd_substitution found, literalEnd_passed '`' bounds.1.le bounds.2, ← rest,
    List.drop_drop, Nat.add_sub_cancel' bounds.1.le]

theorem literalEnd_unclosed {cs : Text} {pos : Nat}
    (found : bracketEnd .curly 0 ['{'] (pos + 2) 0 cs = none) :
    literalEnd '`' pos 0 ('$' :: '{' :: cs) = pos + 2 + cs.length := by
  rw [literalEnd.eq_def]
  simp only [Nat.not_lt_zero, if_false, Char.reduceEq, decide_true, Bool.and_self, if_true, found]

/-! ## States of masking -/

/-- What masking knows between two characters: the part of the text that it is in, those around it,
and the offset. -/
structure MaskState where
  region : Region
  outer : List Region
  pos : Nat

/-- The masked text from a state on. -/
def MaskState.shows (t : Text) (state : MaskState) : Text :=
  maskFrom state.region state.outer state.pos 0 0 (t.drop state.pos)

/-- Masking a text gets from one state to another. -/
def MaskState.Passes (t : Text) (state next : MaskState) : Prop :=
  state.pos ≤ next.pos ∧ (state.shows t).drop (next.pos - state.pos) = next.shows t

namespace MaskState

variable {t cs : Text} {c : Char} {outer : List Region} {stop pos : Nat}

theorem Passes.refl (t : Text) (state : MaskState) : Passes t state state :=
  ⟨Nat.le_refl _, by rw [Nat.sub_self]; rfl⟩

theorem Passes.trans {first second third : MaskState} (h : Passes t first second)
    (h' : Passes t second third) : Passes t first third := by
  refine ⟨h.1.trans h'.1, ?_⟩
  have distance : third.pos - first.pos = (second.pos - first.pos) + (third.pos - second.pos) := by
    have := h.1
    have := h'.1
    omega
  rw [distance, ← List.drop_drop, h.2, h'.2]

theorem drop_succ (here : t.drop pos = c :: cs) : t.drop (pos + 1) = cs := by
  rw [← List.tail_drop, here]
  rfl

theorem drop_eq_cons (h : pos < t.length) : ∃ c cs, t.drop pos = c :: cs :=
  ⟨_, _, List.drop_eq_getElem_cons h⟩

/-- One character is masked, and the next one is in another state. -/
theorem passes_of_cons {region region' : Region} {outer' : List Region} (shown : Char)
    (here : t.drop pos = c :: cs)
    (h : maskFrom region outer pos 0 0 (c :: cs) =
      shown :: maskFrom region' outer' (pos + 1) 0 0 cs) :
    Passes t ⟨region, outer, pos⟩ ⟨region', outer', pos + 1⟩ := by
  refine ⟨Nat.le_succ _, ?_⟩
  rw [shows, shows, here, drop_succ here, h, Nat.add_sub_cancel_left]
  rfl

/-! ## Pieces that are hidden or copied -/

/-- What is hidden or copied comes out character by character. -/
theorem drop_maskFrom (region : Region) (outer : List Region) (hidden copied : Nat) :
    ∀ (n : Nat) (t : Text) (pos : Nat),
    pos + n ≤ max hidden copied →
      (maskFrom region outer pos hidden copied t).drop n =
        maskFrom region outer (pos + n) hidden copied (t.drop n)
  | 0, _, _, _ => rfl
  | n + 1, [], _, _ => rfl
  | n + 1, c :: cs, pos, h => by
    have ih := drop_maskFrom region outer hidden copied n cs (pos + 1) (by omega)
    rw [Nat.add_assoc, Nat.add_comm 1] at ih
    by_cases hides : pos < hidden
    · rw [maskFrom_hidden region outer hides]
      exact ih
    · rw [maskFrom_shown region outer (Nat.not_lt.1 hides) (show pos < copied by omega)]
      exact ih

theorem getElem?_maskFrom_hidden (region : Region) (outer : List Region) (hidden copied : Nat) :
    ∀ (n : Nat) (t : Text) (pos : Nat), pos + n < hidden → n < t.length →
      ∃ c, (maskFrom region outer pos hidden copied t)[n]? = some (hide c)
  | _, [], _, _, inside => absurd inside (Nat.not_lt_zero _)
  | 0, c :: cs, pos, h, _ =>
    ⟨c, by rw [maskFrom_hidden region outer (show pos < hidden from h)]; rfl⟩
  | n + 1, c :: cs, pos, h, inside => by
    rw [maskFrom_hidden region outer (show pos < hidden by omega), List.getElem?_cons_succ]
    exact getElem?_maskFrom_hidden region outer hidden copied n cs (pos + 1) (by omega)
      (Nat.lt_of_succ_lt_succ inside)

theorem getElem?_maskFrom_copied (region : Region) (outer : List Region) (hidden copied : Nat) :
    ∀ (n : Nat) (t : Text) (pos : Nat), hidden ≤ pos + n → pos + n < copied →
      (maskFrom region outer pos hidden copied t)[n]? = t[n]?
  | _, [], _, _, _ => by rw [maskFrom]
  | 0, c :: cs, pos, h, h' => by rw [maskFrom_shown region outer (show hidden ≤ pos from h) h']; rfl
  | n + 1, c :: cs, pos, h, h' => by
    have ih := getElem?_maskFrom_copied region outer hidden copied n cs (pos + 1) (by omega)
      (by omega)
    rw [List.getElem?_cons_succ, ← ih]
    by_cases hides : pos < hidden
    · rw [maskFrom_hidden region outer hides, List.getElem?_cons_succ]
    · rw [maskFrom_shown region outer (Nat.not_lt.1 hides) (show pos < copied by omega),
        List.getElem?_cons_succ]

/-- Behind a piece that is hidden or copied the state is the one before it. -/
theorem passes_of_piece {region : Region} (shown : Char) (hidden copied : Nat) {next : Nat}
    (here : t.drop pos = c :: cs)
    (h : maskFrom region outer pos 0 0 (c :: cs) =
      shown :: maskFrom region outer (pos + 1) hidden copied cs)
    (ends : next = max hidden copied) (after : pos < next) :
    Passes t ⟨region, outer, pos⟩ ⟨region, outer, next⟩ := by
  have distance : next - pos = next - (pos + 1) + 1 := by omega
  have piece := drop_maskFrom region outer hidden copied (next - (pos + 1)) cs (pos + 1) (by omega)
  rw [Nat.add_sub_cancel' after] at piece
  refine ⟨after.le, ?_⟩
  rw [shows, shows]
  dsimp only
  rw [here, h, distance, List.drop_succ_cons, piece, maskFrom_of_le _ _ (by omega) (by omega),
    ← drop_succ here, List.drop_drop, Nat.add_sub_cancel' after]

/-! ## Steps through code -/

theorem passes_mark (here : t.drop pos = c :: cs) (inside : pos < stop) (quote : isQuote c = false)
    (comment : commentEnd? pos c cs = none) :
    Passes t ⟨.code stop, outer, pos⟩ ⟨.code stop, outer, pos + 1⟩ := by
  simp only [isQuote, Bool.or_eq_false_iff, beq_eq_false_iff_ne] at quote
  refine passes_of_cons c here ?_
  rw [maskFrom.eq_def]
  simp only [Nat.not_lt_zero, if_false, Nat.not_le.2 inside, quote.1.1, quote.1.2, quote.2,
    decide_false, Bool.or_self, Bool.false_eq_true, comment]

theorem slash_of_commentEnd? {close : Nat} (found : commentEnd? pos c cs = some close) :
    c = '/' := by
  rw [commentEnd?.eq_def] at found
  split at found
  · assumption
  · cases found

theorem lt_commentEnd? {close : Nat} (found : commentEnd? pos c cs = some close) : pos < close := by
  obtain rfl := slash_of_commentEnd? found
  rw [commentEnd?.eq_def, if_pos rfl] at found
  split at found
  · rename_i rest
    have := (le_lineEnd rest (pos + 2)).1
    obtain rfl := Option.some.inj found
    omega
  · rename_i rest
    have := (le_blockCommentEnd rest (pos + 2)).1
    obtain rfl := Option.some.inj found
    omega
  · cases found

theorem maskFrom_commentStart {close : Nat} (inside : pos < stop)
    (found : commentEnd? pos c cs = some close) :
    maskFrom (.code stop) outer pos 0 0 (c :: cs) =
      hide c :: maskFrom (.code stop) outer (pos + 1) (min close stop) 0 cs := by
  obtain rfl := slash_of_commentEnd? found
  rw [maskFrom.eq_def]
  simp only [Nat.not_lt_zero, if_false, Nat.not_le.2 inside, Char.reduceEq, decide_false,
    Bool.or_self, Bool.false_eq_true, found]

theorem passes_comment {close : Nat} (here : t.drop pos = c :: cs) (inside : pos < stop)
    (found : commentEnd? pos c cs = some close) :
    Passes t ⟨.code stop, outer, pos⟩ ⟨.code stop, outer, min close stop⟩ := by
  have after := lt_commentEnd? found
  exact passes_of_piece (hide c) (min close stop) 0 here (maskFrom_commentStart inside found)
    (Nat.max_zero _).symm (by omega)

theorem maskFrom_stringStart (inside : pos < stop) (quote : c = '"' ∨ c = '\'') :
    maskFrom (.code stop) outer pos 0 0 (c :: cs) =
      c :: maskFrom (.code stop) outer (pos + 1)
        (hiddenEnd c (pos + 1) (min (literalEnd c (pos + 1) 0 cs) stop) cs)
        (min (literalEnd c (pos + 1) 0 cs) stop) cs := by
  rw [maskFrom.eq_def]
  simp only [Nat.not_lt_zero, if_false, Nat.not_le.2 inside]
  rw [if_pos (by simpa using quote)]

theorem passes_string (here : t.drop pos = c :: cs) (inside : pos < stop)
    (quote : c = '"' ∨ c = '\'') :
    Passes t ⟨.code stop, outer, pos⟩
      ⟨.code stop, outer, min (literalEnd c (pos + 1) 0 cs) stop⟩ := by
  have close := (literalEnd_bounds c cs (pos + 1) 0).1
  refine passes_of_piece c _ _ here (maskFrom_stringStart inside quote) ?_ (by omega)
  rw [hiddenEnd]
  split <;> omega

/-- A template opens. -/
theorem passes_tick (here : t.drop pos = '`' :: cs) (inside : pos < stop) :
    Passes t ⟨.code stop, outer, pos⟩ ⟨.template stop, .code stop :: outer, pos + 1⟩ := by
  refine passes_of_cons '`' here ?_
  rw [maskFrom.eq_def]
  simp only [Nat.not_lt_zero, if_false, Nat.not_le.2 inside, Char.reduceEq, decide_false,
    Bool.or_self, Bool.false_eq_true, if_true]

/-! ## Steps through a template -/

theorem passes_static (here : t.drop pos = c :: cs) (inside : pos < stop) (escape : c ≠ '\\')
    (quote : c ≠ '`') (static : ¬(c = '$' ∧ pos + 1 < stop ∧ cs.head? = some '{')) :
    Passes t ⟨.template stop, outer, pos⟩ ⟨.template stop, outer, pos + 1⟩ := by
  refine passes_of_cons (hide c) here ?_
  rw [maskFrom.eq_def]
  simp only [Nat.not_lt_zero, if_false, Nat.not_le.2 inside, escape, quote]
  split
  · rename_i dollar
    simp only [Bool.and_eq_true, decide_eq_true_eq] at dollar
    split
    · exact absurd ⟨dollar.1, dollar.2, rfl⟩ static
    · rfl
  · rfl

theorem maskFrom_escapeStart (inside : pos < stop) :
    maskFrom (.template stop) outer pos 0 0 ('\\' :: cs) =
      hide '\\' :: maskFrom (.template stop) outer (pos + 1) (min (pos + 2) stop) 0 cs := by
  rw [maskFrom.eq_def]
  simp only [Nat.not_lt_zero, if_false, Nat.not_le.2 inside, if_true]

theorem passes_escape (here : t.drop pos = '\\' :: cs) (inside : pos < stop) :
    Passes t ⟨.template stop, outer, pos⟩ ⟨.template stop, outer, min (pos + 2) stop⟩ :=
  passes_of_piece _ _ _ here (maskFrom_escapeStart inside) (Nat.max_zero _).symm (by omega)

/-- A template is closed. -/
theorem passes_close {around : Region} (here : t.drop pos = '`' :: cs) (inside : pos < stop) :
    Passes t ⟨.template stop, around :: outer, pos⟩ ⟨around, outer, pos + 1⟩ := by
  refine passes_of_cons '`' here ?_
  rw [maskFrom.eq_def]
  simp only [Nat.not_lt_zero, if_false, Nat.not_le.2 inside, Char.reduceEq, if_true]

/-- A substitution opens. -/
theorem passes_substitution {close : Nat} (here : t.drop pos = '$' :: '{' :: cs)
    (found : bracketEnd .curly 0 ['{'] (pos + 2) 0 cs = some close) (inside : close ≤ stop) :
    Passes t ⟨.template stop, outer, pos⟩ ⟨.code (close - 1), .template stop :: outer,
      pos + 2⟩ := by
  have after := (bracketEnd_found .curly found).bounds.1
  refine ⟨by simp, ?_⟩
  have rest : t.drop (pos + 2) = cs := drop_succ (drop_succ here)
  rw [shows, shows]
  dsimp only
  rw [here, rest, Nat.add_sub_cancel_left, maskFrom.eq_def]
  simp only [Nat.not_lt_zero, if_false, Nat.not_le.2 (show pos < stop by omega), Char.reduceEq,
    show pos + 1 < stop by omega, decide_true, Bool.and_self, if_true, found, inside]
  rfl

/-- A substitution that is not closed before the end takes the rest. -/
theorem maskFrom_unclosedStart (inside : pos + 1 < stop)
    (never : ∀ close, bracketEnd .curly 0 ['{'] (pos + 2) 0 cs = some close → stop < close) :
    maskFrom (.template stop) outer pos 0 0 ('$' :: '{' :: cs) =
      ' ' :: maskFrom (.template stop) outer (pos + 1) stop 0 ('{' :: cs) := by
  rw [maskFrom_hidden _ _ inside, maskFrom.eq_def]
  simp only [Nat.not_lt_zero, if_false, Nat.not_le.2 (show pos < stop by omega), Char.reduceEq,
    inside, decide_true, Bool.and_self, if_true]
  split
  · rename_i close found
    rw [if_neg (Nat.not_le.2 (never close found))]
    rfl
  · rfl

theorem passes_unclosed (here : t.drop pos = '$' :: '{' :: cs) (inside : pos + 1 < stop)
    (never : ∀ close, bracketEnd .curly 0 ['{'] (pos + 2) 0 cs = some close → stop < close) :
    Passes t ⟨.template stop, outer, pos⟩ ⟨.template stop, outer, stop⟩ :=
  passes_of_piece _ _ _ here (maskFrom_unclosedStart inside never) (Nat.max_zero _).symm (by omega)

/-! ## Ends -/

/-- The closing brace of a substitution leads back into its template. -/
theorem passes_brace {around : Region} (here : t.drop stop = c :: cs) :
    Passes t ⟨.code stop, around :: outer, stop⟩ ⟨around, outer, stop + 1⟩ := by
  refine passes_of_cons ')' here ?_
  rw [maskFrom.eq_def]
  simp only [Nat.not_lt_zero, if_false, Nat.le_refl, if_true]

theorem maskFrom_code_end :
    ∀ (cs : Text) (pos : Nat), stop ≤ pos → maskFrom (.code stop) [] pos 0 0 cs = cs
  | [], _, _ => rfl
  | c :: cs, pos, h => by
    rw [maskFrom.eq_def]
    simp only [Nat.not_lt_zero, if_false, h, if_true,
      maskFrom_code_end cs (pos + 1) (Nat.le_succ_of_le h)]

theorem maskFrom_template_end (around : Region) : ∀ (cs : Text) (pos : Nat), stop ≤ pos →
    maskFrom (.template stop) [around] pos 0 0 cs = cs
  | [], _, _ => rfl
  | c :: cs, pos, h => by
    rw [maskFrom.eq_def]
    simp only [Nat.not_lt_zero, if_false, h, if_true,
      maskFrom_template_end around cs (pos + 1) (Nat.le_succ_of_le h)]

/-- A substitution with the code in it leads back into its template. -/
theorem passes_substituted {close : Nat} (here : t.drop pos = '$' :: '{' :: cs)
    (found : bracketEnd .curly 0 ['{'] (pos + 2) 0 cs = some close) (inside : close ≤ stop)
    (fits : stop ≤ t.length)
    (run : Passes t ⟨.code (close - 1), .template stop :: outer, pos + 2⟩
      ⟨.code (close - 1), .template stop :: outer, close - 1⟩) :
    Passes t ⟨.template stop, outer, pos⟩ ⟨.template stop, outer, close⟩ := by
  have after := (bracketEnd_found .curly found).bounds.1
  obtain ⟨d, ds, brace⟩ := drop_eq_cons (show close - 1 < t.length by omega)
  have leave := (passes_substitution here found inside).trans (run.trans (passes_brace brace))
  rwa [Nat.sub_add_cancel (by omega)] at leave

/-- A template that is open at the end of its code is left with it. -/
theorem passes_open :
    Passes t ⟨.template stop, .code stop :: outer, stop⟩ ⟨.code stop, outer, stop⟩ := by
  refine ⟨Nat.le_refl _, ?_⟩
  rw [shows, shows, Nat.sub_self, List.drop_zero]
  dsimp only
  cases outer with
  | nil => rw [maskFrom_template_end _ _ _ (Nat.le_refl _), maskFrom_code_end _ _ (Nat.le_refl _)]
  | cons around outer =>
    cases t.drop stop with
    | nil => rfl
    | cons c cs =>
      rw [maskFrom.eq_def, maskFrom.eq_def (.code stop)]
      simp only [Nat.not_lt_zero, if_false, Nat.le_refl, if_true]

/-! ## Steps to the end of a template -/

/-- From here on the template is masked up to where it ends as a literal, or its code does. -/
def LeavesTemplate (t : Text) (stop : Nat) (outer : List Region) (pos : Nat) : Prop :=
  Passes t ⟨.template stop, .code stop :: outer, pos⟩
    ⟨.code stop, outer, min (literalEnd '`' pos 0 (t.drop pos)) stop⟩

/-- The template does not end before its code. -/
theorem leavesTemplate_open (ends : stop ≤ literalEnd '`' pos 0 (t.drop pos))
    (passes : Passes t ⟨.template stop, .code stop :: outer, pos⟩
      ⟨.template stop, .code stop :: outer, stop⟩) :
    LeavesTemplate t stop outer pos := by
  rw [LeavesTemplate, Nat.min_eq_right ends]
  exact passes.trans passes_open

theorem leavesTemplate_end : LeavesTemplate t stop outer stop :=
  leavesTemplate_open (literalEnd_bounds '`' (t.drop stop) stop 0).1 (Passes.refl t _)

/-- A step inside the template does not change where it ends. -/
theorem leavesTemplate_step {next : Nat}
    (ends : literalEnd '`' pos 0 (t.drop pos) = literalEnd '`' next 0 (t.drop next))
    (passes : Passes t ⟨.template stop, .code stop :: outer, pos⟩
      ⟨.template stop, .code stop :: outer, next⟩)
    (rest : LeavesTemplate t stop outer next) : LeavesTemplate t stop outer pos := by
  rw [LeavesTemplate, ends]
  exact passes.trans rest

theorem leavesTemplate_close (here : t.drop pos = '`' :: cs) (inside : pos < stop) :
    LeavesTemplate t stop outer pos := by
  rw [LeavesTemplate, here, literalEnd_close (by decide),
    Nat.min_eq_left (show pos + 1 ≤ stop from inside)]
  exact passes_close here inside

theorem leavesTemplate_escape (here : t.drop pos = '\\' :: cs) (inside : pos < stop)
    (fits : stop ≤ t.length)
    (rest : ∀ next, pos < next → next ≤ stop → LeavesTemplate t stop outer next) :
    LeavesTemplate t stop outer pos := by
  have length := length_of_drop_eq_cons here
  have step : Passes t ⟨.template stop, .code stop :: outer, pos⟩
      ⟨.template stop, .code stop :: outer, min (pos + 2) stop⟩ := passes_escape here inside
  rcases Nat.lt_or_ge (pos + 1) stop with more | last
  · rw [Nat.min_eq_left (show pos + 2 ≤ stop from more)] at step
    obtain ⟨d, ds, rfl⟩ : ∃ d ds, cs = d :: ds :=
      List.exists_cons_of_ne_nil (by rintro rfl; simp at length; omega)
    refine leavesTemplate_step ?_ step (rest (pos + 2) (by omega) more)
    rw [here, drop_succ (drop_succ here), literalEnd_escape]
  · rw [Nat.min_eq_right (show stop ≤ pos + 2 by omega)] at step
    have later := lt_literalEnd '`' '\\' cs pos
    exact leavesTemplate_open (by rw [here]; omega) step

/-- Of a substitution, the code up to its closing brace is masked as code. -/
theorem leavesTemplate_substitution (here : t.drop pos = '$' :: '{' :: cs) (more : pos + 1 < stop)
    (fits : stop ≤ t.length)
    (code : ∀ close, pos + 2 < close → close ≤ stop →
      Passes t ⟨.code (close - 1), .template stop :: .code stop :: outer, pos + 2⟩
        ⟨.code (close - 1), .template stop :: .code stop :: outer, close - 1⟩)
    (rest : ∀ next, pos < next → next ≤ stop → LeavesTemplate t stop outer next) :
    LeavesTemplate t stop outer pos := by
  cases found : bracketEnd .curly 0 ['{'] (pos + 2) 0 cs with
  | none =>
    refine leavesTemplate_open ?_ (passes_unclosed here more (by simp [found]))
    have length := length_of_drop_eq_cons here
    rw [List.length_cons] at length
    rw [here, literalEnd_unclosed found]
    omega
  | some close =>
    have bounds := (bracketEnd_found .curly found).bounds
    rcases Nat.lt_or_ge stop close with past | fitting
    · refine leavesTemplate_open ?_ (passes_unclosed here more (by simpa [found] using past))
      rw [here, literalEnd_substitution found]
      exact past.le.trans (resume_le_literalEnd '`' cs (pos + 2) close bounds.2)
    · have ends : literalEnd '`' pos 0 (t.drop pos) = literalEnd '`' close 0 (t.drop close) := by
        rw [here, literalEnd_substituted here found]
      exact leavesTemplate_step ends
        (passes_substituted here found fitting fits (code close bounds.1 fitting))
        (rest close (by omega) fitting)

theorem leavesTemplate_static (here : t.drop pos = c :: cs) (inside : pos < stop)
    (escape : c ≠ '\\') (tick : c ≠ '`')
    (static : ¬(c = '$' ∧ pos + 1 < stop ∧ cs.head? = some '{'))
    (rest : ∀ next, pos < next → next ≤ stop → LeavesTemplate t stop outer next) :
    LeavesTemplate t stop outer pos := by
  have step : Passes t ⟨.template stop, .code stop :: outer, pos⟩
      ⟨.template stop, .code stop :: outer, pos + 1⟩ :=
    passes_static here inside escape tick static
  rcases Nat.lt_or_ge (pos + 1) stop with more | last
  · refine leavesTemplate_step ?_ step (rest (pos + 1) (Nat.lt_succ_self pos) inside)
    rw [here, drop_succ here]
    by_cases dollar : c = '$'
    · subst dollar
      exact literalEnd_dollar (fun brace => static ⟨rfl, more, brace⟩) pos
    · exact literalEnd_ordinary escape tick (.inr dollar) pos cs
  · obtain rfl : stop = pos + 1 := by omega
    refine leavesTemplate_open ?_ step
    rw [here]
    exact lt_literalEnd '`' c cs pos

/-! ## Runs -/

mutual

/-- Code is masked up to its end. -/
theorem code_run : ∀ (n : Nat) {stop pos : Nat} (outer : List Region), stop ≤ t.length →
    pos ≤ stop → stop - pos ≤ n →
    Passes t ⟨.code stop, outer, pos⟩ ⟨.code stop, outer, stop⟩
  | 0, stop, pos, outer, _, before, size => by
    obtain rfl : pos = stop := by omega
    exact Passes.refl t _
  | n + 1, stop, pos, outer, fits, before, size => by
    rcases Nat.eq_or_lt_of_le before with rfl | inside
    · exact Passes.refl t _
    have rest : ∀ {next}, pos < next → next ≤ stop →
        Passes t ⟨.code stop, outer, next⟩ ⟨.code stop, outer, stop⟩ :=
      fun after ends => code_run n outer fits ends (by omega)
    obtain ⟨c, cs, here⟩ := drop_eq_cons (inside.trans_le fits)
    by_cases quote : isQuote c
    · have close := (literalEnd_bounds c cs (pos + 1) 0).1
      by_cases tick : c = '`'
      · subst tick
        have template := template_run n outer fits (show pos + 1 ≤ stop from inside) (by omega)
        rw [LeavesTemplate, drop_succ here] at template
        exact ((passes_tick here inside).trans template).trans (rest (by omega) (by omega))
      · have string : c = '"' ∨ c = '\'' := by
          simp only [isQuote, Bool.or_eq_true, beq_iff_eq] at quote
          tauto
        exact (passes_string here inside string).trans (rest (by omega) (by omega))
    · cases comment : commentEnd? pos c cs with
      | none =>
        exact (passes_mark here inside (by simpa using quote) comment).trans
          (rest (by omega) (by omega))
      | some close =>
        have after := lt_commentEnd? comment
        exact (passes_comment here inside comment).trans (rest (by omega) (by omega))

/-- A template is masked up to where it ends as a literal, or its code does. -/
theorem template_run :
    ∀ (n : Nat) {stop pos : Nat} (outer : List Region), stop ≤ t.length → pos ≤ stop →
    stop - pos ≤ n → LeavesTemplate t stop outer pos
  | 0, stop, pos, outer, _, before, size => by
    obtain rfl : pos = stop := by omega
    exact leavesTemplate_end
  | n + 1, stop, pos, outer, fits, before, size => by
    rcases Nat.eq_or_lt_of_le before with rfl | inside
    · exact leavesTemplate_end
    have rest : ∀ next, pos < next → next ≤ stop → LeavesTemplate t stop outer next :=
      fun next after ends => template_run n outer fits ends (by omega)
    obtain ⟨c, cs, here⟩ := drop_eq_cons (inside.trans_le fits)
    by_cases tick : c = '`'
    · subst tick
      exact leavesTemplate_close here inside
    by_cases escape : c = '\\'
    · subst escape
      exact leavesTemplate_escape here inside fits rest
    by_cases opens : c = '$' ∧ pos + 1 < stop ∧ cs.head? = some '{'
    · obtain ⟨rfl, more, brace⟩ := opens
      obtain ⟨inner, rfl⟩ := List.head?_eq_some_iff.1 brace
      exact leavesTemplate_substitution here more fits
        (fun close after ends => code_run n _ (by omega) (by omega) (by omega)) rest
    · exact leavesTemplate_static here inside escape tick opens rest

end

end MaskState

/-! ## Masking is where the scan is -/

section Reached

open MaskState

variable {t cs : Text} {stop pos : Nat}

theorem exists_drop_eq {c : Char} (char : t[pos]? = some c) : ∃ cs, t.drop pos = c :: cs := by
  obtain ⟨inside, rfl⟩ := List.getElem?_eq_some_iff.1 char
  exact ⟨_, List.drop_eq_getElem_cons inside⟩

theorem exists_drop_eq_substitution (opens : slice t pos (pos + 2) = ['$', '{']) :
    ∃ cs, t.drop pos = '$' :: '{' :: cs := by
  rw [slice, List.drop_take, Nat.add_sub_cancel_left] at opens
  exact ⟨(t.drop pos).drop 2, by rw [← List.take_append_drop 2 (t.drop pos), opens]; rfl⟩

theorem bracketEnd_of_substitution (here : t.drop pos = '$' :: '{' :: cs) :
    bracketEndAt? t (pos + 1) = bracketEnd .curly 0 ['{'] (pos + 2) 0 cs := by
  rw [bracketEndAt?, drop_succ here]
  rfl

/-- Masking gets to a state from the start of the text. -/
def Masks (t : Text) (state : MaskState) : Prop :=
  Passes t ⟨.code t.length, [], 0⟩ state

theorem Masks.drop_mask {state : MaskState} (h : Masks t state) :
    (mask t).drop state.pos = state.shows t :=
  h.2

mutual

theorem CodeAt.masks : ∀ {stop pos : Nat}, CodeAt t stop pos →
    stop ≤ t.length ∧ pos ≤ stop ∧ ∃ outer, Masks t ⟨.code stop, outer, pos⟩
  | _, _, .start => ⟨Nat.le_refl _, Nat.zero_le _, [], Passes.refl t _⟩
  | _, _, .mark here inside char quote comment => by
    obtain ⟨fits, -, outer, passes⟩ := here.masks
    obtain ⟨cs, ahead⟩ := exists_drop_eq char
    rw [commentEndAt?, ahead] at comment
    exact ⟨fits, inside, outer, passes.trans (passes_mark ahead inside quote comment)⟩
  | _, _, .comment here inside found => by
    obtain ⟨fits, -, outer, passes⟩ := here.masks
    obtain ⟨c, cs, ahead⟩ := drop_eq_cons (inside.trans_le fits)
    rw [commentEndAt?, ahead] at found
    exact ⟨fits, Nat.min_le_right _ _, outer, passes.trans (passes_comment ahead inside found)⟩
  | _, _, .literal (c := c) here inside char quote => by
    obtain ⟨fits, -, outer, passes⟩ := here.masks
    obtain ⟨cs, ahead⟩ := exists_drop_eq char
    rw [literalEndAt, ahead]
    refine ⟨fits, Nat.min_le_right _ _, outer, passes.trans ?_⟩
    by_cases tick : c = '`'
    · subst tick
      have template := template_run _ outer fits (Nat.succ_le_of_lt inside) (Nat.le_refl _)
      rw [LeavesTemplate, drop_succ ahead] at template
      exact (passes_tick ahead inside).trans template
    · have string : c = '"' ∨ c = '\'' := by
        simp only [isQuote, Bool.or_eq_true, beq_iff_eq] at quote
        tauto
      exact passes_string ahead inside string
  | _, _, .substitution here opens found inside => by
    obtain ⟨fits, -, outer, passes⟩ := here.masks
    obtain ⟨cs, ahead⟩ := exists_drop_eq_substitution opens
    have bounds := bracketEndAt?_bounds found
    rw [bracketEnd_of_substitution ahead] at found
    exact ⟨by omega, by omega, _, passes.trans (passes_substitution ahead found inside)⟩

theorem StaticAt.masks : ∀ {stop pos : Nat}, StaticAt t stop pos →
    stop ≤ t.length ∧ pos ≤ stop ∧ ∃ outer, Masks t ⟨.template stop, .code stop :: outer, pos⟩
  | _, _, .opening here inside char => by
    obtain ⟨fits, -, outer, passes⟩ := here.masks
    obtain ⟨cs, ahead⟩ := exists_drop_eq char
    exact ⟨fits, inside, outer, passes.trans (passes_tick ahead inside)⟩
  | _, _, .char here inside char escape quote static => by
    obtain ⟨fits, -, outer, passes⟩ := here.masks
    obtain ⟨cs, ahead⟩ := exists_drop_eq char
    refine ⟨fits, inside, outer, passes.trans (passes_static ahead inside escape quote ?_)⟩
    rintro ⟨rfl, -, brace⟩
    obtain ⟨inner, rfl⟩ := List.head?_eq_some_iff.1 brace
    rw [slice, List.drop_take, Nat.add_sub_cancel_left, ahead] at static
    exact static rfl
  | _, _, .escape here inside char => by
    obtain ⟨fits, -, outer, passes⟩ := here.masks
    obtain ⟨cs, ahead⟩ := exists_drop_eq char
    have step := passes.trans (passes_escape ahead (by omega))
    rw [Nat.min_eq_left inside] at step
    exact ⟨fits, inside, outer, step⟩
  | _, _, .substituted here opens found inside => by
    obtain ⟨fits, -, outer, passes⟩ := here.masks
    obtain ⟨cs, ahead⟩ := exists_drop_eq_substitution opens
    have bounds := bracketEndAt?_bounds found
    rw [bracketEnd_of_substitution ahead] at found
    refine ⟨fits, inside, outer, passes.trans (passes_substituted ahead found inside fits ?_)⟩
    exact code_run _ _ (by omega) (by omega) (Nat.le_refl _)

end

/-! ## What is shown of code and of literals -/

/-- Neither a character of a name nor a dot: no part of what is looked for in code. -/
def isBarrier (c : Char) : Bool :=
  !isNameChar c && c != '.'

theorem isBarrier_hide (c : Char) : isBarrier (hide c) := by
  rw [hide]
  split <;> decide

theorem Masks.getElem?_mask {state : MaskState} (h : Masks t state) :
    (mask t)[state.pos]? = (state.shows t).head? := by
  rw [← h.drop_mask, List.head?_drop]

/-- Code is shown as it is. -/
theorem CodeAt.shown (here : CodeAt t stop pos) (inside : pos < stop)
    (comment : commentEndAt? t pos = none) : (mask t)[pos]? = t[pos]? := by
  obtain ⟨fits, -, outer, masks⟩ := here.masks
  obtain ⟨c, cs, ahead⟩ := drop_eq_cons (inside.trans_le fits)
  rw [commentEndAt?, ahead] at comment
  rw [masks.getElem?_mask, ← List.head?_drop, MaskState.shows, ahead, maskFrom.eq_def]
  simp only [Nat.not_lt_zero, if_false, Nat.not_le.2 inside]
  split
  · rfl
  · split
    · rfl
    · simp only at comment
      simp only [comment]
      rfl

theorem Masks.getElem?_mask_of_le {state : MaskState} (h : Masks t state) {p : Nat}
    (after : state.pos ≤ p) : (mask t)[p]? = (state.shows t)[p - state.pos]? := by
  rw [← h.drop_mask, List.getElem?_drop, Nat.add_sub_cancel' after]

/-- A piece that is hidden from its first character on. -/
theorem Masks.barrier {region : Region} {outer : List Region} (h : Masks t ⟨region, outer, pos⟩)
    {c shown : Char} {hidden : Nat} (ahead : t.drop pos = c :: cs) (first : isBarrier shown)
    (step : maskFrom region outer pos 0 0 (c :: cs) =
      shown :: maskFrom region outer (pos + 1) hidden 0 cs)
    {p : Nat} (after : pos ≤ p) (before : p < hidden) (inside : p < t.length) :
    ∃ c, (mask t)[p]? = some c ∧ isBarrier c := by
  have length := length_of_drop_eq_cons ahead
  rw [h.getElem?_mask_of_le after, MaskState.shows, ahead, step]
  dsimp only
  rcases Nat.eq_or_lt_of_le after with rfl | later
  · exact ⟨shown, by rw [Nat.sub_self]; rfl, first⟩
  · have index : p - pos = p - (pos + 1) + 1 := by omega
    obtain ⟨c, hides⟩ := getElem?_maskFrom_hidden region outer hidden 0 (p - (pos + 1)) cs (pos + 1)
      (by omega) (by omega)
    exact ⟨hide c, by rw [index, List.getElem?_cons_succ, hides], isBarrier_hide c⟩

/-- A string shows its quotes only. -/
theorem Masks.barrier_string {outer : List Region} (h : Masks t ⟨.code stop, outer, pos⟩) {c : Char}
    (ahead : t.drop pos = c :: cs) (inside : pos < stop) (fits : stop ≤ t.length)
    (quote : c = '"' ∨ c = '\'') {p : Nat}
    (after : pos ≤ p) (before : p < min (literalEnd c (pos + 1) 0 cs) stop) :
    ∃ c, (mask t)[p]? = some c ∧ isBarrier c := by
  have length := length_of_drop_eq_cons ahead
  have shown : isBarrier c := by rcases quote with rfl | rfl <;> decide
  rw [h.getElem?_mask_of_le after, MaskState.shows, ahead, maskFrom_stringStart inside quote]
  dsimp only
  rcases Nat.eq_or_lt_of_le after with rfl | later
  · exact ⟨c, by rw [Nat.sub_self]; rfl, shown⟩
  have short : p < t.length := by omega
  generalize min (literalEnd c (pos + 1) 0 cs) stop = close at before ⊢
  have index : p - pos = p - (pos + 1) + 1 := by omega
  rw [index, List.getElem?_cons_succ]
  by_cases hides : p < hiddenEnd c (pos + 1) close cs
  · obtain ⟨d, found⟩ :=
      getElem?_maskFrom_hidden (.code stop) outer _ close (p - (pos + 1)) cs (pos + 1)
      (show pos + 1 + (p - (pos + 1)) < hiddenEnd c (pos + 1) close cs by omega) (by omega)
    exact ⟨hide d, found, isBarrier_hide d⟩
  · -- only the closing quote is copied
    rw [getElem?_maskFrom_copied _ _ _ _ _ _ _ (by omega) (by omega)]
    rw [hiddenEnd] at hides
    split at hides
    · rename_i closes
      simp only [Bool.and_eq_true, decide_eq_true_eq] at closes
      have last : p - (pos + 1) = close - 1 - (pos + 1) := by omega
      exact ⟨c, by rw [last]; exact closes.2, shown⟩
    · omega

theorem StaticAt.hidden (here : StaticAt t stop pos) (inside : pos < stop) :
    ∃ c, (mask t)[pos]? = some c ∧ isBarrier c := by
  obtain ⟨fits, -, outer, masks⟩ := here.masks
  obtain ⟨c, cs, ahead⟩ := drop_eq_cons (inside.trans_le fits)
  rw [masks.getElem?_mask, MaskState.shows, ahead]
  dsimp only
  by_cases tick : c = '`'
  · subst tick
    rw [maskFrom.eq_def]
    simp only [Nat.not_lt_zero, if_false, Nat.not_le.2 inside, Char.reduceEq, if_true]
    exact ⟨_, rfl, by decide⟩
  by_cases escape : c = '\\'
  · subst escape
    rw [maskFrom_escapeStart inside]
    exact ⟨_, rfl, by decide⟩
  rw [maskFrom.eq_def]
  simp only [Nat.not_lt_zero, if_false, Nat.not_le.2 inside, tick, escape]
  split
  · split
    · split
      · split <;> exact ⟨_, rfl, by decide⟩
      · exact ⟨_, rfl, by decide⟩
    · exact ⟨_, rfl, isBarrier_hide c⟩
  · exact ⟨_, rfl, isBarrier_hide c⟩

/-- What the scan meets as a literal or comment is hidden, or a quote. -/
theorem Inert.hidden {p : Nat} (h : Inert t p) : ∃ c, (mask t)[p]? = some c ∧ isBarrier c := by
  cases h with
  | string here inside char quote after before =>
    obtain ⟨fits, -, outer, masks⟩ := here.masks
    obtain ⟨cs, ahead⟩ := exists_drop_eq char
    rw [literalEndAt, ahead] at before
    exact masks.barrier_string ahead inside fits quote after before
  | comment here inside found after before =>
    obtain ⟨fits, -, outer, masks⟩ := here.masks
    obtain ⟨c, cs, ahead⟩ := drop_eq_cons (inside.trans_le fits)
    rw [commentEndAt?, ahead] at found
    exact masks.barrier ahead (isBarrier_hide c) (maskFrom_commentStart inside found) after before
      (by omega)
  | static here inside => exact here.hidden inside
  | escaped here inside char =>
    obtain ⟨fits, -, outer, masks⟩ := here.masks
    obtain ⟨cs, ahead⟩ := exists_drop_eq char
    exact masks.barrier ahead (isBarrier_hide _) (maskFrom_escapeStart (by omega)) (Nat.le_succ _)
      (by omega) (by omega)
  | @unclosed stop pos _ here opens never after before =>
    obtain ⟨fits, -, outer, masks⟩ := here.masks
    obtain ⟨cs, ahead⟩ := exists_drop_eq_substitution opens
    simp only [bracketEnd_of_substitution ahead] at never
    rcases Nat.lt_or_ge (pos + 1) stop with more | last
    · exact masks.barrier ahead (by decide) (maskFrom_unclosedStart more never) after before
        (by omega)
    · obtain rfl : p = pos := by omega
      exact here.hidden before

end Reached

end Recast
