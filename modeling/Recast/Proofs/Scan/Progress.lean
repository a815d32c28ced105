import Mathlib.Logic.Function.Iterate
import Recast.Proofs.Markup.BracedValue
import Recast.Proofs.Scan.Tiling

/-!
# Progress of the scanners

The scanners call each other: a literal asks for the end of a substitution, a bracket for the ends
of literals and elements, an element for its tags, and a tag for its values. `Scanners` holds an
answer of each of them for every offset, and `Scanners.turn` is one turn of every loop, which takes
all other answers as given. The answers of the scanners are `scanners`.

Every call that a turn makes is further on in the text, save that a bracket asks for the element at
its own offset. So after a number of turns that grows with the text nothing is left of the answers
that one starts with (`turn_iterate`): no chain of calls is longer than that. This rests on the
bounds of what is found, which each scanner keeps (`scanners_progress`).
-/

namespace Recast

open MaskState (drop_succ drop_eq_cons lt_commentEnd?)

/-! ## Turns -/

/-- An answer of every scanner for every offset of a text. -/
@[ext] structure Scanners where
  /-- The end of a literal with the given quote that goes on at an offset. -/
  literal : Char → Nat → Nat
  /-- The end of a bracket that goes on at an offset, with so many inner ones open. -/
  bracket : Bracket → Nat → Nat → Option Nat
  /-- The end of the tag with the given name and start that goes on at an offset. -/
  tag : Text → Nat → Nat → Except MarkupFault TagEnd
  /-- The tokens from an offset on, with the start of the text before them. -/
  tokens : Nat → Nat → Except MarkupFault (List Token)
  /-- The end of the element with the given name that goes on at an offset, with so many inner ones
  open. -/
  children : Text → Nat → Nat → Except MarkupFault (Option Nat)
  /-- The end of the element that starts at an offset. -/
  element : Nat → Except MarkupFault (Option Nat)

namespace Scanners

/-- The tag or expression that starts with the character `c` at `pos`, as the answers have it. -/
def mark (answers : Scanners) (pos : Nat) (c : Char) (cs : Text) :
    Option (Except MarkupFault Token) :=
  markBy pos c cs (fun _ => answers.bracket .curly 0 (pos + 1)) fun name =>
    answers.tag name pos (pos + 1 + name.length)

/-- One turn of every scanner's loop, with the answers of all calls given. -/
def turn (t : Text) (answers : Scanners) : Scanners where
  literal quote pos :=
    match t.drop pos with
    | [] => t.length
    | c :: cs =>
      if c = '\\' then answers.literal quote (pos + 2)
      else if c = quote then pos + 1
      else if quote = '`' ∧ c = '$' ∧ cs.head? = some '{' then
        match answers.bracket .curly 0 (pos + 2) with
        | some stop => answers.literal quote stop
        | none => t.length
      else answers.literal quote (pos + 1)
  bracket kind depth pos :=
    match t.drop pos with
    | [] => none
    | c :: cs =>
      match opaqueEndBy pos c (t.take pos).reverse cs (fun _ => answers.literal c (pos + 1))
        fun _ => answers.element pos with
      | some stop => answers.bracket kind depth stop
      | none =>
        if c = kind.opener then answers.bracket kind (depth + 1) (pos + 1)
        else if c = kind.closer then
          if depth = 0 then some (pos + 1) else answers.bracket kind (depth - 1) (pos + 1)
        else answers.bracket kind depth (pos + 1)
  tag name start pos :=
    match t.drop pos with
    | [] => .error ⟨.unterminatedTag name, start⟩
    | c :: _ =>
      if c = '"' ∨ c = '\'' then answers.tag name start (answers.literal c (pos + 1))
      else if c = '{' then
        match answers.bracket .curly 0 (pos + 1) with
        | some stop => answers.tag name start stop
        | none => .error ⟨.unclosedAttribute name, pos⟩
      else if c = '>' then .ok ⟨pos + 1, (t.take pos).getLastD '<' == '/'⟩
      else answers.tag name start (pos + 1)
  tokens textStart pos :=
    match t.drop pos with
    | [] => .ok (textToken textStart t.length)
    | c :: cs =>
      match answers.mark pos c cs with
      | none => answers.tokens textStart (pos + 1)
      | some (.error fault) => .error fault
      | some (.ok token) =>
        match answers.tokens token.stop token.stop with
        | .error fault => .error fault
        | .ok rest => .ok (textToken textStart pos ++ token :: rest)
  children name depth pos :=
    match t.drop pos with
    | [] => .ok none
    | c :: cs =>
      match answers.mark pos c cs with
      | none => answers.children name depth (pos + 1)
      | some (.error fault) => .error fault
      | some (.ok token) =>
        match token.kind with
        | .opening => answers.children name (depth + 1) token.stop
        | .closing =>
          if depth = 0 then .ok (if token.name = name then some token.stop else none)
          else answers.children name (depth - 1) token.stop
        | _ => answers.children name depth token.stop
  element pos :=
    match t.drop pos with
    | [] => .ok none
    | c :: cs =>
      match answers.mark pos c cs with
      | none => .ok none
      | some (.error fault) => .error fault
      | some (.ok token) =>
        match token.kind with
        | .selfClosing => .ok (some token.stop)
        | .opening => answers.children token.name 0 token.stop
        | _ => .ok none

end Scanners

/-- The answers of the scanners on a text. -/
def scanners (t : Text) : Scanners where
  literal quote pos := literalEnd quote (min pos t.length) 0 (t.drop pos)
  bracket kind depth pos := bracketEnd kind depth (t.take pos).reverse pos 0 (t.drop pos)
  tag name start pos := tagEnd name start ((t.take pos).getLastD '<') pos 0 (t.drop pos)
  tokens textStart pos := tokensFrom textStart (min pos t.length) 0 (t.drop pos)
  children name depth pos := childrenEnd name depth pos 0 (t.drop pos)
  element pos := elementEndAt t pos

/-! ## Going on behind a piece -/

section

variable {t cs : Text} {pos : Nat} {c : Char}

theorem reverse_take_succ (here : t.drop pos = c :: cs) :
    (t.take (pos + 1)).reverse = c :: (t.take pos).reverse := by
  rw [List.take_add, here, List.reverse_append]
  rfl

theorem getLastD_take_succ (here : t.drop pos = c :: cs) (before : Char) :
    (t.take (pos + 1)).getLastD before = c := by
  rw [List.take_add, here]
  simp

/-- A scan that passes over one character after the other up to `stop` goes on there. -/
theorem eq_of_passes {α : Type} (scan : Nat → Nat → α) (landed : ∀ pos, scan pos pos = scan pos 0)
    (passes : ∀ {pos stop}, pos < stop → scan pos stop = scan (pos + 1) stop) {pos stop : Nat}
    (h : pos ≤ stop) : scan pos stop = scan stop 0 := by
  induction h using Nat.decreasingInduction with
  | self => exact landed stop
  | of_succ pos before ih => rw [passes before, ih]

/-- At an offset there is a character, or the text has ended. -/
theorem drop_cases (t : Text) (pos : Nat) :
    (t.drop pos = [] ∧ t.drop (pos + 1) = [] ∧ t.length ≤ pos) ∨
      ∃ c cs, t.drop pos = c :: cs ∧ t.drop (pos + 1) = cs ∧ pos < t.length := by
  rcases Nat.lt_or_ge pos t.length with inside | ended
  · obtain ⟨c, cs, here⟩ := drop_eq_cons inside
    exact .inr ⟨c, cs, here, drop_succ here, inside⟩
  · exact .inl ⟨List.drop_eq_nil_of_le ended, List.drop_eq_nil_of_le (by omega), ended⟩

variable (t) {stop : Nat} (h : pos ≤ stop)

include h

theorem literalEnd_resume (quote : Char) :
    literalEnd quote (min pos t.length) stop (t.drop pos) = (scanners t).literal quote stop := by
  refine eq_of_passes (fun pos stop => literalEnd quote (min pos t.length) stop (t.drop pos))
    (fun pos => ?_) (fun {pos stop} before => ?_) h
  · rcases drop_cases t pos with ⟨ended, -, -⟩ | ⟨c, cs, here, -, inside⟩
    · simp only [ended, literalEnd]
    · exact literalEnd_of_le quote _ (by omega)
  · rcases drop_cases t pos with ⟨ended, ended', beyond⟩ | ⟨c, cs, here, next, inside⟩
    · simp only [ended, ended', literalEnd]
      omega
    · simp only [here, next, Nat.min_eq_left inside.le, Nat.min_eq_left inside]
      rw [literalEnd.eq_def]
      simp only [if_pos before]

theorem bracketEnd_resume (kind : Bracket) (depth : Nat) :
    bracketEnd kind depth (t.take pos).reverse pos stop (t.drop pos) =
      (scanners t).bracket kind depth stop := by
  refine eq_of_passes
    (fun pos stop => bracketEnd kind depth (t.take pos).reverse pos stop (t.drop pos))
    (fun pos => bracketEnd_of_le kind _ (Nat.le_refl pos)) (fun {pos stop} before => ?_) h
  rcases drop_cases t pos with ⟨ended, ended', -⟩ | ⟨c, cs, here, next, -⟩
  · simp only [ended, ended', bracketEnd]
  · simp only [here, next, reverse_take_succ here]
    rw [bracketEnd, if_pos before]

theorem tagEnd_resume (name : Text) (start : Nat) :
    tagEnd name start ((t.take pos).getLastD '<') pos stop (t.drop pos) =
      (scanners t).tag name start stop := by
  refine eq_of_passes
    (fun pos stop => tagEnd name start ((t.take pos).getLastD '<') pos stop (t.drop pos))
    (fun pos => tagEnd_of_le name start _ (Nat.le_refl pos)) (fun {pos stop} before => ?_) h
  rcases drop_cases t pos with ⟨ended, ended', -⟩ | ⟨c, cs, here, next, -⟩
  · simp only [ended, ended', tagEnd]
  · simp only [here, next, getLastD_take_succ here]
    rw [tagEnd, if_pos before]

theorem tokensFrom_resume (textStart : Nat) :
    tokensFrom textStart (min pos t.length) stop (t.drop pos) =
      (scanners t).tokens textStart stop := by
  refine eq_of_passes (fun pos stop => tokensFrom textStart (min pos t.length) stop (t.drop pos))
    (fun pos => ?_) (fun {pos stop} before => ?_) h
  · rcases drop_cases t pos with ⟨ended, -, -⟩ | ⟨c, cs, here, -, inside⟩
    · simp only [ended, tokensFrom]
    · exact tokensFrom_of_le _ (by omega)
  · rcases drop_cases t pos with ⟨ended, ended', beyond⟩ | ⟨c, cs, here, next, inside⟩
    · simp only [ended, ended', tokensFrom, Nat.min_eq_right beyond,
        Nat.min_eq_right (Nat.le_succ_of_le beyond)]
    · simp only [here, next, Nat.min_eq_left inside.le, Nat.min_eq_left inside]
      rw [tokensFrom, if_pos before]

theorem childrenEnd_resume (name : Text) (depth : Nat) :
    childrenEnd name depth pos stop (t.drop pos) = (scanners t).children name depth stop := by
  refine eq_of_passes (fun pos stop => childrenEnd name depth pos stop (t.drop pos))
    (fun pos => childrenEnd_of_le name _ (Nat.le_refl pos)) (fun {pos stop} before => ?_) h
  rcases drop_cases t pos with ⟨ended, ended', -⟩ | ⟨c, cs, here, next, -⟩
  · simp only [ended, ended', childrenEnd]
  · simp only [here, next]
    rw [childrenEnd, if_pos before]

end

/-! ## The answers of the scanners -/

/-- Brackets depend on what stands before them only as far as a `<` does. -/
theorem bracketEnd_of_opensMarkup (kind : Bracket) {around around' : Text}
    (same : ∀ behind ahead, opensMarkup (behind ++ around) ahead =
      opensMarkup (behind ++ around') ahead) :
    ∀ (t behind : Text) (depth pos resume : Nat),
      bracketEnd kind depth (behind ++ around) pos resume t =
        bracketEnd kind depth (behind ++ around') pos resume t
  | [], _, _, _, _ => rfl
  | c :: cs, behind, depth, pos, resume => by
    have ih := fun depth resume =>
      bracketEnd_of_opensMarkup kind same cs (c :: behind) depth (pos + 1) resume
    simp only [List.cons_append] at ih
    have passed : opaqueEnd? pos (behind ++ around) c cs =
        opaqueEnd? pos (behind ++ around') c cs := by
      simp only [opaqueEnd?, opaqueEndBy, same]
    rw [bracketEnd, bracketEnd, opaqueEndBy_eq, opaqueEndBy_eq, passed]
    simp only [ih]

/-- It does not matter what stands before a place where a value is expected. -/
theorem bracketEnd_of_opensValue (kind : Bracket) {around : Text} (value : opensValue around)
    (t behind : Text) (depth pos resume : Nat) :
    bracketEnd kind depth (behind ++ around) pos resume t =
      bracketEnd kind depth behind pos resume t := by
  have same : ∀ behind ahead, opensMarkup (behind ++ around) ahead =
      opensMarkup (behind ++ []) ahead := by
    intro behind ahead
    rw [opensMarkup_of_opensValue_behind value, List.append_nil]
  have moved := bracketEnd_of_opensMarkup kind same t behind depth pos resume
  rwa [List.append_nil] at moved

theorem opensValue_opener (kind : Bracket) (before : Text) :
    opensValue (kind.opener :: before) := by
  have layout : isLayout kind.opener = false := by cases kind <;> decide
  rw [opensValue, List.dropWhile_cons_of_neg (by simp [layout])]
  cases kind <;> rfl

section

variable {t cs : Text} {pos : Nat} {c : Char}

/-- Behind its opening character a bracket is scanned as the scanners say. -/
theorem bracket_scanners (kind : Bracket) (here : t.drop pos = kind.opener :: cs) :
    (scanners t).bracket kind 0 (pos + 1) = bracketEnd kind 0 [kind.opener] (pos + 1) 0 cs := by
  have alone := bracketEnd_of_opensValue kind (opensValue_opener kind []) cs [] 0 (pos + 1) 0
  have around := bracketEnd_of_opensValue kind (opensValue_opener kind (t.take pos).reverse) cs [] 0
    (pos + 1) 0
  rw [List.nil_append] at alone around
  rw [alone, ← around, ← reverse_take_succ here, ← drop_succ here]
  rfl

theorem literal_scanners (here : t.drop pos = c :: cs) (quote : Char) :
    (scanners t).literal quote (pos + 1) = literalEnd quote (pos + 1) 0 cs := by
  have size := length_of_drop_eq_cons here
  rw [← drop_succ here]
  simp only [scanners, Nat.min_eq_left (show pos + 1 ≤ t.length by omega)]

/-- The scanners read the tag or expression that is there. -/
theorem mark_scanners (here : t.drop pos = c :: cs) :
    (scanners t).mark pos c cs = markAt pos c cs := by
  rw [Scanners.mark, markAt, markBy.eq_def, markBy.eq_def]
  split
  · rename_i brace
    subst brace
    rw [bracket_scanners .curly here]
    rfl
  · split
    · rename_i opens
      obtain ⟨rfl, -⟩ : c = '<' ∧ opensTag cs := by simpa using opens
      have tag : (scanners t).tag (tagName cs) pos (pos + 1 + (tagName cs).length) =
          tagEnd (tagName cs) pos '<' (pos + 1) (pos + 1 + (tagName cs).length) cs := by
        rw [← tagEnd_resume t (Nat.le_add_right (pos + 1) _), getLastD_take_succ here,
          drop_succ here]
      rw [tag]
    · rfl

end

/-! ## The scanners keep their turns -/

section

variable (t : Text)

theorem literal_turn (quote : Char) (pos : Nat) :
    ((scanners t).turn t).literal quote pos = (scanners t).literal quote pos := by
  simp only [Scanners.turn]
  rcases drop_cases t pos with ⟨ended, -, beyond⟩ | ⟨c, cs, here, next, inside⟩
  · simp only [ended, scanners, literalEnd, Nat.min_eq_right beyond]
  have goes : ∀ stop, pos + 1 ≤ stop →
      literalEnd quote (pos + 1) stop cs = (scanners t).literal quote stop := by
    intro stop after
    rw [← literalEnd_resume t after, next, Nat.min_eq_left inside]
  have start : (scanners t).literal quote pos = literalEnd quote pos 0 (c :: cs) := by
    simp only [scanners, here, Nat.min_eq_left inside.le]
  rw [here, start]
  by_cases substitution : quote = '`' ∧ c = '$' ∧ cs.head? = some '{'
  · obtain ⟨rfl, rfl, brace⟩ := substitution
    obtain ⟨inner, rfl⟩ : ∃ inner, cs = '{' :: inner := ⟨cs.tail, (List.cons_head?_tail brace).symm⟩
    have within := bracket_scanners .curly next
    have size := length_of_drop_eq_cons next
    simp only [Char.reduceEq, if_false, true_and, List.head?_cons, if_true]
    rw [within]
    cases found : bracketEnd .curly 0 [Bracket.curly.opener] (pos + 1 + 1) 0 inner with
    | none =>
      rw [literalEnd_unclosed found]
      exact size.symm
    | some stop =>
      have after := (bracketEnd_found .curly found).bounds.1
      rw [literalEnd_substitution found]
      exact (literalEnd_resume t (show pos + 2 ≤ stop from after.le) '`').symm.trans (by
        rw [Nat.min_eq_left (by omega), ← List.drop_drop, here]
        rfl)
  · rw [literalEnd_cons (by simpa using substitution)]
    simp only [Nat.not_lt_zero, if_false, if_neg substitution]
    rw [goes (pos + 2) (by omega), ← goes (pos + 1) (Nat.le_refl _),
      literalEnd_of_le quote cs (Nat.le_refl (pos + 1))]

theorem lt_opaqueEnd? {pos stop : Nat} {behind cs : Text} {c : Char}
    (found : opaqueEnd? pos behind c cs = some stop) : pos < stop := by
  rw [opaqueEnd?, opaqueEndBy] at found
  split at found
  · obtain rfl := Option.some.inj found
    exact (literalEnd_bounds c cs (pos + 1) 0).1
  split at found
  · exact lt_commentEnd? found
  split at found
  · cases element : elementEnd pos c cs with
    | error fault => simp [element] at found
    | ok end? =>
      rw [element] at found
      subst found
      exact Nat.lt_of_succ_lt (elementEnd_found element).2.bounds.1
  · cases found

theorem lt_bracket {t : Text} {kind : Bracket} {depth pos stop : Nat}
    (found : (scanners t).bracket kind depth pos = some stop) : pos < stop :=
  (bracketEnd_found kind found).bounds.1

variable {t} in
theorem passed_scanners {pos : Nat} {c : Char} {cs : Text} (here : t.drop pos = c :: cs) :
    opaqueEndBy pos c (t.take pos).reverse cs (fun _ => (scanners t).literal c (pos + 1))
      (fun _ => (scanners t).element pos) = opaqueEnd? pos (t.take pos).reverse c cs := by
  rw [opaqueEnd?, literal_scanners here]
  simp only [scanners, elementEndAt, here]

theorem bracket_turn (kind : Bracket) (depth pos : Nat) :
    ((scanners t).turn t).bracket kind depth pos = (scanners t).bracket kind depth pos := by
  simp only [Scanners.turn]
  rcases drop_cases t pos with ⟨ended, -, -⟩ | ⟨c, cs, here, next, inside⟩
  · simp only [ended, scanners, bracketEnd]
  have goes : ∀ depth stop, pos + 1 ≤ stop →
      bracketEnd kind depth (c :: (t.take pos).reverse) (pos + 1) stop cs =
        (scanners t).bracket kind depth stop := by
    intro depth stop after
    rw [← bracketEnd_resume t after, next, reverse_take_succ here]
  have step : ∀ depth,
      bracketEnd kind depth (c :: (t.take pos).reverse) (pos + 1) 0 cs =
        (scanners t).bracket kind depth (pos + 1) :=
    fun depth => (bracketEnd_of_le kind cs (Nat.le_refl (pos + 1))).symm.trans
      (goes depth (pos + 1) (Nat.le_refl _))
  have start : (scanners t).bracket kind depth pos =
      bracketEnd kind depth (t.take pos).reverse pos 0 (c :: cs) := by
    simp only [scanners, here]
  rw [here, start]
  dsimp only
  rw [passed_scanners here]
  cases found : opaqueEnd? pos (t.take pos).reverse c cs with
  | some stop => rw [bracketEnd_covered found, goes depth stop (lt_opaqueEnd? found)]
  | none =>
    rw [bracketEnd_bare found]
    simp only [step]

theorem tag_turn (name : Text) (start pos : Nat) :
    ((scanners t).turn t).tag name start pos = (scanners t).tag name start pos := by
  simp only [Scanners.turn]
  rcases drop_cases t pos with ⟨ended, -, -⟩ | ⟨c, cs, here, next, inside⟩
  · simp only [ended, scanners, tagEnd]
  have goes : ∀ stop, pos + 1 ≤ stop →
      tagEnd name start c (pos + 1) stop cs = (scanners t).tag name start stop := by
    intro stop after
    rw [← tagEnd_resume t after, next, getLastD_take_succ here]
  have step : tagEnd name start c (pos + 1) 0 cs = (scanners t).tag name start (pos + 1) :=
    (tagEnd_of_le name start cs (Nat.le_refl (pos + 1))).symm.trans (goes (pos + 1) (Nat.le_refl _))
  have first : (scanners t).tag name start pos =
      tagEnd name start ((t.take pos).getLastD '<') pos 0 (c :: cs) := by
    simp only [scanners, here]
  rw [here, first, tagEnd]
  simp only [Nat.not_lt_zero, if_false, Bool.or_eq_true, decide_eq_true_eq, step]
  by_cases quoted : c = '"' ∨ c = '\''
  · rw [if_pos quoted, if_pos quoted, literal_scanners here]
    exact (goes _ (literalEnd_bounds c cs (pos + 1) 0).1).symm
  rw [if_neg quoted, if_neg quoted]
  by_cases brace : c = '{'
  · subst brace
    rw [if_pos rfl, if_pos rfl, bracket_scanners .curly here]
    cases found : bracketEnd .curly 0 [Bracket.curly.opener] (pos + 1) 0 cs with
    | none =>
      have found : bracketEnd .curly 0 ['{'] (pos + 1) 0 cs = none := found
      rw [found]
    | some stop =>
      have after := (bracketEnd_found .curly found).bounds.1
      have found : bracketEnd .curly 0 ['{'] (pos + 1) 0 cs = some stop := found
      rw [found]
      exact (goes stop after.le).symm
  · rw [if_neg brace, if_neg brace]

theorem tokens_turn (textStart pos : Nat) :
    ((scanners t).turn t).tokens textStart pos = (scanners t).tokens textStart pos := by
  simp only [Scanners.turn]
  rcases drop_cases t pos with ⟨ended, -, beyond⟩ | ⟨c, cs, here, next, inside⟩
  · simp only [ended, scanners, tokensFrom, Nat.min_eq_right beyond]
  have goes : ∀ textStart stop, pos + 1 ≤ stop →
      tokensFrom textStart (pos + 1) stop cs = (scanners t).tokens textStart stop := by
    intro textStart stop after
    rw [← tokensFrom_resume t after, next, Nat.min_eq_left inside]
  have step : tokensFrom textStart (pos + 1) 0 cs = (scanners t).tokens textStart (pos + 1) :=
    (tokensFrom_of_le cs (Nat.le_refl (pos + 1))).symm.trans
      (goes textStart (pos + 1) (Nat.le_refl _))
  have start : (scanners t).tokens textStart pos = tokensFrom textStart pos 0 (c :: cs) := by
    simp only [scanners, here, Nat.min_eq_left inside.le]
  rw [here, start, tokensFrom]
  dsimp only
  rw [if_neg (Nat.not_lt_zero _), mark_scanners here, step]
  cases mark : markAt pos c cs with
  | none => rfl
  | some found =>
    cases found with
    | error fault => rfl
    | ok token =>
      dsimp only
      exact goes token.stop token.stop (markAt_bounds mark).2.1 ▸ rfl

theorem children_turn (name : Text) (depth pos : Nat) :
    ((scanners t).turn t).children name depth pos = (scanners t).children name depth pos := by
  simp only [Scanners.turn]
  rcases drop_cases t pos with ⟨ended, -, -⟩ | ⟨c, cs, here, next, inside⟩
  · simp only [ended, scanners, childrenEnd]
  have goes : ∀ depth stop, pos + 1 ≤ stop →
      childrenEnd name depth (pos + 1) stop cs = (scanners t).children name depth stop := by
    intro depth stop after
    rw [← childrenEnd_resume t after, next]
  have step : childrenEnd name depth (pos + 1) 0 cs = (scanners t).children name depth (pos + 1) :=
    (childrenEnd_of_le name cs (Nat.le_refl (pos + 1))).symm.trans
      (goes depth (pos + 1) (Nat.le_refl _))
  have start : (scanners t).children name depth pos = childrenEnd name depth pos 0 (c :: cs) := by
    simp only [scanners, here]
  rw [here, start, childrenEnd]
  dsimp only
  rw [if_neg (Nat.not_lt_zero _), mark_scanners here, step, ← markAt]
  cases mark : markAt pos c cs with
  | none => rfl
  | some found =>
    cases found with
    | error fault => rfl
    | ok token =>
      have rest : (fun depth => childrenEnd name depth (pos + 1) token.stop cs) =
          fun depth => (scanners t).children name depth token.stop :=
        funext fun depth => goes depth token.stop (markAt_bounds mark).2.1
      exact congrArg (fun next : Nat → Except MarkupFault (Option Nat) => match token.kind with
        | .opening => next (depth + 1)
        | .closing =>
          if depth = 0 then .ok (if token.name = name then some token.stop else none)
          else next (depth - 1)
        | _ => next depth) rest.symm

theorem element_turn (pos : Nat) :
    ((scanners t).turn t).element pos = (scanners t).element pos := by
  simp only [Scanners.turn]
  rcases drop_cases t pos with ⟨ended, -, -⟩ | ⟨c, cs, here, next, inside⟩
  · simp only [ended, scanners, elementEndAt]
  have start : (scanners t).element pos = elementEnd pos c cs := by
    simp only [scanners, elementEndAt, here]
  rw [here, start, elementEnd]
  dsimp only
  rw [mark_scanners here]
  cases mark : markAt pos c cs with
  | none => rfl
  | some found =>
    cases found with
    | error fault => rfl
    | ok token =>
      have goes : childrenEnd token.name 0 (pos + 1) token.stop cs =
          (scanners t).children token.name 0 token.stop := by
        rw [← childrenEnd_resume t (show pos + 1 ≤ token.stop from (markAt_bounds mark).2.1), next]
      dsimp only
      exact goes ▸ rfl

end

/-! ## How deep the calls go -/

/-- The answers are those of the scanners wherever what is left of the text allows at most `depth`
calls in a chain: two for each character, one for the element that starts there and one for any
other scanner. -/
structure Scanners.SettledTo (t : Text) (depth : Nat) (answers : Scanners) : Prop where
  literal : ∀ quote pos, 2 * (t.length - pos) + 2 ≤ depth →
    answers.literal quote pos = (scanners t).literal quote pos
  bracket : ∀ kind level pos, 2 * (t.length - pos) + 2 ≤ depth →
    answers.bracket kind level pos = (scanners t).bracket kind level pos
  tag : ∀ name start pos, 2 * (t.length - pos) + 2 ≤ depth →
    answers.tag name start pos = (scanners t).tag name start pos
  tokens : ∀ textStart pos, 2 * (t.length - pos) + 2 ≤ depth →
    answers.tokens textStart pos = (scanners t).tokens textStart pos
  children : ∀ name level pos, 2 * (t.length - pos) + 2 ≤ depth →
    answers.children name level pos = (scanners t).children name level pos
  element : ∀ pos, 2 * (t.length - pos) + 1 ≤ depth → answers.element pos = (scanners t).element pos

namespace Scanners.SettledTo

variable {t : Text} {depth : Nat} {answers : Scanners}

theorem zero (t : Text) (answers : Scanners) : SettledTo t 0 answers := by
  constructor <;> intros <;> omega

variable (settled : SettledTo t depth answers)

include settled

theorem mark_eq {pos : Nat} {c : Char} {cs : Text} (inside : pos < t.length)
    (deep : 2 * (t.length - pos) ≤ depth) : answers.mark pos c cs = (scanners t).mark pos c cs := by
  rw [mark, mark, settled.bracket .curly 0 (pos + 1) (by omega)]
  congr 1
  funext name
  exact settled.tag name pos (pos + 1 + name.length) (by omega)

theorem turn_literal (quote : Char) {pos : Nat} (deep : 2 * (t.length - pos) + 2 ≤ depth + 1) :
    (answers.turn t).literal quote pos = (scanners t).literal quote pos := by
  rw [← literal_turn]
  simp only [Scanners.turn]
  rcases drop_cases t pos with ⟨ended, -, -⟩ | ⟨c, cs, here, next, inside⟩
  · rw [ended]
  rw [here]
  dsimp only
  rw [settled.literal quote (pos + 1) (by omega), settled.literal quote (pos + 2) (by omega),
    settled.bracket .curly 0 (pos + 2) (by omega)]
  cases found : (scanners t).bracket .curly 0 (pos + 2) with
  | none => rfl
  | some stop =>
    have after := lt_bracket found
    simp only [settled.literal quote stop (by omega)]

theorem turn_bracket (kind : Bracket) (level : Nat) {pos : Nat}
    (deep : 2 * (t.length - pos) + 2 ≤ depth + 1) :
    (answers.turn t).bracket kind level pos = (scanners t).bracket kind level pos := by
  rw [← bracket_turn]
  simp only [Scanners.turn]
  rcases drop_cases t pos with ⟨ended, -, -⟩ | ⟨c, cs, here, next, inside⟩
  · rw [ended]
  have next : ∀ level, answers.bracket kind level (pos + 1) =
      (scanners t).bracket kind level (pos + 1) :=
    fun level => settled.bracket kind level (pos + 1) (by omega)
  rw [here]
  dsimp only
  rw [settled.literal c (pos + 1) (by omega), settled.element pos (by omega), passed_scanners here]
  simp only [next]
  cases found : opaqueEnd? pos (t.take pos).reverse c cs with
  | none => rfl
  | some stop =>
    have after := lt_opaqueEnd? found
    exact settled.bracket kind level stop (by omega)

theorem turn_tag (name : Text) (start : Nat) {pos : Nat}
    (deep : 2 * (t.length - pos) + 2 ≤ depth + 1) :
    (answers.turn t).tag name start pos = (scanners t).tag name start pos := by
  rw [← tag_turn]
  simp only [Scanners.turn]
  rcases drop_cases t pos with ⟨ended, -, -⟩ | ⟨c, cs, here, next, inside⟩
  · rw [ended]
  have after : pos + 1 ≤ (scanners t).literal c (pos + 1) := by
    rw [literal_scanners here]
    exact (literalEnd_bounds c cs (pos + 1) 0).1
  rw [here]
  dsimp only
  rw [settled.literal c (pos + 1) (by omega),
    settled.tag name start ((scanners t).literal c (pos + 1)) (by omega),
    settled.tag name start (pos + 1) (by omega), settled.bracket .curly 0 (pos + 1) (by omega)]
  cases found : (scanners t).bracket .curly 0 (pos + 1) with
  | none => rfl
  | some stop =>
    have after := lt_bracket found
    simp only [settled.tag name start stop (by omega)]

theorem turn_tokens (textStart : Nat) {pos : Nat} (deep : 2 * (t.length - pos) + 2 ≤ depth + 1) :
    (answers.turn t).tokens textStart pos = (scanners t).tokens textStart pos := by
  rw [← tokens_turn]
  simp only [Scanners.turn]
  rcases drop_cases t pos with ⟨ended, -, -⟩ | ⟨c, cs, here, next, inside⟩
  · rw [ended]
  rw [here]
  dsimp only
  rw [settled.mark_eq inside (by omega), mark_scanners here,
    settled.tokens textStart (pos + 1) (by omega)]
  rcases mark : markAt pos c cs with _ | _ | token
  · rfl
  · rfl
  · have after := (markAt_bounds mark).2.1
    simp only [settled.tokens token.stop token.stop (by omega)]

theorem turn_children (name : Text) (level : Nat) {pos : Nat}
    (deep : 2 * (t.length - pos) + 2 ≤ depth + 1) :
    (answers.turn t).children name level pos = (scanners t).children name level pos := by
  rw [← children_turn]
  simp only [Scanners.turn]
  rcases drop_cases t pos with ⟨ended, -, -⟩ | ⟨c, cs, here, next, inside⟩
  · rw [ended]
  rw [here]
  dsimp only
  rw [settled.mark_eq inside (by omega), mark_scanners here,
    settled.children name level (pos + 1) (by omega)]
  rcases mark : markAt pos c cs with _ | _ | token
  · rfl
  · rfl
  · have after := (markAt_bounds mark).2.1
    have next : ∀ level, answers.children name level token.stop =
        (scanners t).children name level token.stop :=
      fun level => settled.children name level token.stop (by omega)
    simp only [next]

theorem turn_element {pos : Nat} (deep : 2 * (t.length - pos) + 1 ≤ depth + 1) :
    (answers.turn t).element pos = (scanners t).element pos := by
  rw [← element_turn]
  simp only [Scanners.turn]
  rcases drop_cases t pos with ⟨ended, -, -⟩ | ⟨c, cs, here, next, inside⟩
  · rw [ended]
  rw [here]
  dsimp only
  rw [settled.mark_eq inside (by omega), mark_scanners here]
  rcases mark : markAt pos c cs with _ | _ | token
  · rfl
  · rfl
  · have after := (markAt_bounds mark).2.1
    simp only [settled.children token.name 0 token.stop (by omega)]

/-- With one more turn the answers reach one call further. -/
theorem turn : SettledTo t (depth + 1) (answers.turn t) where
  literal quote _ deep := settled.turn_literal quote deep
  bracket kind level _ deep := settled.turn_bracket kind level deep
  tag name start _ deep := settled.turn_tag name start deep
  tokens textStart _ deep := settled.turn_tokens textStart deep
  children name level _ deep := settled.turn_children name level deep
  element _ deep := settled.turn_element deep

omit settled in
theorem iterate (t : Text) (answers : Scanners) :
    ∀ depth, SettledTo t depth ((Scanners.turn t)^[depth] answers)
  | 0 => zero t answers
  | depth + 1 => by
    rw [Function.iterate_succ_apply']
    exact (iterate t answers depth).turn

end Scanners.SettledTo

/-- After so many turns the answers are those of the scanners, whatever they were before: no chain
of calls is longer. -/
theorem turn_iterate (t : Text) (answers : Scanners) :
    (Scanners.turn t)^[2 * t.length + 2] answers = scanners t := by
  have settled := Scanners.SettledTo.iterate t answers (2 * t.length + 2)
  ext1
  · exact funext fun quote => funext fun pos => settled.literal quote pos (by omega)
  · exact funext fun kind => funext fun level => funext fun pos =>
      settled.bracket kind level pos (by omega)
  · exact funext fun name => funext fun start => funext fun pos =>
      settled.tag name start pos (by omega)
  · exact funext fun textStart => funext fun pos => settled.tokens textStart pos (by omega)
  · exact funext fun name => funext fun level => funext fun pos =>
      settled.children name level pos (by omega)
  · exact funext fun pos => settled.element pos (by omega)

/-! ## Bounds -/

/-- The offset lies in the text, further on than `pos` and right behind the character `last`. -/
def EndsBehind (t : Text) (last : Char) (pos stop : Nat) : Prop :=
  pos < stop ∧ stop ≤ t.length ∧ t[stop - 1]? = some last

section

variable {t : Text} {pos : Nat} {c : Char}

theorem EndsBy.behind {last : Char} {stop : Nat} (inside : pos ≤ t.length)
    (h : EndsBy last pos (t.drop pos) stop) : EndsBehind t last pos stop := by
  have bounds := h.bounds
  rw [List.length_drop] at bounds
  obtain ⟨inner, rest, text, rfl⟩ := h
  refine ⟨bounds.1, by omega, ?_⟩
  rw [Nat.add_sub_cancel, ← List.getElem?_drop, text]
  simp

theorem literalEndAt_eq (here : t[pos]? = some c) :
    literalEndAt t pos = (scanners t).literal c (pos + 1) := by
  obtain ⟨cs, here⟩ := exists_drop_eq here
  rw [literalEndAt, here, literal_scanners here]

/-- A literal ends further on in the text. -/
theorem literalEndAt_bounds (here : t[pos]? = some c) :
    pos < literalEndAt t pos ∧ literalEndAt t pos ≤ t.length := by
  obtain ⟨cs, here⟩ := exists_drop_eq here
  have size := length_of_drop_eq_cons here
  have bounds := literalEnd_bounds c cs (pos + 1) 0
  rw [literalEndAt, here]
  dsimp only
  omega

theorem bracketEndAt?_eq {kind : Bracket} (here : t[pos]? = some kind.opener) :
    bracketEndAt? t pos = (scanners t).bracket kind 0 (pos + 1) := by
  have kinds : Bracket.ofOpener? kind.opener = some kind := by cases kind <;> rfl
  obtain ⟨cs, here⟩ := exists_drop_eq here
  rw [bracketEndAt?, here, bracket_scanners kind here]
  simp only [kinds, Option.bind_some]

/-- A bracket ends right behind its closing character. -/
theorem bracketEndAt?_behind (kind : Bracket) {stop : Nat} (here : t[pos]? = some kind.opener)
    (found : bracketEndAt? t pos = some stop) : EndsBehind t kind.closer (pos + 1) stop := by
  have inside := (List.getElem?_eq_some_iff.1 here).1
  exact (bracketEnd_found kind ((bracketEndAt?_eq here).symm.trans found)).behind inside

theorem tagEndAt_eq (here : t[pos]? = some c) :
    tagEndAt t pos = (scanners t).tag (tagNameAt t pos) pos
      (pos + 1 + (tagNameAt t pos).length) := by
  obtain ⟨cs, here⟩ := exists_drop_eq here
  rw [← tagEnd_resume t (Nat.le_add_right (pos + 1) _), getLastD_take_succ here]
  simp only [tagEndAt, here, List.headD_cons]

theorem tokens_eq (t : Text) (start : Nat) : tokens t start = (scanners t).tokens start start := by
  simp only [tokens, scanners]
  rcases Nat.lt_or_ge start t.length with inside | ended
  · rw [Nat.min_eq_left inside.le]
  · simp only [List.drop_eq_nil_of_le ended, tokensFrom, textToken]
    rw [if_neg (by omega), if_neg (by omega)]

end

/-- The calls of the scanners come to an end on every text, after at most two for each character and
two more. What each of them finds lies further on and inside the text: a literal ends there, a
bracket right behind its closing character, and a tag and an element right behind a `>`. -/
theorem scanners_progress (t : Text) :
    (∀ answers : Scanners, (Scanners.turn t)^[2 * t.length + 2] answers = scanners t) ∧
      ∀ pos c, t[pos]? = some c →
        (literalEndAt t pos = (scanners t).literal c (pos + 1) ∧
          pos < literalEndAt t pos ∧ literalEndAt t pos ≤ t.length) ∧
        (∀ kind : Bracket, c = kind.opener →
          bracketEndAt? t pos = (scanners t).bracket kind 0 (pos + 1) ∧
          ∀ stop, bracketEndAt? t pos = some stop → EndsBehind t kind.closer (pos + 1) stop) ∧
        (tagEndAt t pos = (scanners t).tag (tagNameAt t pos) pos
          (pos + 1 + (tagNameAt t pos).length) ∧
          ∀ tag, tagEndAt t pos = .ok tag → EndsBehind t '>' pos tag.stop) ∧
        tokens t pos = (scanners t).tokens pos pos ∧
        (elementEndAt t pos = (scanners t).element pos ∧
          ∀ stop, elementEndAt t pos = .ok (some stop) → EndsBehind t '>' pos stop) := by
  refine ⟨turn_iterate t, fun pos c here => ?_⟩
  obtain ⟨cs, ahead⟩ := exists_drop_eq here
  have inside : pos + 1 ≤ t.length := by
    have := length_of_drop_eq_cons ahead
    omega
  -- a tag and an element end behind a `>` that stands behind their first character
  have behind : ∀ {stop}, EndsBehind t '>' (pos + 1) stop → EndsBehind t '>' pos stop :=
    fun h => ⟨Nat.lt_of_succ_lt h.1, h.2⟩
  refine ⟨⟨literalEndAt_eq here, literalEndAt_bounds here⟩, ?_, ⟨tagEndAt_eq here, ?_⟩,
    tokens_eq t pos, rfl, ?_⟩
  · rintro kind rfl
    exact ⟨bracketEndAt?_eq here, fun stop found => bracketEndAt?_behind kind here found⟩
  · intro tag found
    exact behind ((tagEnd_found found).behind inside)
  · intro stop found
    rw [elementEndAt, ahead] at found
    have ends := (elementEnd_found found).2
    rw [← drop_succ ahead] at ends
    exact behind (ends.behind inside)

/-- A bracket in which a template, code, an element and a string lie in each other. -/
def nestedScans : Text :=
  "f(`a$\x7b<p b='>'>)</p>\x7d`)".toList

theorem scanners_progress_nestedScans :
    bracketEndAt? nestedScans 1 = some 23 ∧ EndsBehind nestedScans ')' 2 23 ∧
      elementEndAt nestedScans 6 = .ok (some 20) ∧ EndsBehind nestedScans '>' 6 20 := by
  have bracket : bracketEndAt? nestedScans 1 = some 23 := by decide +kernel
  have element : elementEndAt nestedScans 6 = .ok (some 20) := by decide +kernel
  have opening : nestedScans[1]? = some '(' := by decide +kernel
  have tag : nestedScans[6]? = some '<' := by decide +kernel
  exact ⟨bracket, (((scanners_progress nestedScans).2 1 '(' opening).2.1 .round rfl).2 23 bracket,
    element,
    ((scanners_progress nestedScans).2 6 '<' tag).2.2.2.2.2 20 element⟩

end Recast
