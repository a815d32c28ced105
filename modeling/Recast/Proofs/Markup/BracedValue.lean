import Recast.Proofs.Markup.ElementExtent
import Recast.Proofs.Scope.LiteralScan

/-!
# Values that close in braces of their own

Code that is cut out of its braces and put among other code is scanned anew there. What the scanner
meets in it may depend on what follows: a comment or a string may have lost its end, and a tag may
find one that was not its own. `IsContained` says that neither happens: the code closes in braces of
its own, and each tag that it opens is a whole element.

A scan that ends inside such code ends at the same place whatever follows (`literalEnd_local`), so
the search for a closing brace goes on behind the code, at the same depth, wherever a value is
expected (`IsContained.clears`).
-/

namespace Recast

/-! ## What surrounds a value -/

/-- What may follow a value: a comma, a colon, a space or a closing brace. -/
def endsValue (rest : Text) : Bool :=
  rest.head?.all fun c => c == ',' || c == ':' || c == ' ' || c == '}'

theorem opensMarkup_endsValue {rest : Text} (h : endsValue rest) (behind : Text) :
    opensMarkup behind rest = false := by
  cases rest with
  | nil => rfl
  | cons c cs =>
    have first : ((c = ',' ∨ c = ':') ∨ c = ' ') ∨ c = '}' := by simpa [endsValue] using h
    have none : (isLetter c || c == '_' || c == '$' || c == '>') = false := by
      rcases first with ((rfl | rfl) | rfl) | rfl <;> decide
    rw [opensMarkup, none, Bool.false_and]

theorem commentEnd?_endsValue {rest : Text} (h : endsValue rest) (pos : Nat) :
    commentEnd? pos '/' rest = none := by
  cases rest with
  | nil => rfl
  | cons c cs =>
    have first : ((c = ',' ∨ c = ':') ∨ c = ' ') ∨ c = '}' := by simpa [endsValue] using h
    rcases first with ((rfl | rfl) | rfl) | rfl <;> rfl

/-- Whether a `<` opens markup depends on the next character only, of what follows. -/
theorem opensMarkup_append (behind : Text) {ahead : Text} (filled : ahead ≠ []) (rest : Text) :
    opensMarkup behind (ahead ++ rest) = opensMarkup behind ahead := by
  obtain ⟨c, cs, rfl⟩ := List.exists_cons_of_ne_nil filled
  rfl

theorem takeWhile_append_of_opensValue {behind : Text} (h : opensValue behind) (front : Text) :
    (front ++ behind).takeWhile isNameChar = front.takeWhile isNameChar := by
  have stops : behind.takeWhile isNameChar = [] := by
    cases behind with
    | nil => rfl
    | cons c cs =>
      have other : isNameChar c = false := by
        cases layout : isLayout c with
        | true =>
          have chars : ((c = ' ' ∨ c = '\t') ∨ c = '\r') ∨ c = '\n' := by
            simpa [isLayout] using layout
          rcases chars with ((rfl | rfl) | rfl) | rfl <;> decide
        | false =>
          rw [opensValue, List.dropWhile_cons_of_neg (by simp [layout])] at h
          have marks : ∀ c ∈ "([=,\x7b:?;!&|%^+-*/~<>".toList, isNameChar c = false := by decide
          exact marks c (by simpa [precedesMarkup] using h)
      rw [List.takeWhile_cons_of_neg (by simp [other])]
  rw [List.takeWhile_append]
  split
  · rw [stops, List.append_nil]
    rename_i whole
    exact (List.takeWhile_prefix isNameChar).eq_of_length whole |>.symm
  · rfl

/-- Where a value is expected, it does not matter why. -/
theorem opensMarkup_of_opensValue_behind {behind : Text} (h : opensValue behind)
    (front ahead : Text) : opensMarkup (front ++ behind) ahead = opensMarkup front ahead := by
  cases ahead with
  | nil => rfl
  | cons next rest =>
    rw [opensMarkup, opensMarkup, List.dropWhile_append]
    cases layout : front.dropWhile isLayout with
    | nil =>
      cases ahead : behind.dropWhile isLayout with
      | nil => rfl
      | cons last before =>
        have precedes : precedesMarkup last := by
          rw [opensValue, ahead] at h
          exact h
        simp [precedes]
    | cons last before =>
      simp only [List.isEmpty_cons, Bool.false_eq_true, if_false, List.cons_append]
      rw [← List.cons_append, takeWhile_append_of_opensValue h]

/-! ## Whole tags -/

/-- Each tag that opens in the text, with `behind` before it, is a whole element. -/
def TagsWhole (behind t : Text) : Prop :=
  ∀ front ahead, t = front ++ '<' :: ahead → opensMarkup (front.reverse ++ behind) ahead →
    ∃ element rest, '<' :: ahead = element ++ rest ∧ IsWhole element

theorem TagsWhole.tail {behind t : Text} {c : Char} (h : TagsWhole behind (c :: t)) :
    TagsWhole (c :: behind) t := by
  intro front ahead split opens
  refine h (c :: front) ahead (by rw [split]; rfl) ?_
  rwa [List.reverse_cons, List.append_assoc, List.singleton_append]

/-- Where a value is expected, it does not matter what stands before it. -/
theorem tagsWhole_iff {behind : Text} (value : opensValue behind) (t : Text) :
    TagsWhole behind t ↔ TagsWhole [] t := by
  simp only [TagsWhole, opensMarkup_of_opensValue_behind value, List.append_nil]

/-- A closing brace behind the text opens no tag. -/
theorem TagsWhole.closed {behind t : Text} (h : TagsWhole behind t) :
    TagsWhole behind (t ++ ['}']) := by
  intro front ahead split opens
  rcases List.append_eq_append_iff.1 split with ⟨more, rfl, same⟩ | ⟨more, rfl, same⟩
  · rcases more with _ | ⟨c, more⟩
    · cases same
    · simp at same
  · rcases more with _ | ⟨c, ahead'⟩
    · cases same
    · obtain ⟨rfl, rfl⟩ := List.cons.inj same
      have filled : ahead' ≠ [] := by
        rintro rfl
        exact Bool.noConfusion opens
      obtain ⟨element, rest, whole, complete⟩ :=
        h front ahead' rfl (by rwa [← opensMarkup_append _ filled ['}']])
      exact ⟨element, rest ++ ['}'], by rw [← List.append_assoc, ← whole]; rfl, complete⟩

/-! ## Pieces that are passed over -/

theorem opaqueEndBy_eq (pos : Nat) (c : Char) (behind cs : Text) :
    opaqueEndBy pos c behind cs (fun _ => literalEnd c (pos + 1) 0 cs) (fun _ =>
        elementEndBy (tagEnd (tagName cs) pos '<' (pos + 1) (pos + 1 + (tagName cs).length) cs)
          fun stop => childrenEnd (tagName cs) 0 (pos + 1) stop cs) =
            opaqueEnd? pos behind c cs := by
  rw [opaqueEnd?, opaqueEndBy, opaqueEndBy]
  by_cases markup : c = '<' ∧ opensMarkup behind cs
  · obtain ⟨rfl, opens⟩ := markup
    have tag : opensTag cs ∧ cs.head? ≠ some '/' := by
      cases cs with
      | nil => exact Bool.noConfusion opens
      | cons next rest =>
        have first := (Bool.and_eq_true_iff.1 opens).1
        simp only [Bool.or_eq_true, beq_iff_eq] at first
        refine ⟨?_, ?_⟩
        · simp only [opensTag, Bool.or_eq_true, beq_iff_eq]
          tauto
        · rintro ⟨⟩
          exact absurd first (by decide)
    rw [elementEndBy_eq pos tag.1 tag.2]
  · have other : ¬ (decide (c = '<') && opensMarkup behind cs) = true := by simpa using markup
    rw [if_neg other, if_neg other]

/-- The search for a closing bracket goes on behind a piece that is passed over. -/
theorem bracketEnd_covered {kind : Bracket} {depth : Nat} {behind : Text} {pos stop : Nat}
    {c : Char} {cs : Text} (h : opaqueEnd? pos behind c cs = some stop) :
    bracketEnd kind depth behind pos 0 (c :: cs) =
      bracketEnd kind depth (c :: behind) (pos + 1) stop cs := by
  rw [bracketEnd, if_neg (Nat.not_lt_zero _), opaqueEndBy_eq, h]

/-- Elsewhere brackets count. -/
theorem bracketEnd_bare {kind : Bracket} {depth : Nat} {behind : Text} {pos : Nat} {c : Char}
    {cs : Text} (h : opaqueEnd? pos behind c cs = none) :
    bracketEnd kind depth behind pos 0 (c :: cs) =
      if c = kind.opener then bracketEnd kind (depth + 1) (c :: behind) (pos + 1) 0 cs
      else if c = kind.closer then
        if depth = 0 then some (pos + 1)
        else bracketEnd kind (depth - 1) (c :: behind) (pos + 1) 0 cs
      else bracketEnd kind depth (c :: behind) (pos + 1) 0 cs := by
  rw [bracketEnd, if_neg (Nat.not_lt_zero _), opaqueEndBy_eq, h]

/-- The closing bracket stands behind what is passed over. -/
theorem resume_lt_bracketEnd {kind : Bracket} :
    ∀ {t : Text} {depth : Nat} {behind : Text} {pos resume stop : Nat},
    bracketEnd kind depth behind pos resume t = some stop → resume < stop
  | [], _, _, _, _, _, h => by simp [bracketEnd] at h
  | c :: cs, depth, behind, pos, resume, stop, h => by
    by_cases passed : pos < resume
    · rw [bracketEnd, if_pos passed] at h
      exact resume_lt_bracketEnd h
    · exact (Nat.not_lt.1 passed).trans_lt (bracketEnd_found kind h).bounds.1

/-! ## Scans that end inside -/

section Local

variable {x : Text}

/-- A line comment that ends before a brace ends there whatever follows. -/
theorem lineEnd_local (y : Text) : ∀ (w : Text) {pos : Nat},
    (offsetOf? (· == '\n') pos (w ++ '}' :: x)).getD (pos + (w ++ '}' :: x).length) ≤
        pos + w.length →
      (offsetOf? (· == '\n') pos (w ++ y)).getD (pos + (w ++ y).length) =
        (offsetOf? (· == '\n') pos (w ++ '}' :: x)).getD (pos + (w ++ '}' :: x).length)
  | [], pos, inside => by
    have later := (le_lineEnd x (pos + 1)).1
    rw [List.nil_append, offsetOf?, if_neg (by decide), List.length_cons, List.length_nil,
      Nat.add_comm x.length, ← Nat.add_assoc] at inside
    omega
  | c :: cs, pos, inside => by
    have length : ∀ t : Text, pos + (c :: cs ++ t).length = pos + 1 + (cs ++ t).length := by
      intro t
      rw [List.cons_append, List.length_cons]
      omega
    rw [length, List.cons_append, offsetOf?, List.length_cons] at inside
    rw [length, length, List.cons_append, List.cons_append, offsetOf?, offsetOf?]
    split at inside
    · rename_i newline
      rw [if_pos newline, if_pos newline]
      rfl
    · rename_i other
      rw [if_neg other, if_neg other]
      exact lineEnd_local y cs (by omega)

/-- A block comment that ends before a brace ends there whatever follows. -/
theorem blockCommentEnd_local (y : Text) :
    ∀ (w : Text) {pos : Nat}, blockCommentEnd pos (w ++ '}' :: x) ≤ pos + w.length →
    blockCommentEnd pos (w ++ y) = blockCommentEnd pos (w ++ '}' :: x)
  | [], pos, inside => by
    have later := (le_blockCommentEnd x (pos + 1)).1
    rw [List.nil_append, blockCommentEnd, List.length_nil] at inside
    · omega
    · simp
  | [c], pos, inside => by
    have later := (le_blockCommentEnd x (pos + 1 + 1)).1
    rw [List.singleton_append, blockCommentEnd, blockCommentEnd, List.length_singleton] at inside
    · omega
    · simp
    · simp
  | c :: d :: cs, pos, inside => by
    by_cases close : c = '*' ∧ d = '/'
    · obtain ⟨rfl, rfl⟩ := close
      rfl
    · have goes : ∀ t : Text, blockCommentEnd pos (c :: d :: cs ++ t) =
          blockCommentEnd (pos + 1) (d :: cs ++ t) := by
        intro t
        rw [List.cons_append, blockCommentEnd]
        rintro rest rfl same
        exact close ⟨rfl, (List.cons.inj same).1⟩
      rw [goes, List.length_cons] at inside
      rw [goes, goes]
      exact blockCommentEnd_local y (d :: cs) (by omega)

/-- A comment that ends before a brace ends there whatever follows, and where none starts, none
starts before other text. -/
theorem commentEnd?_local {y : Text} (ends : endsValue y) {w : Text} {pos : Nat}
    (inside : ∀ stop, commentEnd? pos '/' (w ++ '}' :: x) = some stop → stop ≤ pos + 1 + w.length) :
    commentEnd? pos '/' (w ++ y) = commentEnd? pos '/' (w ++ '}' :: x) := by
  cases w with
  | nil => exact commentEnd?_endsValue ends pos
  | cons d cs =>
    have length : pos + 1 + (d :: cs).length = pos + 2 + cs.length := by
      rw [List.length_cons]
      omega
    rw [length] at inside
    by_cases line : d = '/'
    · subst line
      exact congrArg some (lineEnd_local y cs (inside _ rfl))
    · by_cases block : d = '*'
      · subst block
        exact congrArg some (blockCommentEnd_local y cs (inside _ rfl))
      · have none : ∀ t : Text, commentEnd? pos '/' (d :: t) = none := by
          intro t
          rw [commentEnd?.eq_def, if_pos rfl]
          split
          · rename_i same
            exact absurd (List.cons.inj same).1 line
          · rename_i same
            exact absurd (List.cons.inj same).1 block
          · rfl
        rw [List.cons_append, List.cons_append, none, none]

/-- An element that ends before a brace ends there whatever follows. -/
theorem elementEnd_local {cs behind : Text} {pos : Nat}
    (tags : TagsWhole behind ('<' :: (cs ++ '}' :: x)))
    (opens : opensMarkup behind (cs ++ '}' :: x)) (y : Text)
    (inside : ∀ stop, elementEnd pos '<' (cs ++ '}' :: x) = .ok (some stop) →
      stop ≤ pos + 1 + cs.length) :
    elementEnd pos '<' (cs ++ y) = elementEnd pos '<' (cs ++ '}' :: x) := by
  obtain ⟨element, rest, split, whole⟩ := tags [] _ rfl opens
  obtain ⟨es, rfl⟩ := whole.eq_cons
  obtain ⟨-, split⟩ := List.cons.inj split
  change cs ++ '}' :: x = es ++ rest at split
  have found : elementEnd pos '<' (cs ++ '}' :: x) = .ok (some (pos + ('<' :: es).length)) := by
    rw [split, whole.elementEnd_eq]
  have short : es.length ≤ cs.length := by
    have := inside _ found
    rw [List.length_cons] at this
    omega
  obtain ⟨more, rfl⟩ : es <+: cs :=
    List.prefix_of_prefix_length_le (split ▸ List.prefix_append es rest)
      (List.prefix_append cs _) short
  rw [found, List.append_assoc, whole.elementEnd_eq]

/-- A string, comment or element that ends before a brace ends there whatever follows. -/
theorem opaqueEnd?_local {c : Char} {cs front behind behind' y : Text} {pos : Nat}
    (value : opensValue behind)
    (value' : opensValue behind') (ends : endsValue y)
    (tags : TagsWhole (front ++ behind) (c :: (cs ++ '}' :: x)))
    (literal : literalEnd c (pos + 1) 0 (cs ++ '}' :: x) ≤ pos + 1 + cs.length →
      literalEnd c (pos + 1) 0 (cs ++ y) = literalEnd c (pos + 1) 0 (cs ++ '}' :: x))
    (inside : ∀ stop, opaqueEnd? pos (front ++ behind) c (cs ++ '}' :: x) = some stop →
      stop ≤ pos + 1 + cs.length) :
    opaqueEnd? pos (front ++ behind') c (cs ++ y) =
      opaqueEnd? pos (front ++ behind) c (cs ++ '}' :: x) := by
  rw [opaqueEnd?, opaqueEndBy] at inside ⊢
  rw [opaqueEnd?, opaqueEndBy]
  by_cases quoted : isQuote c
  · rw [if_pos quoted] at inside ⊢
    rw [if_pos quoted, literal (inside _ rfl)]
  rw [if_neg quoted] at inside ⊢
  rw [if_neg quoted]
  by_cases slash : c = '/'
  · subst slash
    rw [if_pos rfl] at inside ⊢
    rw [if_pos rfl]
    exact commentEnd?_local ends inside
  rw [if_neg slash] at inside ⊢
  rw [if_neg slash]
  by_cases tag : c = '<'
  · subst tag
    have same : opensMarkup (front ++ behind') (cs ++ y) =
        opensMarkup (front ++ behind) (cs ++ '}' :: x) := by
      rw [opensMarkup_of_opensValue_behind value, opensMarkup_of_opensValue_behind value']
      rcases List.eq_nil_or_concat cs with rfl | ⟨_, _, rfl⟩
      · exact opensMarkup_endsValue ends front
      · rw [opensMarkup_append _ (by simp), opensMarkup_append _ (by simp)]
    rw [same]
    by_cases opens : opensMarkup (front ++ behind) (cs ++ '}' :: x)
    · rw [if_pos (by simp [opens])] at inside ⊢
      rw [if_pos (by simp [opens]),
        elementEnd_local tags opens y fun stop found => inside stop (by rw [found])]
    · rw [if_neg (by simp [opens]), if_neg (by simp [opens])]
  · rw [if_neg (by simp [tag]), if_neg (by simp [tag])]

end Local

theorem lt_literalEnd_of_ne_nil (quote : Char) {t : Text} (filled : t ≠ []) (pos resume : Nat) :
    pos < literalEnd quote pos resume t := by
  obtain ⟨c, cs, rfl⟩ := List.exists_cons_of_ne_nil filled
  by_cases passed : pos < resume
  · rw [literalEnd.eq_def]
    simp only [if_pos passed]
    exact (literalEnd_bounds quote cs (pos + 1) resume).1
  · rw [literalEnd_of_le quote _ (Nat.not_lt.1 passed)]
    exact lt_literalEnd quote c cs pos

/-- Behind a dollar sign a template goes on. -/
theorem lt_literalEnd_dollar {t : Text} (filled : t ≠ []) (pos : Nat) :
    pos + 1 < literalEnd '`' pos 0 ('$' :: t) := by
  obtain ⟨d, ds, rfl⟩ := List.exists_cons_of_ne_nil filled
  by_cases brace : d = '{'
  · subst brace
    cases found : bracketEnd .curly 0 ['{'] (pos + 2) 0 ds with
    | none =>
      rw [literalEnd_unclosed found]
      omega
    | some stop =>
      rw [literalEnd_substitution found]
      exact (literalEnd_bounds '`' ds (pos + 2) stop).1
  · rw [literalEnd_dollar (by simpa using brace)]
    exact lt_literalEnd '`' d ds (pos + 1)

/-- A literal goes on one character further where no substitution starts. -/
theorem literalEnd_cons {quote c : Char} {cs : Text} {pos resume : Nat}
    (static : ¬ (resume ≤ pos ∧ quote = '`' ∧ c = '$' ∧ cs.head? = some '{')) :
    literalEnd quote pos resume (c :: cs) =
      if pos < resume then literalEnd quote (pos + 1) resume cs
      else if c = '\\' then literalEnd quote (pos + 1) (pos + 2) cs
      else if c = quote then pos + 1
      else literalEnd quote (pos + 1) resume cs := by
  rw [literalEnd.eq_def]
  dsimp only
  split
  · rfl
  split
  · rfl
  split
  · rfl
  split
  · split
    · rename_i passed _ _ dollar _ _
      obtain ⟨template, sign⟩ : quote = '`' ∧ c = '$' := by simpa using dollar
      exact absurd ⟨Nat.not_lt.1 passed, template, sign, rfl⟩ static
    · rfl
  · rfl

-- A template has code in it and code has templates, so the two laws are proved together, by
-- induction on the length of the piece. Elements need no induction: they are whole.
mutual

/-- A literal that ends inside a piece ends there whatever follows the piece. -/
theorem literalEnd_local (quote : Char) :
    ∀ (w : Text) {behind x : Text} {pos resume : Nat}, TagsWhole behind (w ++ x) → x ≠ [] →
    literalEnd quote pos resume (w ++ x) ≤ pos + w.length →
      ∀ y, literalEnd quote pos resume (w ++ y) = literalEnd quote pos resume (w ++ x)
  | [], _, _, pos, resume, _, filled, inside, _ =>
    absurd inside (Nat.not_le.2 (lt_literalEnd_of_ne_nil quote filled pos resume))
  | c :: cs, behind, x, pos, resume, tags, filled, inside, y => by
    rw [List.cons_append] at tags
    have next : ∀ {resume}, literalEnd quote (pos + 1) resume (cs ++ x) ≤ pos + (c :: cs).length →
        literalEnd quote (pos + 1) resume (cs ++ y) =
          literalEnd quote (pos + 1) resume (cs ++ x) := by
      intro resume inside
      exact literalEnd_local quote cs tags.tail filled (by rw [List.length_cons] at inside; omega) y
    by_cases substitutes : resume ≤ pos ∧ quote = '`' ∧ c = '$' ∧ (cs = [] ∨ cs.head? = some '{')
    · obtain ⟨le, rfl, rfl, rfl | brace⟩ := substitutes
      · rw [literalEnd_of_le '`' _ le] at inside
        exact absurd inside (Nat.not_le.2 (lt_literalEnd_dollar filled pos))
      obtain ⟨ds, rfl⟩ := List.head?_eq_some_iff.1 brace
      have code : TagsWhole ['{'] (ds ++ x) :=
        (tagsWhole_iff rfl _).2 ((tagsWhole_iff rfl _).1 tags.tail.tail)
      rw [literalEnd_of_le '`' _ le] at inside ⊢
      rw [literalEnd_of_le '`' _ le]
      simp only [List.cons_append, List.length_cons] at inside ⊢
      cases found : bracketEnd .curly 0 ['{'] (pos + 2) 0 (ds ++ x) with
      | none =>
        have positive := List.length_pos_of_ne_nil filled
        rw [literalEnd_unclosed found, List.length_append] at inside
        omega
      | some stop =>
        have bounds := (bracketEnd_found .curly found).bounds
        rw [literalEnd_substitution found] at inside ⊢
        have before := resume_le_literalEnd '`' (ds ++ x) (pos + 2) stop bounds.2
        rw [literalEnd_substitution (bracketEnd_inside ds rfl code found (by omega) y)]
        exact literalEnd_local '`' ds code filled (by omega) y
    · have static : ∀ t : Text,
          ¬ (resume ≤ pos ∧ quote = '`' ∧ c = '$' ∧ (cs ++ t).head? = some '{') := by
        rintro t ⟨le, template, dollar, brace⟩
        refine substitutes ⟨le, template, dollar, ?_⟩
        cases cs with
        | nil => exact .inl rfl
        | cons d ds => exact .inr brace
      rw [List.cons_append, literalEnd_cons (static x)] at inside
      rw [List.cons_append, List.cons_append, literalEnd_cons (static x),
        literalEnd_cons (static y)]
      split at inside
      · rename_i passed
        rw [if_pos passed, if_pos passed, next inside]
      · rename_i passed
        rw [if_neg passed, if_neg passed]
        split at inside
        · rename_i escape
          rw [if_pos escape, if_pos escape, next inside]
        · rename_i escape
          rw [if_neg escape, if_neg escape]
          split at inside
          · rename_i close
            rw [if_pos close, if_pos close]
          · rename_i close
            rw [if_neg close, if_neg close, next inside]
termination_by w => w.length

/-- A closing brace that is found inside a piece is found there whatever follows the piece. -/
theorem bracketEnd_inside :
    ∀ (w : Text) {behind x : Text} {pos stop : Nat}, opensValue behind → TagsWhole behind (w ++ x) →
    bracketEnd .curly 0 behind pos 0 (w ++ x) = some stop → stop ≤ pos + w.length →
      ∀ y, bracketEnd .curly 0 behind pos 0 (w ++ y) = some stop
  | w, behind, x, pos, stop, value, tags, found, inside, y => by
    obtain ⟨inner, rest, split, rfl⟩ := bracketEnd_found .curly found
    obtain ⟨more, rfl⟩ : inner ++ ['}'] <+: w := by
      have front : inner ++ ['}'] <+: w ++ x := ⟨rest, by rw [split, List.append_assoc]; rfl⟩
      refine List.prefix_of_prefix_length_le front (List.prefix_append w x) ?_
      rw [List.length_append, List.length_singleton]
      omega
    simp only [List.append_assoc, List.singleton_append] at tags found ⊢
    have ends : endsValue ('}' :: (more ++ y)) := rfl
    have passed := bracketEnd_local inner [] value value tags found ends 0
    exact passed.trans (bracketEnd_closer .curly _ _ _)
termination_by w => w.length

/-- Code that closes before a brace is passed over, whatever follows in place of the brace. -/
theorem bracketEnd_local :
    ∀ (w front : Text) {behind behind' x : Text} {depth pos resume : Nat}, opensValue behind →
    opensValue behind' → TagsWhole (front ++ behind) (w ++ '}' :: x) →
    bracketEnd .curly depth (front ++ behind) pos resume (w ++ '}' :: x) =
      some (pos + w.length + 1) →
      ∀ {y : Text}, endsValue y → ∀ outer,
        bracketEnd .curly (depth + outer) (front ++ behind') pos resume (w ++ y) =
        bracketEnd .curly outer (w.reverse ++ (front ++ behind')) (pos + w.length) 0 y
  | [], front, behind, behind', x, depth, pos, resume, _, _, _, closes, y, _, outer => by
    have le : resume ≤ pos := Nat.lt_succ_iff.1 (resume_lt_bracketEnd closes)
    rw [List.nil_append, bracketEnd_of_le _ _ le, bracketEnd_plainChar (by decide),
      if_neg (by decide), if_pos (by decide)] at closes
    have level : depth = 0 := by
      by_contra nested
      rw [if_neg nested] at closes
      exact absurd (bracketEnd_found .curly closes).bounds.1 (Nat.lt_irrefl _)
    rw [level, Nat.zero_add, bracketEnd_of_le _ _ le]
    rfl
  | c :: cs, front, behind, behind', x, depth, pos, resume, value, value', tags, closes, y, ends,
  outer => by
    have length : pos + (c :: cs).length = pos + 1 + cs.length := by
      rw [List.length_cons]
      omega
    rw [length] at closes
    have next : ∀ {depth resume : Nat},
        bracketEnd .curly depth (c :: front ++ behind) (pos + 1) resume (cs ++ '}' :: x) =
          some (pos + 1 + cs.length + 1) →
          bracketEnd .curly (depth + outer) (c :: front ++ behind') (pos + 1) resume (cs ++ y) =
            bracketEnd .curly outer ((c :: cs).reverse ++ (front ++ behind'))
              (pos + (c :: cs).length) 0 y := by
      intro depth resume closes
      rw [bracketEnd_local cs (c :: front) value value' tags.tail closes ends outer, length,
        List.reverse_cons, List.append_assoc]
      rfl
    by_cases passed : pos < resume
    · rw [List.cons_append, bracketEnd, if_pos passed] at closes ⊢
      exact next closes
    have le := Nat.not_lt.1 passed
    rw [List.cons_append, bracketEnd_of_le _ _ le] at closes ⊢
    have same : opaqueEnd? pos (front ++ behind') c (cs ++ y) =
        opaqueEnd? pos (front ++ behind) c (cs ++ '}' :: x) := by
      refine opaqueEnd?_local value value' ends tags (fun inside => ?_) fun stop found => ?_
      · exact literalEnd_local c cs tags.tail (by simp) inside y
      · rw [bracketEnd_covered found] at closes
        exact Nat.lt_succ_iff.1 (resume_lt_bracketEnd closes)
    cases found : opaqueEnd? pos (front ++ behind) c (cs ++ '}' :: x) with
    | some stop =>
      rw [bracketEnd_covered found] at closes
      rw [bracketEnd_covered (same.trans found)]
      exact next closes
    | none =>
      rw [bracketEnd_bare found] at closes
      rw [bracketEnd_bare (same.trans found)]
      split at closes
      · rename_i opener
        rw [if_pos opener, Nat.add_right_comm]
        exact next closes
      · rename_i opener
        rw [if_neg opener]
        split at closes
        · rename_i closer
          rw [if_pos closer]
          split at closes
          · have := Option.some.inj closes
            omega
          · rename_i level
            rw [if_neg (by omega), Nat.sub_add_comm (by omega)]
            exact next closes
        · rename_i closer
          rw [if_neg closer]
          exact next closes
termination_by w => w.length

end

/-! ## Text that stays inside -/

/-- The search for a closing brace gets past the text, whatever is around it. -/
def Clears (t : Text) : Prop :=
  ∀ depth behind pos rest, bracketEnd .curly depth behind pos 0 (t ++ rest) =
    bracketEnd .curly depth (t.reverse ++ behind) (pos + t.length) 0 rest

/-- The search gets past the text where a value is expected and ends. -/
def ClearsValue (t : Text) : Prop :=
  ∀ depth behind pos rest, opensValue behind → endsValue rest →
    bracketEnd .curly depth behind pos 0 (t ++ rest) =
      bracketEnd .curly depth (t.reverse ++ behind) (pos + t.length) 0 rest

/-- Code that closes in braces of its own, and in which each tag is a whole element. -/
structure IsContained (t : Text) : Prop where
  closes : bracketEndAt? ('{' :: (t ++ ['}'])) 0 = some (t.length + 2)
  tags : TagsWhole [] t

/-- Code without tags has only to close. -/
theorem isContained_of_not_mem {t : Text} (h : '<' ∉ t)
    (closes : bracketEndAt? ('{' :: (t ++ ['}'])) 0 = some (t.length + 2)) : IsContained t :=
  ⟨closes, fun _ _ split _ => absurd (by simp [split]) h⟩

/-- An element without others in it is contained. -/
theorem IsWhole.isContained {t : Text} (h : IsWhole t) (single : '<' ∉ t.tail) : IsContained t := by
  refine ⟨h.bracketEndAt?_eq .curly [], fun front ahead split _ => ?_⟩
  cases front with
  | nil => exact ⟨t, [], by rw [List.append_nil, split]; rfl, h⟩
  | cons c cs => exact absurd (by simp [split]) single

/-- Contained code stays inside any braces. -/
theorem IsContained.clears {t : Text} (h : IsContained t) : ClearsValue t := by
  intro depth behind pos rest value ends
  have tags : TagsWhole ([] ++ ['{']) (t ++ ['}']) := (tagsWhole_iff rfl t).2 h.tags |>.closed
  have first : bracketEnd .curly 0 ['{'] (0 + 1) 0 (t ++ ['}']) = some (t.length + 2) := h.closes
  rw [bracketEnd_shift 1 .curly _ (Aligned.none 1 0)] at first
  obtain ⟨stop, found, same⟩ := Option.map_eq_some_iff.1 first
  obtain rfl : stop = t.length + 1 := by omega
  have closes : bracketEnd .curly 0 ([] ++ ['{']) pos 0 (t ++ ['}']) =
      some (pos + t.length + 1) := by
    have here : bracketEnd .curly 0 ['{'] (0 + pos) 0 (t ++ ['}']) = _ :=
      bracketEnd_shift pos .curly _ (Aligned.none pos 0)
    rw [found, Nat.zero_add] at here
    rw [List.nil_append, here, Option.map_some]
    congr 1
    omega
  have passed := bracketEnd_local t [] rfl value tags closes ends depth
  rwa [Nat.zero_add, List.nil_append] at passed

theorem Clears.value {t : Text} (h : Clears t) : ClearsValue t :=
  fun depth behind pos rest _ _ => h depth behind pos rest

/-- Behind a mark after which a value is expected. -/
theorem ClearsValue.append {s mark t : Text} (hs : ClearsValue s) (hm : Clears mark)
    (ends : ∀ rest, endsValue (mark ++ rest))
    (expects : ∀ behind, opensValue (mark.reverse ++ behind)) (ht : ClearsValue t) :
    ClearsValue (s ++ (mark ++ t)) := by
  intro depth behind pos rest value stops
  rw [List.append_assoc, List.append_assoc, hs _ _ _ _ value (ends _), hm,
    ht _ _ _ _ (expects _) stops]
  simp only [List.reverse_append, List.append_assoc, List.length_append, Nat.add_assoc]

theorem clears_plain : ∀ {t : Text}, (∀ c ∈ t, isPlainCode c ∧ c ≠ '{' ∧ c ≠ '}') → Clears t
  | [], _ => fun _ _ _ _ => rfl
  | c :: cs, h => by
    intro depth behind pos rest
    obtain ⟨plain, opener, closer⟩ := h c (by simp)
    have ih := clears_plain fun d hd => h d (List.mem_cons_of_mem _ hd)
    rw [List.cons_append, bracketEnd_plainChar plain,
      if_neg (show c ≠ Bracket.curly.opener from opener),
      if_neg (show c ≠ Bracket.curly.closer from closer), ih]
    simp only [List.reverse_cons, List.append_assoc, List.singleton_append, List.length_cons,
      Nat.add_assoc, Nat.add_comm 1]

/-- A piece that is passed over as a whole. -/
theorem clears_of_covered {c : Char} {inner : Text}
    (h : ∀ behind pos rest, opaqueEnd? pos behind c (inner ++ rest) =
      some (pos + 1 + inner.length)) : Clears (c :: inner) := by
  intro depth behind pos rest
  have skip := bracketEnd_skip .curly depth rest inner (c :: behind) (pos + 1)
  rw [List.cons_append, bracketEnd_covered (h behind pos rest), List.reverse_cons,
    List.append_assoc, List.length_cons, Nat.add_comm inner.length, ← Nat.add_assoc]
  exact skip

theorem clears_quote (t : Text) : Clears (quote t) := by
  have whole : Clears ('"' :: (t.flatMap escapeChar ++ ['"'])) := by
    refine clears_of_covered fun behind pos rest => ?_
    have stop := literalEnd_escaped rest t (pos + 1)
    rw [List.append_assoc, List.length_append, List.length_singleton, ← Nat.add_assoc]
    exact congrArg some stop
  exact whole

theorem clears_comment {t : Text} (h : endsComment t = false) :
    Clears ("/*".toList ++ t ++ "*/".toList) := by
  have whole : Clears ('/' :: ('*' :: (t ++ ['*', '/']))) := by
    refine clears_of_covered fun behind pos rest => ?_
    have stop := blockCommentEnd_append rest (pos + 2) h
    have length : pos + 1 + ('*' :: (t ++ ['*', '/'])).length = pos + 2 + t.length + 2 := by
      simp only [List.length_append, List.length_cons, List.length_nil]
      omega
    rw [length, List.cons_append, List.append_assoc]
    exact congrArg some stop
  exact whole

/-- Values with commas between them. -/
theorem clearsValue_joinComma :
    ∀ {values : List Text}, (∀ value ∈ values, ClearsValue value) → ClearsValue (joinComma values)
  | [], _ => fun _ _ _ _ _ _ => rfl
  | [value], h => h value (by simp)
  | value :: next :: values, h => by
    have join : joinComma (value :: next :: values) =
        value ++ ([',', ' '] ++ joinComma (next :: values)) := by
      simp [joinComma, joinWith]
    rw [join]
    exact (h value (by simp)).append (clears_plain (by decide)) (fun _ => rfl) (fun _ => rfl)
      (clearsValue_joinComma fun v hv => h v (List.mem_cons_of_mem _ hv))

/-- The search gets from an opening brace past the text to a closing one. -/
def ClearsInside (t : Text) : Prop :=
  ∀ depth behind pos rest, bracketEnd .curly depth ('{' :: behind) pos 0 (t ++ '}' :: rest) =
    bracketEnd .curly depth (t.reverse ++ '{' :: behind) (pos + t.length) 0 ('}' :: rest)

theorem ClearsValue.inside {t : Text} (h : ClearsValue t) : ClearsInside (' ' :: (t ++ [' '])) := by
  intro depth behind pos rest
  have space : Clears [' '] := clears_plain (by decide)
  have whole : ' ' :: (t ++ [' ']) ++ '}' :: rest = [' '] ++ (t ++ ([' '] ++ '}' :: rest)) := by
    simp
  rw [whole, space, h _ _ _ _ rfl rfl, space]
  simp [Nat.add_comm, Nat.add_left_comm]

/-- Braces around such a text are passed over. -/
theorem ClearsInside.clears {t : Text} (h : ClearsInside t) : Clears ('{' :: (t ++ ['}'])) := by
  intro depth behind pos rest
  have opener : ∀ cs, bracketEnd .curly depth behind pos 0 ('{' :: cs) = _ :=
    bracketEnd_open .curly .curly depth behind pos
  have closer : ∀ behind pos,
      bracketEnd .curly (depthInside .curly .curly depth) behind pos 0 ('}' :: rest) = _ :=
    fun behind pos => bracketEnd_close .curly .curly depth behind pos rest
  have inner := h (depthInside .curly .curly depth) behind (pos + 1) rest
  rw [List.cons_append, List.append_assoc, List.singleton_append, opener]
  refine inner.trans ((closer _ _).trans ?_)
  simp [Nat.add_comm, Nat.add_left_comm, Bracket.closer]

/-- Braces around such a text end behind it. -/
theorem ClearsInside.bracketEndAt?_eq {t : Text} (h : ClearsInside t) :
    bracketEndAt? ('{' :: (t ++ ['}'])) 0 = some (t.length + 2) := by
  have inner := (h 0 [] 1 []).trans (bracketEnd_closer .curly _ _ _)
  rw [Nat.add_right_comm, Nat.add_comm] at inner
  exact inner

end Recast
