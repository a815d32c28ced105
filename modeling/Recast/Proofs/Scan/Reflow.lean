import Recast.Proofs.Scan.Progress
import Recast.Proofs.Scan.Truncation
import Recast.Proofs.Text.Layout

/-!
# Scanning a text with less layout

A blank at the end of a text and indentation at the start of a line (`Loose`) mean nothing to the
scanners: without the character each of them ends at the same place, one further to the front if the
character stood before it (`offsetWithout`). This holds of comments (`commentEnd?_loose`), of
literals and brackets (`literalEnd_loose`, `bracketEnd_loose`) and of tags and elements
(`tagEnd_loose`, `childrenEnd_loose`), which are proved together because they call each other.

The induction is on the text `w` between a scanner and the character. When nothing is left of it the
scanner passes over the character, and what follows is scanned one further to the front, which is a
law of its own (`literalEnd_shift` and its like). Before that the scanner makes the same turn with
and without the character: a mark of more than one character does not reach over the end of a line.
-/

namespace Recast

/-! ## A character that is not missed -/

/-- A character that scanning does not miss, with `before` the text before it read backwards: a
blank at the end of the text, or indentation at the start of a line. -/
def Loose (before : Text) (c : Char) (back : Text) : Prop :=
  isBlank c ∧ (back = [] ∨ isIndent c ∧ before.head? = some '\n')

/-- Where an offset lies when the character at `place` is gone. -/
def offsetWithout (place pos : Nat) : Nat :=
  if pos ≤ place then pos else pos - 1

theorem offsetWithout_of_le {place pos : Nat} (h : pos ≤ place) : offsetWithout place pos = pos :=
  if_pos h

theorem offsetWithout_succ {place pos : Nat} (h : place ≤ pos) :
    offsetWithout place (pos + 1) = pos :=
  if_neg (Nat.not_le.2 (Nat.lt_succ_of_le h))

theorem offsetWithout_next {place pos : Nat} (other : pos ≠ place) :
    offsetWithout place (pos + 1) = offsetWithout place pos + 1 := by
  unfold offsetWithout
  split <;> split <;> omega

theorem offsetWithout_lt {place pos stop : Nat} (other : pos ≠ place) (h : pos < stop) :
    offsetWithout place pos < offsetWithout place stop := by
  unfold offsetWithout
  split <;> split <;> omega

theorem offsetWithout_le {place pos stop : Nat} (h : pos ≤ stop) :
    offsetWithout place pos ≤ offsetWithout place stop := by
  unfold offsetWithout
  split <;> split <;> omega

theorem offsetWithout_min (place a b : Nat) :
    offsetWithout place (min a b) = min (offsetWithout place a) (offsetWithout place b) := by
  unfold offsetWithout
  split <;> split <;> split <;> omega

/-- A scan that resumes at `resume'` without the character at `place` passes over what one that
resumes at `resume` with it does. -/
def Realigned (place pos resume resume' : Nat) : Prop :=
  resume' = offsetWithout place resume ∨ (resume ≤ pos ∧ resume' ≤ pos)

namespace Realigned

variable {place pos resume resume' : Nat}

theorem found (place pos resume : Nat) : Realigned place pos resume (offsetWithout place resume) :=
  .inl rfl

theorem same {place resume : Nat} (h : resume ≤ place) (pos : Nat) :
    Realigned place pos resume resume :=
  .inl (offsetWithout_of_le h).symm

theorem succ (h : Realigned place pos resume resume') :
    Realigned place (pos + 1) resume resume' := by
  unfold Realigned at *
  omega

theorem lt_iff (h : Realigned place pos resume resume') (before : pos < place) :
    pos < resume' ↔ pos < resume := by
  unfold Realigned offsetWithout at h
  split at h <;> omega

/-- Behind the place both scans go on together, one of them one further. -/
theorem aligned (h : Realigned place place resume resume') : Aligned 1 place resume' resume := by
  unfold Realigned offsetWithout at h
  unfold Aligned
  split at h <;> omega

end Realigned

theorem ne_of_isBlank {c mark : Char} (blank : isBlank c) (solid : isBlank mark = false) :
    c ≠ mark := by
  rintro rfl
  rw [blank] at solid
  cases solid

section Pieces

variable {w before back : Text} {c d : Char}

/-- The text that is read before the character moves to the text before it. -/
theorem loose_cons :
    Loose ((d :: w).reverse ++ before) c back ↔ Loose (w.reverse ++ d :: before) c back := by
  rw [List.reverse_cons, List.append_assoc]
  rfl

/-- Right behind anything but the end of a line the character is the last one. -/
theorem Loose.eq_nil (loose : Loose (d :: before) c back) (line : d ≠ '\n') : back = [] := by
  rcases loose.2 with rfl | ⟨-, head⟩
  · rfl
  · exact absurd (Option.some.inj head) line

/-- The next character is the same without a loose one, unless that was the last. -/
theorem Loose.head?_eq_some (loose : Loose (w.reverse ++ d :: before) c back) (line : d ≠ '\n')
    {mark : Char} (solid : isBlank mark = false) :
    (w ++ back).head? = some mark ↔ (w ++ c :: back).head? = some mark := by
  cases w with
  | cons next w => rfl
  | nil =>
    obtain rfl := loose.eq_nil line
    constructor
    · intro h
      cases h
    · intro h
      exact absurd (Option.some.inj h) (ne_of_isBlank loose.1 solid)

/-! ## Comments -/

/-- A line comment ends at the same place without the character. -/
theorem lineEnd_loose : ∀ {w before : Text} {d : Char} (pos : Nat),
    Loose (w.reverse ++ d :: before) c back → d ≠ '\n' →
    (offsetOf? (· == '\n') pos (w ++ back)).getD (pos + (w ++ back).length) =
      offsetWithout (pos + w.length)
        ((offsetOf? (· == '\n') pos (w ++ c :: back)).getD (pos + (w ++ c :: back).length))
  | [], before, d, pos, loose, line => by
    obtain rfl := loose.eq_nil line
    by_cases ends : c = '\n'
    · subst ends
      exact (offsetWithout_of_le (Nat.le_refl pos)).symm
    · have end_ : offsetOf? (· == '\n') pos [c] = none := by simp [offsetOf?, ends]
      rw [List.nil_append, List.nil_append, end_]
      exact (offsetWithout_succ (Nat.le_refl pos)).symm
  | next :: w, before, d, pos, loose, line => by
    by_cases ends : next = '\n'
    · subst ends
      exact (offsetWithout_of_le (Nat.le_add_right pos _)).symm
    · have ih := lineEnd_loose (pos + 1) (loose_cons.1 loose) ends
      have sizes : ∀ t : Text, pos + (next :: t).length = pos + 1 + t.length := by
        intro t
        rw [List.length_cons]
        omega
      have passes : ∀ t : Text, offsetOf? (· == '\n') pos (next :: t) =
          offsetOf? (· == '\n') (pos + 1) t := by
        intro t
        rw [offsetOf?, if_neg (by simpa using ends)]
      rw [List.cons_append, List.cons_append, passes, passes, sizes, sizes, sizes, ih]

/-- A block comment ends at the same place without the character. -/
theorem blockCommentEnd_loose : ∀ {w before : Text} (pos : Nat),
    Loose (w.reverse ++ before) c back →
    blockCommentEnd pos (w ++ back) =
      offsetWithout (pos + w.length) (blockCommentEnd pos (w ++ c :: back))
  | [], before, pos, loose => by
    have star : c ≠ '*' := ne_of_isBlank loose.1 rfl
    have after := (le_blockCommentEnd back pos).1
    rw [List.nil_append, List.nil_append, blockCommentEnd_other (by simp [star]),
      blockCommentEnd_shift 1 back pos, List.length_nil, Nat.add_zero, offsetWithout_succ after]
  | next :: w, before, pos, loose => by
    have ih := blockCommentEnd_loose (pos + 1) (loose_cons.1 loose)
    have place : pos + (next :: w).length = pos + 1 + w.length := by
      rw [List.length_cons]
      omega
    rw [List.cons_append, List.cons_append, place]
    by_cases closes : next = '*' ∧ (w ++ c :: back).head? = some '/'
    · obtain ⟨rfl, slash⟩ := closes
      have slash' := ((loose_cons.1 loose).head?_eq_some (by decide) (by decide)).2 slash
      obtain ⟨rest, split⟩ := List.head?_eq_some_iff.1 slash
      obtain ⟨rest', split'⟩ := List.head?_eq_some_iff.1 slash'
      have filled : 0 < w.length := by
        cases w with
        | cons next w => exact Nat.succ_pos _
        | nil =>
          obtain rfl := List.cons.inj split |>.1
          cases loose.1
      rw [split, split', blockCommentEnd, blockCommentEnd, offsetWithout_of_le (by omega)]
    · have closes' : ¬ (next = '*' ∧ (w ++ back).head? = some '/') := by
        rintro ⟨rfl, slash⟩
        exact closes ⟨rfl, ((loose_cons.1 loose).head?_eq_some (by decide) (by decide)).1 slash⟩
      rw [blockCommentEnd_other closes, blockCommentEnd_other closes', ih]

/-- A comment ends at the same place without the character. -/
theorem commentEnd?_loose (loose : Loose (w.reverse ++ d :: before) c back) (pos : Nat) :
    commentEnd? pos d (w ++ back) =
      (commentEnd? pos d (w ++ c :: back)).map (offsetWithout (pos + 1 + w.length)) := by
  by_cases slash : d = '/'
  · subst slash
    cases w with
    | nil =>
      obtain rfl := loose.eq_nil (by decide)
      have plain : commentEnd? pos '/' [c] = none := commentEnd?_eq_none
        (fun _ => ⟨c, [], rfl, ne_of_isBlank loose.1 rfl, ne_of_isBlank loose.1 rfl⟩) pos
      rw [List.nil_append, List.nil_append, plain]
      rfl
    | cons next w =>
      have place : pos + 1 + (next :: w).length = pos + 2 + w.length := by
        rw [List.length_cons]
        omega
      rw [place, List.cons_append, List.cons_append]
      by_cases line : next = '/'
      · subst line
        exact congrArg some (lineEnd_loose (pos + 2) (loose_cons.1 loose) (by decide))
      by_cases block : next = '*'
      · subst block
        exact congrArg some (blockCommentEnd_loose (pos + 2) (loose_cons.1 loose))
      · have plain : ∀ t : Text, commentEnd? pos '/' (next :: t) = none := fun t =>
          commentEnd?_eq_none (fun _ => ⟨next, t, rfl, line, block⟩) pos
        rw [plain, plain]
        rfl
  · have plain : ∀ t : Text, commentEnd? pos d t = none := fun t =>
      commentEnd?_eq_none (fun same => absurd same slash) pos
    rw [plain, plain]
    rfl

/-! ## Names and tags -/

/-- A run of characters that are not blank ends before the character. -/
theorem takeWhile_loose {p : Char → Bool} (stops : ∀ {c}, isBlank c → p c = false) :
    ∀ {w before : Text} {d : Char}, Loose (w.reverse ++ d :: before) c back → d ≠ '\n' →
      (w ++ c :: back).takeWhile p = w.takeWhile p ∧ (w ++ back).takeWhile p = w.takeWhile p
  | [], before, d, loose, line => by
    obtain rfl := loose.eq_nil line
    exact ⟨List.takeWhile_cons_of_neg (by simp [stops loose.1]), rfl⟩
  | next :: w, before, d, loose, line => by
    rw [List.cons_append, List.cons_append, List.takeWhile_cons, List.takeWhile_cons,
      List.takeWhile_cons]
    split
    · rename_i goes
      have line' : next ≠ '\n' := by
        rintro rfl
        rw [stops (by decide)] at goes
        cases goes
      obtain ⟨long, short⟩ := takeWhile_loose stops (loose_cons.1 loose) line'
      rw [long, short]
      exact ⟨rfl, rfl⟩
    · exact ⟨rfl, rfl⟩

/-- The name of a tag ends before the character. -/
theorem tagName_loose (loose : Loose (w.reverse ++ d :: before) c back) (line : d ≠ '\n') :
    tagName (w ++ c :: back) = tagName w ∧ tagName (w ++ back) = tagName w := by
  have stops : ∀ {c}, isBlank c → isTagNameChar c = false := eq_false_of_isBlank (by decide +kernel)
  cases w with
  | nil =>
    obtain rfl := loose.eq_nil line
    have start : isNameStart c = false := eq_false_of_isBlank (by decide +kernel) loose.1
    rw [List.nil_append, tagName, start]
    exact ⟨rfl, rfl⟩
  | cons next w =>
    rw [List.cons_append, List.cons_append, tagName, tagName, tagName]
    split
    · rename_i names
      have line' : next ≠ '\n' := by
        rintro rfl
        cases names
      obtain ⟨long, short⟩ := takeWhile_loose stops (loose_cons.1 loose) line'
      rw [long, short]
      exact ⟨rfl, rfl⟩
    · exact ⟨rfl, rfl⟩

theorem length_tagName_le (t : Text) : (tagName t).length ≤ t.length := by
  cases t with
  | nil => exact Nat.le_refl _
  | cons c cs =>
    rw [tagName]
    split
    · exact Nat.succ_le_succ (List.takeWhile_prefix _).length_le
    · exact Nat.zero_le _

theorem not_opensTag_of_isBlank (blank : isBlank c) (cs : Text) : opensTag (c :: cs) = false :=
  eq_false_of_isBlank
    (p := fun c => isLetter c || c == '/' || c == '>' || c == '_' || c == '$')
      (by decide +kernel) blank

/-- Whether a tag opens is decided without the character. -/
theorem opensTag_loose (loose : Loose (w.reverse ++ d :: before) c back) (line : d ≠ '\n') :
    opensTag (w ++ back) = opensTag (w ++ c :: back) := by
  cases w with
  | cons next w => rfl
  | nil =>
    obtain rfl := loose.eq_nil line
    exact (not_opensTag_of_isBlank loose.1 []).symm

/-- Whether a `<` in code opens markup is decided without the character. -/
theorem opensMarkup_loose (loose : Loose (w.reverse ++ d :: before) c back) (line : d ≠ '\n')
    (behind : Text) : opensMarkup behind (w ++ back) = opensMarkup behind (w ++ c :: back) := by
  cases w with
  | cons next w => rfl
  | nil =>
    obtain rfl := loose.eq_nil line
    have plain : (isLetter c || c == '_' || c == '$' || c == '>') = false :=
      eq_false_of_isBlank
        (p := fun c => isLetter c || c == '_' || c == '$' || c == '>') (by decide +kernel) loose.1
    simp [opensMarkup, plain]

/-- The look back of a `<` passes over indentation and does not get past the end of a line. -/
theorem opensMarkup_indent (indent : isIndent c) {before : Text} (line : before.head? = some '\n')
    (behind ahead : Text) :
    opensMarkup (behind ++ c :: before) ahead = opensMarkup (behind ++ before) ahead := by
  obtain ⟨before, rfl⟩ := List.head?_eq_some_iff.1 line
  have layout : isLayout c := by
    rw [isIndent, Bool.or_eq_true, beq_iff_eq, beq_iff_eq] at indent
    rcases indent with rfl | rfl <;> decide
  have name : isNameChar c = false := not_isNameChar_of_isBlank (isBlank_of_isIndent indent)
  have dropped : (c :: '\n' :: before).dropWhile isLayout = ('\n' :: before).dropWhile isLayout :=
    List.dropWhile_cons_of_pos layout
  have taken : ∀ t : Text, (t ++ c :: '\n' :: before).takeWhile isNameChar =
      (t ++ '\n' :: before).takeWhile isNameChar := by
    intro t
    rw [List.takeWhile_append, List.takeWhile_append, List.takeWhile_cons_of_neg (by simp [name]),
      List.takeWhile_cons_of_neg (by decide)]
  cases ahead with
  | nil => rfl
  | cons next rest =>
    rw [opensMarkup, opensMarkup, List.dropWhile_append, List.dropWhile_append, dropped]
    cases behind.dropWhile isLayout with
    | nil => rfl
    | cons last between =>
      simp only [List.isEmpty_cons, Bool.false_eq_true, if_false, List.cons_append]
      rw [← List.cons_append, ← List.cons_append, taken]

/-! ## Closing tags -/

theorem trim_append_left {gap : Text} (blank : isBlankText gap) (t : Text) :
    trim (gap ++ t) = trim t := by
  have gone : gap.dropWhile isBlank = [] := List.dropWhile_eq_nil_iff.2 (List.all_eq_true.1 blank)
  rw [trim, trim, trimStart, trimStart, List.dropWhile_append, gone]
  rfl

theorem trimEnd_append_blank (t : Text) {gap : Text} (blank : isBlankText gap) :
    trimEnd (t ++ gap) = trimEnd t := by
  have gone : gap.reverse.dropWhile isBlank = [] :=
    List.dropWhile_eq_nil_iff.2 fun c hc => List.all_eq_true.1 blank c (List.mem_reverse.1 hc)
  rw [trimEnd, trimEnd, dropEndWhile, dropEndWhile, List.reverse_append,
    List.dropWhile_append, gone]
  rfl

theorem trimStart_append_filled {t : Text} (filled : isBlankText t = false) (rest : Text) :
    trimStart (t ++ rest) = trimStart t ++ rest := by
  rw [trimStart, trimStart, List.dropWhile_append, if_neg]
  rw [List.isEmpty_iff, List.dropWhile_eq_nil_iff]
  intro blank
  rw [isBlankText, List.all_eq_true.2 blank] at filled
  cases filled

theorem trimEnd_append_filled (rest : Text) {t : Text} (filled : isBlankText t = false) :
    trimEnd (rest ++ t) = rest ++ trimEnd t := by
  have kept := trimStart_append_filled (t := t.reverse) (by rwa [isBlankText, List.all_reverse])
    rest.reverse
  rw [trimStart, trimStart] at kept
  rw [trimEnd, trimEnd, dropEndWhile, dropEndWhile, List.reverse_append, kept, List.reverse_append,
    List.reverse_reverse]

/-- A name in one line does not depend on the layout around the end of a line. -/
theorem trim_eq_iff (front rest : Text) {gap gap' name : Text} (blank : isBlankText gap)
    (blank' : isBlankText gap') (line : '\n' ∈ gap) (line' : '\n' ∈ gap') (single : '\n' ∉ name) :
    trim (front ++ (gap ++ rest)) = name ↔ trim (front ++ (gap' ++ rest)) = name := by
  cases before : isBlankText front with
  | true => rw [trim_append_left before, trim_append_left before, trim_append_left blank,
      trim_append_left blank']
  | false =>
    rw [trim, trim, trimStart_append_filled before, trimStart_append_filled before]
    cases after : isBlankText rest with
    | true =>
      have both : ∀ {gap : Text}, isBlankText gap → isBlankText (gap ++ rest) :=
        fun blank => isBlankText_append blank after
      rw [trimEnd_append_blank _ (both blank), trimEnd_append_blank _ (both blank')]
    | false =>
      -- the end of the line stays
      have kept : ∀ {gap : Text}, '\n' ∈ gap →
          trimEnd (trimStart front ++ (gap ++ rest)) ≠ name := by
        rintro gap line rfl
        rw [← List.append_assoc, trimEnd_append_filled _ after] at single
        exact single (by simp [line])
      exact iff_of_false (kept line) (kept line')

/-- A cut at a mark before the character, behind it or nowhere. -/
theorem cutAt?_loose {mark : Char} (solid : c ≠ mark) (back w : Text) :
    (∃ front after after', front.length < w.length ∧
        cutAt? mark (w ++ c :: back) = some (front, after) ∧
        cutAt? mark (w ++ back) = some (front, after')) ∨
      (∃ front after, cutAt? mark (w ++ c :: back) = some (w ++ c :: front, after) ∧
        cutAt? mark (w ++ back) = some (w ++ front, after)) ∨
      (cutAt? mark (w ++ c :: back) = none ∧ cutAt? mark (w ++ back) = none) := by
  induction w with
  | nil =>
    rw [List.nil_append, List.nil_append, cutAt?, if_neg solid]
    cases cutAt? mark back with
    | none => exact .inr (.inr ⟨rfl, rfl⟩)
    | some cut => exact .inr (.inl ⟨cut.1, cut.2, rfl, rfl⟩)
  | cons next w ih =>
    rw [List.cons_append, List.cons_append, cutAt?, cutAt?]
    split
    · exact .inl ⟨[], _, _, Nat.succ_pos _, rfl, rfl⟩
    · rcases ih with ⟨front, after, after', short, long, cut⟩ |
        ⟨front, after, long, cut⟩ | ⟨long, cut⟩
      · rw [long, cut]
        exact .inl ⟨next :: front, after, after', Nat.succ_lt_succ short, rfl, rfl⟩
      · rw [long, cut]
        exact .inr (.inl ⟨front, after, rfl, rfl⟩)
      · rw [long, cut]
        exact .inr (.inr ⟨rfl, rfl⟩)

/-! ## Marks -/

section MarkBy

variable {pos : Nat} {rest : Text} {brace : Unit → Option Nat}
  {tag : Text → Except MarkupFault TagEnd}

theorem markBy_closed {name after : Text} (cut : cutAt? '>' rest = some (name, after)) :
    markBy pos '<' ('/' :: rest) brace tag =
      some (.ok ⟨.closing, pos, pos + 3 + name.length, trim name⟩) := by
  rw [markBy.eq_def, if_neg (by decide), if_pos (by simp [opensTag])]
  simp only [cut]

theorem markBy_unclosed (cut : cutAt? '>' rest = none) :
    markBy pos '<' ('/' :: rest) brace tag = some (.error ⟨.unterminatedClosingTag, pos⟩) := by
  rw [markBy.eq_def, if_neg (by decide), if_pos (by simp [opensTag])]
  simp only [cut]

theorem markBy_opening (slash : d ≠ '/') (opens : opensTag (d :: rest)) :
    markBy pos '<' (d :: rest) brace tag =
      some ((tag (tagName (d :: rest))).map fun found =>
        ⟨if found.selfClosing then .selfClosing else .opening, pos, found.stop,
          tagName (d :: rest)⟩) := by
  rw [markBy.eq_def, if_neg (by decide), if_pos (by simp [opens])]
  split
  · rename_i same
    exact absurd (List.cons.inj same).1 slash
  · cases tag (tagName (d :: rest)) <;> rfl

theorem markBy_eq_none (curly : d ≠ '{') (angle : d = '<' → opensTag rest = false) :
    markBy pos d rest brace tag = none := by
  rw [markBy.eq_def, if_neg curly, if_neg]
  intro tag
  rw [Bool.and_eq_true, decide_eq_true_eq] at tag
  rw [angle tag.1] at tag
  cases tag.2

end MarkBy

/-- Two answers on the tag or expression at an offset, with the character at `place` and without it,
say the same: a name is the same if it has one line. -/
inductive SameMark (place : Nat) :
    Option (Except MarkupFault Token) → Option (Except MarkupFault Token) → Prop where
  | none : SameMark place none none
  | fault (with_ without : MarkupFault) :
    SameMark place (some (.error with_)) (some (.error without))
  | token {token token' : Token} (kind : token'.kind = token.kind)
    (stop : token'.stop = offsetWithout place token.stop)
    (name : ∀ tag, '\n' ∉ tag → (token'.name = tag ↔ token.name = tag)) :
    SameMark place (some (.ok token)) (some (.ok token'))

/-- The tag that ends where it does without the character at `place`. -/
def TagEnd.without (place : Nat) (tag : TagEnd) : TagEnd :=
  { tag with stop := offsetWithout place tag.stop }

/-- A character that is not the last one stands at the start of a line. -/
theorem Loose.exists_line (loose : Loose (w.reverse ++ d :: before) c back) (line : d ≠ '\n')
    (more : back ≠ []) : ∃ above, w = above ++ ['\n'] ∧ isIndent c := by
  obtain ⟨indent, head⟩ := loose.2.resolve_left more
  cases w using List.reverseRecOn with
  | nil => exact absurd (Option.some.inj head) line
  | append_singleton above last =>
    rw [List.reverse_append] at head
    exact ⟨above, by rw [Option.some.inj head], indent⟩

/-- A closing tag is the same without the character. -/
theorem markBy_closing_loose (loose : Loose (w.reverse ++ '/' :: before) c back) (pos : Nat)
    {brace brace' : Unit → Option Nat} {tag tag' : Text → Except MarkupFault TagEnd} :
    SameMark (pos + 2 + w.length) (markBy pos '<' ('/' :: (w ++ c :: back)) brace tag)
      (markBy pos '<' ('/' :: (w ++ back)) brace' tag') := by
  have solid : c ≠ '>' := ne_of_isBlank loose.1 rfl
  rcases cutAt?_loose solid back w with ⟨front, after, after', short, long, cut⟩ |
    ⟨front, after, long, cut⟩ | ⟨long, cut⟩
  · rw [markBy_closed long, markBy_closed cut]
    exact .token rfl (offsetWithout_of_le (by show pos + 3 + front.length ≤ _; omega)).symm
      fun _ _ => Iff.rfl
  · rw [markBy_closed long, markBy_closed cut]
    refine .token rfl ?_ fun name single => ?_
    · have size : pos + 3 + (w ++ c :: front).length = pos + 3 + (w ++ front).length + 1 := by
        simp only [List.length_append, List.length_cons]
        omega
      show _ = offsetWithout _ (pos + 3 + (w ++ c :: front).length)
      rw [size, offsetWithout_succ (by rw [List.length_append]; omega)]
    · obtain ⟨above, rfl, indent⟩ := loose.exists_line (by decide) fun last => by
        have size := congrArg List.length (eq_append_of_cutAt? cut)
        simp [last] at size
      have blank : isBlankText ['\n', c] := by
        rw [isBlankText, List.all_cons, List.all_cons, loose.1]
        rfl
      have feed : isBlankText ['\n'] := rfl
      have joined := trim_eq_iff above front feed blank (by simp) (by simp) single
      simpa using joined
  · rw [markBy_unclosed long, markBy_unclosed cut]
    exact .fault _ _

theorem toOption_cases {ε α : Type} {found found' : Except ε α} {move : α → α}
    (h : found'.toOption = found.toOption.map move) :
    (∃ fault fault', found = .error fault ∧ found' = .error fault') ∨
      ∃ a, found = .ok a ∧ found' = .ok (move a) := by
  cases found with
  | error fault =>
    cases found' with
    | error fault' => exact .inl ⟨fault, fault', rfl, rfl⟩
    | ok b => cases h
  | ok a =>
    cases found' with
    | error fault' => cases h
    | ok b => exact .inr ⟨a, rfl, by rw [Option.some.inj h]⟩

/-- The tag or expression at an offset is the same without the character. -/
theorem markBy_loose (loose : Loose (w.reverse ++ d :: before) c back) (pos : Nat)
    {brace brace' : Option Nat} {tag tag' : Text → Except MarkupFault TagEnd}
    (hb : d = '{' → brace' = brace.map (offsetWithout (pos + 1 + w.length)))
    (ht : d = '<' → ∀ name, name.length ≤ w.length →
      (tag' name).toOption = (tag name).toOption.map (TagEnd.without (pos + 1 + w.length))) :
    SameMark (pos + 1 + w.length) (markBy pos d (w ++ c :: back) (fun _ => brace) tag)
      (markBy pos d (w ++ back) (fun _ => brace') tag') := by
  by_cases curly : d = '{'
  · subst curly
    rw [hb rfl]
    cases brace with
    | none => exact .fault _ _
    | some stop => exact .token rfl rfl fun _ _ => Iff.rfl
  by_cases angle : d = '<'
  · subst angle
    cases w with
    | nil =>
      obtain rfl := loose.eq_nil (by decide)
      have plain : markBy pos '<' [c] (fun _ => brace) tag = none :=
        markBy_eq_none (by decide) fun _ => not_opensTag_of_isBlank loose.1 []
      rw [List.nil_append, plain]
      exact .none
    | cons next w =>
      by_cases slash : next = '/'
      · subst slash
        have place : pos + 1 + ('/' :: w).length = pos + 2 + w.length := by
          rw [List.length_cons]
          omega
        rw [place]
        exact markBy_closing_loose (loose_cons.1 loose) pos
      · have name := tagName_loose loose (by decide)
        have opens := opensTag_loose loose (by decide)
        have ends := ht rfl _ (length_tagName_le (next :: w))
        rw [List.cons_append, List.cons_append] at name opens ⊢
        cases opened : opensTag (next :: (w ++ c :: back)) with
        | true =>
          rw [markBy_opening slash opened, markBy_opening slash (opens.trans opened), name.1,
            name.2]
          obtain ⟨fault, fault', found, found'⟩ | ⟨stop, found, found'⟩ := toOption_cases ends
          · rw [found, found']
            exact .fault _ _
          · rw [found, found']
            exact .token rfl rfl fun _ _ => Iff.rfl
        | false =>
          rw [markBy_eq_none (by decide) fun _ => opened,
            markBy_eq_none (by decide) fun _ => opens.trans opened]
          exact .none
  · have other : ∀ t : Text, d = '<' → opensTag t = false := fun _ same => absurd same angle
    rw [markBy_eq_none curly (other _), markBy_eq_none curly (other _)]
    exact .none

/-- An element ends at the same place without the character if its tags do. -/
theorem elementEndBy_loose {place : Nat} {tag tag' : Except MarkupFault TagEnd}
    {children children' : Nat → Except MarkupFault (Option Nat)}
    (ht : tag'.toOption = tag.toOption.map (TagEnd.without place))
    (hc : ∀ stop, (children' (offsetWithout place stop)).toOption =
      (children stop).toOption.map (Option.map (offsetWithout place))) :
    (elementEndBy tag' children').toOption =
      (elementEndBy tag children).toOption.map (Option.map (offsetWithout place)) := by
  obtain ⟨fault, fault', rfl, rfl⟩ | ⟨⟨stop, selfClosing⟩, rfl, rfl⟩ := toOption_cases ht
  · rfl
  · cases selfClosing with
    | true => rfl
    | false => exact hc stop

/-- What code passes over ends at the same place without the character. -/
theorem opaqueEndBy_loose (loose : Loose (w.reverse ++ d :: before) c back) (pos : Nat)
    (behind : Text) {literal literal' : Nat} {element element' : Except MarkupFault (Option Nat)}
    (hl : isQuote d → literal' = offsetWithout (pos + 1 + w.length) literal)
    (he : d = '<' → element'.toOption =
      element.toOption.map (Option.map (offsetWithout (pos + 1 + w.length)))) :
    opaqueEndBy pos d behind (w ++ back) (fun _ => literal') (fun _ => element') =
      (opaqueEndBy pos d behind (w ++ c :: back) (fun _ => literal) fun _ => element).map
        (offsetWithout (pos + 1 + w.length)) := by
  rw [opaqueEndBy, opaqueEndBy]
  split
  · rename_i quote
    exact congrArg some (hl quote)
  split
  · exact commentEnd?_loose loose pos
  by_cases angle : d = '<'
  · subst angle
    have ends := he rfl
    rw [opensMarkup_loose loose (by decide)]
    split
    · obtain ⟨fault, fault', rfl, rfl⟩ | ⟨found, rfl, rfl⟩ := toOption_cases ends <;> rfl
    · rfl
  · rw [if_neg (by simp [angle]), if_neg (by simp [angle])]
    rfl

/-! ## Passing over a blank -/

theorem literalEnd_blank {quote : Char} (solid : isBlank quote = false) (blank : isBlank c)
    (pos resume : Nat) (cs : Text) :
    literalEnd quote pos resume (c :: cs) = literalEnd quote (pos + 1) resume cs := by
  have escape : c ≠ '\\' := ne_of_isBlank blank rfl
  have closes : c ≠ quote := ne_of_isBlank blank solid
  have dollar : c ≠ '$' := ne_of_isBlank blank rfl
  rw [literalEnd_cons fun substitutes => dollar substitutes.2.2.1, if_neg escape, if_neg closes]
  split <;> rfl

theorem bracketEnd_blank (kind : Bracket) (blank : isBlank c) (depth : Nat) (behind : Text)
    (pos resume : Nat) (cs : Text) :
    bracketEnd kind depth behind pos resume (c :: cs) =
      bracketEnd kind depth (c :: behind) (pos + 1) resume cs := by
  have tag : c ≠ '<' := ne_of_isBlank blank rfl
  have slash : c ≠ '/' := ne_of_isBlank blank rfl
  have quote : isQuote c = false := eq_false_of_isBlank (by decide +kernel) blank
  have bare : opaqueEnd? pos behind c cs = none := by
    rw [opaqueEnd?_of_ne tag, quote, commentEnd?_eq_none fun same => absurd same slash]
    rfl
  have opener : c ≠ kind.opener := ne_of_isBlank blank (by cases kind <;> rfl)
  have closer : c ≠ kind.closer := ne_of_isBlank blank (by cases kind <;> rfl)
  rw [bracketEnd, opaqueEndBy_eq, bare]
  dsimp only
  rw [if_neg opener, if_neg closer]
  split <;> rfl

theorem tagEnd_blank (blank : isBlank c) (name : Text) (start : Nat) (previous : Char)
    (pos resume : Nat) (cs : Text) :
    tagEnd name start previous pos resume (c :: cs) = tagEnd name start c (pos + 1) resume cs := by
  have double : c ≠ '"' := ne_of_isBlank blank rfl
  have single : c ≠ '\'' := ne_of_isBlank blank rfl
  have brace : c ≠ '{' := ne_of_isBlank blank rfl
  have close : c ≠ '>' := ne_of_isBlank blank rfl
  rw [tagEnd]
  simp [double, single, brace, close]

theorem childrenEnd_blank (blank : isBlank c) (name : Text) (depth pos resume : Nat) (cs : Text) :
    childrenEnd name depth pos resume (c :: cs) = childrenEnd name depth (pos + 1) resume cs := by
  have brace : c ≠ '{' := ne_of_isBlank blank rfl
  have tag : c ≠ '<' := ne_of_isBlank blank rfl
  rw [childrenEnd, markBy_eq_none brace fun same => absurd same tag]
  split <;> rfl

/-- Whether a tag is found, and its end, does not depend on where it starts, and on the character
before it only as far as that is a slash. -/
theorem tagEnd_start (name : Text) (start start' : Nat) : ∀ (t : Text) {previous previous' : Char}
    (pos resume : Nat), (previous == '/') = (previous' == '/') →
    (tagEnd name start previous pos resume t).toOption =
      (tagEnd name start' previous' pos resume t).toOption
  | [], _, _, _, _, _ => rfl
  | c :: cs, previous, previous', pos, resume, slash => by
    have ih : ∀ resume, (tagEnd name start c (pos + 1) resume cs).toOption =
        (tagEnd name start' c (pos + 1) resume cs).toOption :=
      fun resume => tagEnd_start name start start' cs (pos + 1) resume rfl
    rw [tagEnd, tagEnd, slash]
    split
    · exact ih resume
    split
    · exact ih _
    split
    · cases bracketEnd .curly 0 ['{'] (pos + 1) 0 cs with
      | none => rfl
      | some stop => exact ih stop
    split
    · rfl
    · exact ih resume

/-! ## Scanners -/

/-- What stands before the text of a scanner does not matter behind its first character. -/
theorem Loose.cut (loose : Loose (w.reverse ++ d :: before) c back) (before' : Text) :
    Loose (w.reverse ++ d :: before') c back := by
  have head : (w.reverse ++ d :: before').head? = (w.reverse ++ d :: before).head? := by
    rw [List.head?_append, List.head?_append]
    rfl
  exact ⟨loose.1, loose.2.imp_right fun line => ⟨line.1, head.trans line.2⟩⟩

theorem not_isBlank_of_isQuote (quote : isQuote d) : isBlank d = false := by
  by_contra blank
  rw [eq_false_of_isBlank (p := isQuote) (by decide +kernel) (by simpa using blank)] at quote
  cases quote

theorem not_mem_tagName (t : Text) : '\n' ∉ tagName t := fun member =>
  absurd (isTagNameChar_of_mem_tagName member) (by decide)

theorem succ_add_length {pos place : Nat} (size : pos + (d :: w).length = place) :
    pos + 1 + w.length = place := by
  rw [← size, List.length_cons]
  omega

theorem Realigned.none (place pos : Nat) : Realigned place pos 0 0 :=
  .inr ⟨Nat.zero_le _, Nat.zero_le _⟩

-- Each scanner calls the others on shorter texts: the laws are proved together, by induction on the
-- length of the text before the character.
mutual

/-- A literal ends at the same place without the character. -/
theorem literalEnd_loose {quote : Char} (solid : isBlank quote = false) {place : Nat} :
    ∀ (w : Text) {before : Text} {pos resume resume' : Nat}, pos + w.length = place →
    Loose (w.reverse ++ before) c back → Realigned place pos resume resume' →
    literalEnd quote pos resume' (w ++ back) =
      offsetWithout place (literalEnd quote pos resume (w ++ c :: back))
  | [], before, pos, resume, resume', size, loose, h => by
    obtain rfl : pos = place := size
    have moved := literalEnd_shift 1 quote back h.aligned
    have after := (literalEnd_bounds quote back pos resume').1
    rw [List.nil_append, List.nil_append, literalEnd_blank solid loose.1, moved,
      offsetWithout_succ after]
  | d :: w, before, pos, resume, resume', size, loose, h => by
    have loose := loose_cons.1 loose
    obtain rfl := succ_add_length size
    have here : pos < pos + 1 + w.length := by omega
    have next : ∀ {resume resume'}, Realigned (pos + 1 + w.length) (pos + 1) resume resume' →
        literalEnd quote (pos + 1) resume' (w ++ back) =
          offsetWithout (pos + 1 + w.length) (literalEnd quote (pos + 1) resume (w ++ c :: back)) :=
      fun h => literalEnd_loose solid w rfl loose h
    rw [List.cons_append, List.cons_append]
    by_cases substitutes : resume ≤ pos ∧ quote = '`' ∧ d = '$' ∧ (w ++ c :: back).head? = some '{'
    · obtain ⟨le, rfl, rfl, brace⟩ := substitutes
      have le' : resume' ≤ pos := Nat.not_lt.1 fun lt => Nat.not_lt.2 le ((h.lt_iff here).1 lt)
      rw [literalEnd_of_le '`' _ le, literalEnd_of_le '`' _ le']
      cases w with
      | nil => exact absurd (Option.some.inj brace) (ne_of_isBlank loose.1 rfl)
      | cons first inner =>
        obtain rfl := Option.some.inj brace
        have loose := loose_cons.1 loose
        have size := succ_add_length (show pos + 1 + ('{' :: inner).length = _ from rfl)
        have nested : bracketEnd .curly 0 ['{'] (pos + 2) 0 (inner ++ back) = _ :=
          bracketEnd_loose .curly inner size (loose.cut []) (.none _ _)
        rw [List.cons_append, List.cons_append]
        cases found : bracketEnd .curly 0 ['{'] (pos + 2) 0 (inner ++ c :: back) with
        | none =>
          rw [found] at nested
          have longer : pos + 2 + (inner ++ c :: back).length =
              pos + 2 + (inner ++ back).length + 1 := by
            simp only [List.length_append, List.length_cons]
            omega
          rw [literalEnd_unclosed found, literalEnd_unclosed nested, longer, offsetWithout_succ]
          rw [← size, List.length_append]
          omega
        | some stop =>
          rw [found] at nested
          rw [literalEnd_substitution found, literalEnd_substitution nested]
          exact literalEnd_loose solid inner size loose (.found _ _ _)
    · have static : ¬ (resume' ≤ pos ∧ quote = '`' ∧ d = '$' ∧ (w ++ back).head? = some '{') := by
        rintro ⟨le, rfl, rfl, brace⟩
        refine substitutes ⟨Nat.not_lt.1 fun lt => ?_, rfl, rfl, ?_⟩
        · exact Nat.not_lt.2 le ((h.lt_iff here).2 lt)
        · exact (loose.head?_eq_some (by decide) (by decide)).1 brace
      rw [literalEnd_cons substitutes, literalEnd_cons static]
      simp only [h.lt_iff here]
      split
      · exact next h.succ
      split
      · rename_i escape
        subst escape
        cases w with
        | cons first w => exact next (.same (by rw [List.length_cons]; omega) _)
        | nil =>
          obtain rfl := loose.eq_nil (by decide)
          simp [literalEnd, offsetWithout]
      split
      · exact (offsetWithout_of_le (by omega)).symm
      · exact next h.succ
termination_by w => w.length

/-- A bracket ends at the same place without the character. -/
theorem bracketEnd_loose (kind : Bracket) {place : Nat} : ∀ (w : Text) {depth : Nat} {behind : Text}
    {pos resume resume' : Nat}, pos + w.length = place → Loose (w.reverse ++ behind) c back →
    Realigned place pos resume resume' →
    bracketEnd kind depth behind pos resume' (w ++ back) =
      (bracketEnd kind depth behind pos resume (w ++ c :: back)).map (offsetWithout place)
  | [], depth, behind, pos, resume, resume', size, loose, h => by
    obtain rfl : pos = place := size
    rw [List.nil_append, List.nil_append, bracketEnd_blank kind loose.1]
    rcases loose.2 with rfl | ⟨indent, line⟩
    · rfl
    have around : bracketEnd kind depth (c :: behind) (pos + 1) resume back =
        bracketEnd kind depth behind (pos + 1) resume back :=
      bracketEnd_of_opensMarkup kind (opensMarkup_indent indent line) back [] depth (pos + 1) resume
    have moved : bracketEnd kind depth behind (pos + 1) resume back = _ :=
      bracketEnd_shift 1 kind back h.aligned
    rw [around, moved]
    cases found : bracketEnd kind depth behind pos resume' back with
    | none => rfl
    | some stop =>
      have after := (bracketEnd_found kind found).bounds.1
      exact congrArg some (offsetWithout_succ after.le).symm
  | d :: w, depth, behind, pos, resume, resume', size, loose, h => by
    have loose := loose_cons.1 loose
    obtain rfl := succ_add_length size
    have here : pos < pos + 1 + w.length := by omega
    have next : ∀ {depth resume resume'}, Realigned (pos + 1 + w.length) (pos + 1) resume resume' →
        bracketEnd kind depth (d :: behind) (pos + 1) resume' (w ++ back) =
          (bracketEnd kind depth (d :: behind) (pos + 1) resume (w ++ c :: back)).map
            (offsetWithout (pos + 1 + w.length)) :=
      fun h => bracketEnd_loose kind w rfl loose h
    have literal : isQuote d → literalEnd d (pos + 1) 0 (w ++ back) =
        offsetWithout (pos + 1 + w.length) (literalEnd d (pos + 1) 0 (w ++ c :: back)) := by
      intro quote
      exact literalEnd_loose (not_isBlank_of_isQuote quote) w rfl loose (.none _ _)
    have element : d = '<' →
        (elementEndBy (tagEnd (tagName (w ++ back)) pos '<' (pos + 1)
            (pos + 1 + (tagName (w ++ back)).length) (w ++ back))
          fun stop => childrenEnd (tagName (w ++ back)) 0 (pos + 1) stop (w ++ back)).toOption =
        (elementEndBy (tagEnd (tagName (w ++ c :: back)) pos '<' (pos + 1)
            (pos + 1 + (tagName (w ++ c :: back)).length) (w ++ c :: back))
          fun stop => childrenEnd (tagName (w ++ c :: back)) 0 (pos + 1) stop
            (w ++ c :: back)).toOption.map (Option.map (offsetWithout (pos + 1 + w.length))) := by
      rintro rfl
      obtain ⟨long, short⟩ := tagName_loose loose (by decide)
      rw [long, short]
      refine elementEndBy_loose ?_ fun stop => ?_
      · refine tagEnd_loose (tagName w) w rfl loose (.same ?_ _)
        have := length_tagName_le w
        omega
      · exact childrenEnd_loose (not_mem_tagName w) w rfl loose (.found _ _ _)
    rw [List.cons_append, List.cons_append, bracketEnd, bracketEnd,
      opaqueEndBy_loose loose pos behind literal element]
    simp only [h.lt_iff here]
    split
    · exact next h.succ
    cases opaqueEndBy pos d behind (w ++ c :: back) _ _ with
    | some stop => exact next (.found _ _ _)
    | none =>
      dsimp only [Option.map_none]
      split
      · exact next h.succ
      split
      · split
        · exact congrArg some (offsetWithout_of_le (by omega)).symm
        · exact next h.succ
      · exact next h.succ
termination_by w => w.length

/-- A tag ends at the same place without the character. -/
theorem tagEnd_loose (name : Text) {place : Nat} : ∀ (w : Text) {before : Text} {previous : Char}
    {start start' pos resume resume' : Nat}, pos + w.length = place →
    Loose (w.reverse ++ previous :: before) c back → Realigned place pos resume resume' →
    (tagEnd name start' previous pos resume' (w ++ back)).toOption =
      (tagEnd name start previous pos resume (w ++ c :: back)).toOption.map (TagEnd.without place)
  | [], before, previous, start, start', pos, resume, resume', size, loose, h => by
    obtain rfl : pos = place := size
    rw [List.nil_append, List.nil_append, tagEnd_blank loose.1]
    rcases loose.2 with rfl | ⟨-, line⟩
    · rfl
    obtain rfl : previous = '\n' := Option.some.inj line
    have slash : (c == '/') = ('\n' == '/') := beq_false_of_ne (ne_of_isBlank loose.1 rfl)
    have moved : tagEnd name (start' + 1) '\n' (pos + 1) resume back = _ :=
      tagEnd_shift 1 name start' back h.aligned
    rw [tagEnd_start name start (start' + 1) back (pos + 1) resume slash, moved]
    cases found : tagEnd name start' '\n' pos resume' back with
    | error fault => rfl
    | ok tag =>
      have after := (tagEnd_found found).bounds.1
      have same : TagEnd.without pos (tag.shift 1) = tag := by
        rw [TagEnd.without, TagEnd.shift, offsetWithout_succ after.le]
      exact congrArg some same.symm
  | d :: w, before, previous, start, start', pos, resume, resume', size, loose, h => by
    have loose := loose_cons.1 loose
    obtain rfl := succ_add_length size
    have here : pos < pos + 1 + w.length := by omega
    have next : ∀ {resume resume'}, Realigned (pos + 1 + w.length) (pos + 1) resume resume' →
        (tagEnd name start' d (pos + 1) resume' (w ++ back)).toOption =
          (tagEnd name start d (pos + 1) resume (w ++ c :: back)).toOption.map
            (TagEnd.without (pos + 1 + w.length)) :=
      fun h => tagEnd_loose name w rfl loose h
    rw [List.cons_append, List.cons_append, tagEnd, tagEnd]
    simp only [h.lt_iff here]
    split
    · exact next h.succ
    split
    · rename_i quote
      have solid : isBlank d = false := by
        rw [Bool.or_eq_true, decide_eq_true_eq, decide_eq_true_eq] at quote
        rcases quote with rfl | rfl <;> rfl
      rw [literalEnd_loose solid w rfl loose (.none _ _)]
      exact next (.found _ _ _)
    split
    · rename_i brace
      subst brace
      rw [bracketEnd_loose .curly w rfl (loose.cut []) (.none _ _)]
      cases bracketEnd .curly 0 ['{'] (pos + 1) 0 (w ++ c :: back) with
      | none => rfl
      | some stop => exact next (.found _ _ _)
    split
    · have same : TagEnd.without (pos + 1 + w.length) ⟨pos + 1, previous == '/'⟩ =
          ⟨pos + 1, previous == '/'⟩ := by
        rw [TagEnd.without, offsetWithout_of_le (show pos + 1 ≤ pos + 1 + w.length by omega)]
      exact congrArg some same.symm
    · exact next h.succ
termination_by w => w.length

/-- What follows a tag ends at the same place without the character. -/
theorem childrenEnd_loose {name : Text} (single : '\n' ∉ name) {place : Nat} : ∀ (w : Text)
    {before : Text} {depth pos resume resume' : Nat}, pos + w.length = place →
    Loose (w.reverse ++ before) c back → Realigned place pos resume resume' →
    (childrenEnd name depth pos resume' (w ++ back)).toOption =
      (childrenEnd name depth pos resume (w ++ c :: back)).toOption.map
        (Option.map (offsetWithout place))
  | [], before, depth, pos, resume, resume', size, loose, h => by
    obtain rfl : pos = place := size
    have moved : childrenEnd name depth (pos + 1) resume back = _ :=
      childrenEnd_shift 1 name back h.aligned
    rw [List.nil_append, List.nil_append, childrenEnd_blank loose.1, moved]
    rcases found : childrenEnd name depth pos resume' back with _ | _ | stop
    · rfl
    · rfl
    · have after := (childrenEnd_found found).bounds.1
      exact congrArg (some ∘ some) (offsetWithout_succ after.le).symm
  | d :: w, before, depth, pos, resume, resume', size, loose, h => by
    have loose := loose_cons.1 loose
    obtain rfl := succ_add_length size
    have here : pos < pos + 1 + w.length := by omega
    have next : ∀ {depth resume resume'}, Realigned (pos + 1 + w.length) (pos + 1) resume resume' →
        (childrenEnd name depth (pos + 1) resume' (w ++ back)).toOption =
          (childrenEnd name depth (pos + 1) resume (w ++ c :: back)).toOption.map
            (Option.map (offsetWithout (pos + 1 + w.length))) :=
      fun h => childrenEnd_loose single w rfl loose h
    have brace : d = '{' → bracketEnd .curly 0 ['{'] (pos + 1) 0 (w ++ back) =
        (bracketEnd .curly 0 ['{'] (pos + 1) 0 (w ++ c :: back)).map
          (offsetWithout (pos + 1 + w.length)) := by
      rintro rfl
      exact bracketEnd_loose .curly w rfl (loose.cut []) (.none _ _)
    have tag : d = '<' → ∀ tag : Text, tag.length ≤ w.length →
        (tagEnd tag pos '<' (pos + 1) (pos + 1 + tag.length) (w ++ back)).toOption =
          (tagEnd tag pos '<' (pos + 1) (pos + 1 + tag.length) (w ++ c :: back)).toOption.map
            (TagEnd.without (pos + 1 + w.length)) := by
      rintro rfl tag short
      exact tagEnd_loose tag w rfl loose (.same (by omega) _)
    have mark := markBy_loose loose pos brace tag
    rw [List.cons_append, List.cons_append, childrenEnd, childrenEnd]
    simp only [h.lt_iff here]
    split
    · exact next h.succ
    generalize markBy pos d (w ++ back) _ _ = without at mark
    generalize markBy pos d (w ++ c :: back) _ _ = with_ at mark
    cases mark with
    | none => exact next h.succ
    | fault => rfl
    | @token token token' kind stop same =>
      dsimp only
      rw [kind, stop]
      cases token.kind with
      | closing =>
        dsimp only
        split
        · simp only [same name single]
          split <;> rfl
        · exact next (.found _ _ _)
      | _ => exact next (.found _ _ _)
termination_by w => w.length

end

end Pieces

end Recast
