import Mathlib.Logic.Relation
import Recast.Proofs.Scan.Reflow

/-!
# Code in its block

A block of code (`codeBlock`) is the code without blank lines around it and without the indentation
that its lines share. One after the other, characters are taken off that a scan does not miss
(`Spare`): blanks at both ends, and indentation at the start of a line. A scan that gets to a place
of the code gets to the same place without such a character (`CodeAt.spare`), so a piece between
ticks that stands in the code (`StandsIn`) stands in its block as well, with its later lines moved
(`StandsIn.codeBlock`).
-/

namespace Recast

open MaskState (drop_succ)

/-! ## One character less -/

/-- A character that a scan of code does not miss: a blank at the start or at the end, or
indentation at the start of a line. -/
def Spare (front : Text) (c : Char) (back : Text) : Prop :=
  isBlank c ∧ (front = [] ∨ Loose front.reverse c back)

section Spare

variable {front back : Text} {c : Char}

theorem exists_split_of_getElem? {t : Text} {pos : Nat} {d : Char} (char : t[pos]? = some d) :
    ∃ before after, t = before ++ d :: after ∧ pos = before.length := by
  obtain ⟨inside, -⟩ := List.getElem?_eq_some_iff.1 char
  obtain ⟨after, ahead⟩ := exists_drop_eq char
  refine ⟨t.take pos, after, ?_, (List.length_take_of_le inside.le).symm⟩
  rw [← ahead, List.take_append_drop]

/-- The spare character, as the last one of the text before the rest. -/
theorem append_spare (front : Text) (c : Char) (back : Text) :
    front ++ c :: back = (front ++ [c]) ++ back := by
  rw [List.append_assoc, List.singleton_append]

/-- Behind the spare character everything stands one further to the front. -/
theorem offsetWithout_behind (front : Text) (c : Char) (pos : Nat) :
    offsetWithout front.length (pos + (front ++ [c]).length) = pos + front.length := by
  rw [List.length_append, List.length_singleton, ← Nat.add_assoc,
    offsetWithout_succ (Nat.le_add_left _ _)]

theorem Spare.ne (spare : Spare front c back) {pos : Nat} {d : Char}
    (char : (front ++ c :: back)[pos]? = some d) (solid : isBlank d = false) :
    pos ≠ front.length := by
  rintro rfl
  rw [List.getElem?_append_right (Nat.le_refl _), Nat.sub_self] at char
  exact ne_of_isBlank spare.1 solid (Option.some.inj char)

/-- Any other character stands before the spare one or behind it. -/
theorem Spare.cases (spare : Spare front c back) {pos : Nat} {d : Char}
    (char : (front ++ c :: back)[pos]? = some d) (other : pos ≠ front.length) :
    (∃ before w, front = before ++ d :: w ∧ pos = before.length ∧
        before.length + 1 + w.length = front.length ∧
        Loose (w.reverse ++ d :: before.reverse) c back) ∨
      ∃ between rest, back = between ++ d :: rest ∧
        pos = between.length + (front ++ [c]).length := by
  rcases Nat.lt_or_gt_of_ne other with early | late
  · rw [List.getElem?_append_left early] at char
    obtain ⟨before, w, rfl, rfl⟩ := exists_split_of_getElem? char
    have loose := spare.2.resolve_left (by simp)
    rw [List.reverse_append, List.reverse_cons, List.append_assoc] at loose
    exact .inl ⟨before, w, rfl, rfl, by rw [List.length_append, List.length_cons]; omega, loose⟩
  · have size : (front ++ [c]).length = front.length + 1 := by simp
    rw [append_spare, List.getElem?_append_right (by omega)] at char
    obtain ⟨between, rest, rfl, distance⟩ := exists_split_of_getElem? char
    exact .inr ⟨between, rest, rfl, by omega⟩

/-- Without the spare character the text goes on in the same way from any other one, as far as the
next mark can tell. -/
theorem Spare.exists_drop (spare : Spare front c back) {pos : Nat} {d : Char}
    (char : (front ++ c :: back)[pos]? = some d) (other : pos ≠ front.length) :
    ∃ cs cs', (front ++ c :: back).drop pos = d :: cs ∧
      (front ++ back).drop (offsetWithout front.length pos) = d :: cs' ∧
      (d ≠ '\n' → ∀ {mark}, isBlank mark = false →
        (cs'.head? = some mark ↔ cs.head? = some mark)) := by
  obtain ⟨before, w, rfl, rfl, place, loose⟩ | ⟨between, rest, rfl, rfl⟩ := spare.cases char other
  · refine ⟨w ++ c :: back, w ++ back, ?_, ?_, fun line _ solid => loose.head?_eq_some line solid⟩
    · rw [List.append_assoc, List.drop_left, List.cons_append]
    · rw [offsetWithout_of_le (by omega), List.append_assoc, List.drop_left, List.cons_append]
  · refine ⟨rest, rest, ?_, ?_, fun _ _ _ => Iff.rfl⟩
    · rw [append_spare front c (between ++ d :: rest), drop_append_shift, List.drop_left]
    · rw [offsetWithout_behind, drop_append_shift, List.drop_left]

theorem Spare.char (spare : Spare front c back) {pos : Nat} {d : Char}
    (char : (front ++ c :: back)[pos]? = some d) (other : pos ≠ front.length) :
    (front ++ back)[offsetWithout front.length pos]? = some d := by
  obtain ⟨cs, cs', -, ahead, -⟩ := spare.exists_drop char other
  rw [← List.head?_drop, ahead]
  rfl

/-- Where a substitution starts is seen from the next character. -/
theorem slice_eq_substitution {t cs : Text} {pos : Nat} {d : Char} (ahead : t.drop pos = d :: cs) :
    slice t pos (pos + 2) = ['$', '{'] ↔ d = '$' ∧ cs.head? = some '{' := by
  rw [slice, List.drop_take, Nat.add_sub_cancel_left, ahead]
  cases cs with
  | nil => simp
  | cons e cs => simp

/-- A substitution starts at the same places without the spare character. -/
theorem Spare.opens (spare : Spare front c back) {pos : Nat} {d : Char}
    (char : (front ++ c :: back)[pos]? = some d) (other : pos ≠ front.length) :
    slice (front ++ back) (offsetWithout front.length pos) (offsetWithout front.length pos + 2) =
        ['$', '{'] ↔
      slice (front ++ c :: back) pos (pos + 2) = ['$', '{'] := by
  obtain ⟨cs, cs', ahead, ahead', next⟩ := spare.exists_drop char other
  rw [slice_eq_substitution ahead, slice_eq_substitution ahead']
  refine and_congr_right fun dollar => next ?_ (by decide)
  rw [dollar]
  decide

theorem commentEndAt?_append (front t : Text) (pos : Nat) :
    commentEndAt? (front ++ t) (pos + front.length) =
      (commentEndAt? t pos).map (· + front.length) := by
  rw [commentEndAt?, commentEndAt?, drop_append_shift]
  cases t.drop pos with
  | nil => rfl
  | cons c cs => exact commentEnd?_shift front.length pos c cs

/-- A comment ends at the same place without the spare character. -/
theorem Spare.comment (spare : Spare front c back) {pos : Nat} {d : Char}
    (char : (front ++ c :: back)[pos]? = some d) (other : pos ≠ front.length) :
    commentEndAt? (front ++ back) (offsetWithout front.length pos) =
      (commentEndAt? (front ++ c :: back) pos).map (offsetWithout front.length) := by
  obtain ⟨before, w, rfl, rfl, place, loose⟩ | ⟨between, rest, -, rfl⟩ := spare.cases char other
  · have ends := commentEnd?_loose loose before.length
    rw [place] at ends
    rw [offsetWithout_of_le (by omega), commentEndAt?, commentEndAt?, List.append_assoc,
      List.append_assoc, List.drop_left, List.drop_left]
    exact ends
  · rw [offsetWithout_behind, append_spare, commentEndAt?_append, commentEndAt?_append,
      Option.map_map]
    exact congrArg (Option.map · _) (funext fun stop => (offsetWithout_behind front c stop).symm)

/-- A literal ends at the same place without the spare character. -/
theorem Spare.literal (spare : Spare front c back) {pos : Nat} {d : Char}
    (char : (front ++ c :: back)[pos]? = some d) (quote : isQuote d) :
    literalEndAt (front ++ back) (offsetWithout front.length pos) =
      offsetWithout front.length (literalEndAt (front ++ c :: back) pos) := by
  have solid := not_isBlank_of_isQuote quote
  obtain ⟨before, w, rfl, rfl, place, loose⟩ | ⟨between, rest, -, rfl⟩ :=
    spare.cases char (spare.ne char solid)
  · have ends := literalEnd_loose solid w place loose (.none _ _)
    rw [offsetWithout_of_le (by omega), literalEndAt, literalEndAt, List.append_assoc,
      List.append_assoc, List.drop_left, List.drop_left]
    exact ends
  · rw [offsetWithout_behind, append_spare, literalEndAt_append, literalEndAt_append,
      offsetWithout_behind]

/-- A brace ends at the same place without the spare character. -/
theorem Spare.brace (spare : Spare front c back) {pos : Nat}
    (char : (front ++ c :: back)[pos]? = some '{') :
    bracketEndAt? (front ++ back) (offsetWithout front.length pos) =
      (bracketEndAt? (front ++ c :: back) pos).map (offsetWithout front.length) := by
  obtain ⟨before, w, rfl, rfl, place, loose⟩ | ⟨between, rest, -, rfl⟩ :=
    spare.cases char (spare.ne char rfl)
  · have ends : bracketEnd .curly 0 ['{'] (before.length + 1) 0 (w ++ back) = _ :=
      bracketEnd_loose .curly w place (loose.cut []) (.none _ _)
    rw [offsetWithout_of_le (by omega), bracketEndAt?, bracketEndAt?, List.append_assoc,
      List.append_assoc, List.drop_left, List.drop_left]
    exact ends
  · rw [offsetWithout_behind, append_spare, bracketEndAt?_append, bracketEndAt?_append,
      Option.map_map]
    exact congrArg (Option.map · _) (funext fun stop => (offsetWithout_behind front c stop).symm)

theorem getElem?_of_commentEndAt? {t : Text} {pos close : Nat}
    (found : commentEndAt? t pos = some close) : t[pos]? = some '/' := by
  rw [commentEndAt?] at found
  split at found
  · rename_i d cs ahead
    rw [commentEnd?.eq_def] at found
    split at found
    · rename_i slash
      rw [← List.head?_drop, ahead, slash]
      rfl
    · cases found
  · cases found

/-- A substitution starts and ends at the same places without the spare character. -/
theorem Spare.substitution (spare : Spare front c back) {pos close : Nat}
    (opens : slice (front ++ c :: back) pos (pos + 2) = ['$', '{'])
    (found : bracketEndAt? (front ++ c :: back) (pos + 1) = some close) :
    (pos < (front ++ c :: back).length ∧
        offsetWithout front.length (pos + 2) = offsetWithout front.length pos + 2 ∧
        (front ++ c :: back)[pos + 1]? = some '{') ∧
      slice (front ++ back) (offsetWithout front.length pos) (offsetWithout front.length pos + 2) =
        ['$', '{'] ∧
      bracketEndAt? (front ++ back) (offsetWithout front.length pos + 1) =
        some (offsetWithout front.length close) := by
  obtain ⟨cs, ahead⟩ := exists_drop_eq_substitution opens
  have dollar : (front ++ c :: back)[pos]? = some '$' := by
    rw [← List.head?_drop, ahead]
    rfl
  have brace : (front ++ c :: back)[pos + 1]? = some '{' := by
    rw [← List.head?_drop, drop_succ ahead]
    rfl
  have other := spare.ne dollar (by decide)
  have other' := spare.ne brace (by decide)
  refine ⟨⟨(List.getElem?_eq_some_iff.1 dollar).1, ?_, brace⟩,
    (spare.opens dollar other).2 opens, ?_⟩
  · rw [offsetWithout_next other', offsetWithout_next other]
  · rw [← offsetWithout_next other, spare.brace brace, found]
    rfl

/-! ## The scan -/

mutual

/-- A scan of code gets to the same place without the spare character. -/
theorem CodeAt.spare (spare : Spare front c back) : ∀ {stop pos : Nat},
    CodeAt (front ++ c :: back) stop pos → pos < (front ++ c :: back).length →
    CodeAt (front ++ back) (offsetWithout front.length stop) (offsetWithout front.length pos)
  | _, _, .start, _ => by
    have size : (front ++ c :: back).length = (front ++ back).length + 1 := by simp; omega
    rw [size, offsetWithout_succ (by simp), offsetWithout_of_le (Nat.zero_le _)]
    exact .start
  | _, _, @CodeAt.mark _ stop pos d here inside char quote comment, _ => by
    have before := here.spare spare (List.getElem?_eq_some_iff.1 char).1
    by_cases gone : pos = front.length
    · rw [gone, offsetWithout_succ (Nat.le_refl _)]
      rwa [gone, offsetWithout_of_le (Nat.le_refl _)] at before
    · rw [offsetWithout_next gone]
      refine .mark before (offsetWithout_lt gone inside) (spare.char char gone) quote ?_
      rw [spare.comment char gone, comment]
      rfl
  | _, _, @CodeAt.comment _ stop pos close here inside found, _ => by
    have char := getElem?_of_commentEndAt? found
    have before := here.spare spare (List.getElem?_eq_some_iff.1 char).1
    have other := spare.ne char (by decide)
    rw [offsetWithout_min]
    refine .comment before (offsetWithout_lt other inside) ?_
    rw [spare.comment char other, found]
    rfl
  | _, _, @CodeAt.literal _ stop pos d here inside char quote, _ => by
    have before := here.spare spare (List.getElem?_eq_some_iff.1 char).1
    have other := spare.ne char (not_isBlank_of_isQuote quote)
    rw [offsetWithout_min, ← spare.literal char quote]
    exact .literal before (offsetWithout_lt other inside) (spare.char char other) quote
  | _, _, @CodeAt.substitution _ stop pos close here opens found inside, _ => by
    obtain ⟨start, opens', found'⟩ := spare.substitution opens found
    have before := here.spare spare start.1
    have last := (bracketEndAt?_behind .curly start.2.2 found).2.2
    have late : close = close - 1 + 1 := by
      have := bracketEndAt?_bounds found
      omega
    have ends : offsetWithout front.length (close - 1) = offsetWithout front.length close - 1 := by
      nth_rewrite 2 [late]
      rw [offsetWithout_next (spare.ne last (by decide)), Nat.add_sub_cancel]
    rw [ends, start.2.1]
    exact .substitution before opens' found' (offsetWithout_le inside)

/-- The scan gets to the same place of a template without the spare character. -/
theorem StaticAt.spare (spare : Spare front c back) : ∀ {stop pos : Nat},
    StaticAt (front ++ c :: back) stop pos → pos < (front ++ c :: back).length →
    StaticAt (front ++ back) (offsetWithout front.length stop) (offsetWithout front.length pos)
  | _, _, .opening here inside char, _ => by
    have before := here.spare spare (List.getElem?_eq_some_iff.1 char).1
    have other := spare.ne char (by decide)
    rw [offsetWithout_next other]
    exact .opening before (offsetWithout_lt other inside) (spare.char char other)
  | _, _, @StaticAt.char _ stop pos d here inside char escape quote static, _ => by
    have before := here.spare spare (List.getElem?_eq_some_iff.1 char).1
    by_cases gone : pos = front.length
    · rw [gone, offsetWithout_succ (Nat.le_refl _)]
      rwa [gone, offsetWithout_of_le (Nat.le_refl _)] at before
    · rw [offsetWithout_next gone]
      exact .char before (offsetWithout_lt gone inside) (spare.char char gone) escape quote
        fun opens => static ((spare.opens char gone).1 opens)
  | _, _, @StaticAt.escape _ stop pos here inside char, within => by
    have before := here.spare spare (List.getElem?_eq_some_iff.1 char).1
    have other := spare.ne char (by decide)
    have next : pos + 1 ≠ front.length := by
      obtain ⟨_, w, -, rfl, place, loose⟩ | ⟨_, _, -, rfl⟩ := spare.cases char other
      · -- the escaped character is not the spare one: that would be the last of the text
        rintro last
        obtain rfl : w = [] := List.length_eq_zero_iff.1 (by omega)
        obtain rfl := loose.eq_nil (by decide)
        rw [List.length_append, List.length_singleton] at within
        omega
      · rw [List.length_append]
        omega
    rw [offsetWithout_next next, offsetWithout_next other]
    refine .escape before ?_ (spare.char char other)
    rw [← offsetWithout_next other]
    exact offsetWithout_lt next inside
  | _, _, @StaticAt.substituted _ stop pos close here opens found inside, _ => by
    obtain ⟨start, opens', found'⟩ := spare.substitution opens found
    exact .substituted (here.spare spare start.1) opens' found' (offsetWithout_le inside)

end

end Spare

/-! ## Pieces of code -/

/-- The piece stands in the code of a text: the scan gets to its start, and the code ends behind
it. -/
def StandsIn (piece t : Text) : Prop :=
  ∃ front back stop, t = front ++ (piece ++ back) ∧ CodeAt t stop front.length ∧
    front.length + piece.length ≤ stop

/-- The piece stands in code between the two texts. -/
def StandsBetween (front piece back : Text) : Prop :=
  ∃ stop, CodeAt (front ++ (piece ++ back)) stop front.length ∧ front.length + piece.length ≤ stop

theorem standsIn_iff {piece t : Text} :
    StandsIn piece t ↔ ∃ front back, t = front ++ (piece ++ back) ∧
      StandsBetween front piece back := by
  constructor
  · rintro ⟨front, back, stop, rfl, here, fits⟩
    exact ⟨front, back, rfl, stop, here, fits⟩
  · rintro ⟨front, back, rfl, stop, here, fits⟩
    exact ⟨front, back, stop, rfl, here, fits⟩

namespace StandsBetween

variable {front piece back u v : Text} {c : Char}

/-- A piece stands in code without a spare character of the text, or of its own. -/
theorem spare {front' piece' back' : Text} (filled : piece ≠ []) (spare : Spare u c v)
    (whole : front ++ (piece ++ back) = u ++ c :: v) (whole' : front' ++ (piece' ++ back') = u ++ v)
    (first : offsetWithout u.length front.length = front'.length)
    (last : offsetWithout u.length (front.length + piece.length) = front'.length + piece'.length)
    (h : StandsBetween front piece back) : StandsBetween front' piece' back' := by
  obtain ⟨stop, here, fits⟩ := h
  have inside : front.length < (front ++ (piece ++ back)).length := by
    have := List.length_pos_iff.2 filled
    rw [List.length_append, List.length_append]
    omega
  rw [whole] at here inside
  refine ⟨offsetWithout u.length stop, ?_, ?_⟩
  · rw [whole', ← first]
    exact here.spare spare inside
  · rw [← last]
    exact offsetWithout_le fits

/-- Blanks at the start of the text do not matter. -/
theorem drop_start (filled : piece ≠ []) : ∀ {gap : Text}, isBlankText gap →
    StandsBetween (gap ++ front) piece back → StandsBetween front piece back
  | [], _, h => h
  | c :: gap, blank, h => by
    rw [isBlankText, List.all_cons, Bool.and_eq_true] at blank
    have gone : Spare [] c (gap ++ front ++ (piece ++ back)) := ⟨blank.1, .inl rfl⟩
    refine drop_start filled blank.2 (h.spare filled gone rfl rfl ?_ ?_)
    · exact offsetWithout_succ (Nat.zero_le _)
    · rw [List.cons_append, List.length_cons, Nat.add_right_comm]
      exact offsetWithout_succ (Nat.zero_le _)

/-- Blanks at the end of the text do not matter. -/
theorem drop_end (filled : piece ≠ []) {gap : Text} (blank : isBlankText gap)
    (h : StandsBetween front piece (back ++ gap)) : StandsBetween front piece back := by
  induction gap using List.reverseRecOn with
  | nil => rwa [List.append_nil] at h
  | append_singleton gap c ih =>
    rw [isBlankText, List.all_append, Bool.and_eq_true] at blank
    have last : isBlank c := by simpa using blank.2
    have gone : Spare (front ++ (piece ++ (back ++ gap))) c [] := ⟨last, .inr ⟨last, .inl rfl⟩⟩
    refine ih blank.1 (h.spare filled gone (by simp) (by simp) ?_ ?_)
    · exact offsetWithout_of_le (by simp)
    · exact offsetWithout_of_le (by simp)

end StandsBetween

/-! ## Less indentation -/

/-- A line other than the first loses a character of its indentation. -/
inductive Outdent : Text → Text → Prop where
  | line {front back : Text} {c : Char} (line : front.getLast? = some '\n') (indent : isIndent c) :
    Outdent (front ++ c :: back) (front ++ back)

theorem spare_of_line {c : Char} (indent : isIndent c) {u : Text} (line : u.getLast? = some '\n')
    (front back : Text) : Spare (front ++ u) c back := by
  have blank := isBlank_of_isIndent indent
  refine ⟨blank, .inr ⟨blank, .inr ⟨indent, ?_⟩⟩⟩
  rw [List.head?_reverse, List.getLast?_append, line, Option.some_or]

namespace StandsBetween

variable {front piece back : Text}

theorem outdent_front {front' : Text} (filled : piece ≠ []) (h : StandsBetween front piece back)
    (less : Relation.ReflTransGen Outdent front front') : StandsBetween front' piece back := by
  induction less with
  | refl => exact h
  | tail _ step ih =>
    obtain @⟨u, v, c, line, indent⟩ := step
    have gone := spare_of_line indent line [] (v ++ (piece ++ back))
    have size : (u ++ c :: v).length = (u ++ v).length + 1 := by
      simp only [List.length_append, List.length_cons]
      omega
    refine ih.spare filled gone (by simp) (by simp) ?_ ?_
    · rw [size]
      exact offsetWithout_succ (by simp)
    · rw [size, Nat.add_right_comm]
      exact offsetWithout_succ (by simp only [List.length_append, List.length_nil]; omega)

theorem outdent_piece {piece' : Text} (h : StandsBetween front piece back)
    (less : Relation.ReflTransGen Outdent piece piece') : StandsBetween front piece' back := by
  induction less with
  | refl => exact h
  | tail _ step ih =>
    obtain @⟨u, v, c, line, indent⟩ := step
    have gone := spare_of_line indent line front (v ++ back)
    have size : (u ++ c :: v).length = (u ++ v).length + 1 := by
      simp only [List.length_append, List.length_cons]
      omega
    refine ih.spare (by simp) gone (by simp) (by simp) ?_ ?_
    · exact offsetWithout_of_le (by simp)
    · rw [size, ← Nat.add_assoc]
      exact offsetWithout_succ (by simp)

theorem outdent_back {back' : Text} (filled : piece ≠ []) (h : StandsBetween front piece back)
    (less : Relation.ReflTransGen Outdent back back') : StandsBetween front piece back' := by
  induction less with
  | refl => exact h
  | tail _ step ih =>
    obtain @⟨u, v, c, line, indent⟩ := step
    have gone := spare_of_line indent line (front ++ piece) v
    refine ih.spare filled gone (by simp) (by simp) ?_ ?_
    · exact offsetWithout_of_le (by simp only [List.length_append]; omega)
    · exact offsetWithout_of_le (by simp)

end StandsBetween

/-- A line loses some of its indentation. -/
def Loses (line line' : Text) : Prop :=
  ∃ gap : Text, (∀ c ∈ gap, isIndent c) ∧ line = gap ++ line'

theorem outdent_gap {front : Text} (line : front.getLast? = some '\n') (back : Text) :
    ∀ {gap : Text}, (∀ c ∈ gap, isIndent c) →
      Relation.ReflTransGen Outdent (front ++ (gap ++ back)) (front ++ back)
  | [], _ => .refl
  | c :: gap, indents => by
    have rest := outdent_gap line back fun c hc => indents c (List.mem_cons_of_mem _ hc)
    exact .head (.line line (indents c List.mem_cons_self)) rest

theorem unlines_gap (gap line : Text) (later : List Text) :
    unlines ((gap ++ line) :: later) = gap ++ unlines (line :: later) :=
  unlines_append gap line later []

/-- The lines of a text other than the first lose some of their indentation. -/
theorem outdent_unlines : ∀ {later later' : List Text} (front first : Text),
    List.Forall₂ Loses later later' →
    Relation.ReflTransGen Outdent (front ++ unlines (first :: later))
      (front ++ unlines (first :: later'))
  | [], _, _, _, .nil => .refl
  | _ :: later, line :: later', front, first, .cons ⟨gap, indents, whole⟩ rest => by
    have moved : ∀ t : Text, front ++ (first ++ '\n' :: t) = (front ++ (first ++ ['\n'])) ++ t := by
      intro t
      simp
    have ends : (front ++ (first ++ ['\n'])).getLast? = some '\n' := by simp
    rw [whole, unlines_cons_cons, unlines_cons_cons, unlines_gap, moved (gap ++ _),
      moved (unlines (line :: later'))]
    exact (outdent_gap ends _ indents).trans (outdent_unlines _ line rest)

/-- The first line loses its indentation at the start of the text, and the others theirs. -/
theorem exists_outdent_of_loses : ∀ {ls ls' : List Text}, List.Forall₂ Loses ls ls' →
    ∃ gap rest : Text, (∀ c ∈ gap, isIndent c) ∧ unlines ls = gap ++ rest ∧
      Relation.ReflTransGen Outdent rest (unlines ls')
  | [], _, .nil => ⟨[], [], by simp, rfl, .refl⟩
  | _ :: later, line :: later', .cons ⟨gap, indents, whole⟩ rest => by
    refine ⟨gap, unlines (line :: later), indents, ?_, outdent_unlines [] line rest⟩
    rw [whole, unlines_gap]

/-! ## The block -/

section Block

variable {width : Nat}

theorem Fits.isIndent_take {line : Text} (fits : Fits isIndent width line)
    (filled : line.all isIndent = false) : ∀ c ∈ line.take width, isIndent c := by
  intro c hc
  have inner : line.take width <+: line.takeWhile isIndent :=
    List.prefix_of_prefix_length_le (List.take_prefix _ _) (List.takeWhile_prefix _)
      ((List.length_take_le _ _).trans (fits filled))
  exact List.mem_takeWhile_imp (inner.subset hc)

theorem Fits.loses {line : Text} (fits : Fits isIndent width line) :
    Loses line (shiftLine isIndent width [] line) := by
  cases filled : line.all isIndent with
  | true =>
    rw [shiftLine_skipped [] filled]
    exact ⟨line, List.all_eq_true.1 filled, (List.append_nil _).symm⟩
  | false =>
    rw [shiftLine_filled [] filled]
    exact ⟨line.take width, fits.isIndent_take filled, (List.take_append_drop width line).symm⟩

theorem outdent_moveLater {piece : Text}
    (fits : ∀ line ∈ (lines piece).drop 1, Fits isIndent width line) :
    Relation.ReflTransGen Outdent piece (moveLater (shiftLine isIndent width []) piece) := by
  obtain ⟨first, later, split⟩ := exists_lines_eq_cons piece
  rw [split] at fits
  have whole : piece = unlines (first :: later) := by rw [← split, unlines_lines]
  have less : List.Forall₂ Loses later (later.map (shiftLine isIndent width [])) := by
    rw [List.forall₂_map_right_iff, List.forall₂_same]
    exact fun line hl => (fits line hl).loses
  have moved := outdent_unlines [] first less
  rw [List.nil_append, List.nil_append, ← whole] at moved
  rwa [moveLater, split]

end Block

namespace StandsIn

variable {piece t : Text} (ticked : Ticked piece) (stands : StandsIn piece t)

include ticked stands

/-- What is taken off both ends of a text does not matter if it is blank. -/
theorem trimmed {p : Char → Bool} (tick : p '`' = false) (blank : ∀ {c}, p c → isBlank c) :
    StandsIn piece (dropEndWhile p (t.dropWhile p)) := by
  obtain ⟨front, back, rfl, between⟩ := standsIn_iff.1 stands
  rw [ticked.trim_around tick, standsIn_iff]
  refine ⟨_, _, rfl, ?_⟩
  have ends : back = dropEndWhile p back ++ (back.reverse.takeWhile p).reverse := by
    rw [dropEndWhile, ← List.reverse_append, List.takeWhile_append_dropWhile, List.reverse_reverse]
  rw [← List.takeWhile_append_dropWhile (p := p) (l := front), ends] at between
  refine (between.drop_start ticked.ne_nil ?_).drop_end ticked.ne_nil ?_
  · rw [isBlankText, List.all_eq_true]
    exact fun c hc => blank (List.mem_takeWhile_imp hc)
  · rw [isBlankText, List.all_reverse, List.all_eq_true]
    exact fun c hc => blank (List.mem_takeWhile_imp hc)

/-- A piece that stands in code stands in it with its later lines moved when the code loses its
margin. -/
theorem dedent :
    StandsIn (moveLater (shiftLine isIndent (margin t).length []) piece) (Recast.dedent t) := by
  obtain ⟨front, back, rfl, between⟩ := standsIn_iff.1 stands
  obtain ⟨above, before, split⟩ := exists_lines_eq_append front
  have fits := fits_margin (front ++ (piece ++ back))
  rw [dedent_eq, unlines_shiftLine (by decide) [] ticked split fits, standsIn_iff]
  refine ⟨_, _, rfl, ?_⟩
  generalize (margin (front ++ (piece ++ back))).length = width at fits ⊢
  -- the lines before the piece, and the part of its first line before it
  have less : List.Forall₂ Loses (above ++ [before])
      (above.map (shiftLine isIndent width []) ++ [[] ++ before.drop width]) := by
    have head : (piece ++ back).head? = some '`' := by
      rw [List.head?_append, ticked.head, Option.some_or]
    obtain ⟨first, rest, ahead⟩ := exists_lines_of_head head
    rw [lines_append split ahead] at fits
    refine List.rel_append ?_ (.cons ⟨before.take width, fun c hc => ?_, ?_⟩ .nil)
    · rw [List.forall₂_map_right_iff, List.forall₂_same]
      exact fun line hl => (fits line (List.mem_append_left _ hl)).loses
    · have line := fits (before ++ '`' :: first) (by simp)
      refine line.isIndent_take (by simp [isIndent]) c ?_
      rw [List.take_append]
      exact List.mem_append_left _ hc
    · exact (List.take_append_drop width before).symm
  obtain ⟨gap, rest, indents, start, outdents⟩ := exists_outdent_of_loses less
  have blank : isBlankText gap := by
    rw [isBlankText, List.all_eq_true]
    exact fun c hc => isBlank_of_isIndent (indents c hc)
  have whole : front = gap ++ rest := by rw [← start, ← split, unlines_lines]
  have inner : piece <:+: front ++ (piece ++ back) := ⟨front, back, List.append_assoc _ _ _⟩
  have end_ : back <:+: front ++ (piece ++ back) :=
    ⟨front ++ piece, [], by rw [List.append_nil, List.append_assoc]⟩
  rw [whole] at between
  have moved := (between.drop_start ticked.ne_nil blank).outdent_front ticked.ne_nil outdents
  have behind := moved.outdent_back ticked.ne_nil
    (outdent_moveLater fun _ later => Fits.later end_ fits later)
  exact behind.outdent_piece (outdent_moveLater fun _ later => Fits.later inner fits later)

/-- A piece between ticks that stands in code stands in its block, with its later lines moved. -/
theorem codeBlock : StandsIn (dedented t piece) (Recast.codeBlock t) := by
  have lineEnds : ∀ {c : Char}, (c == '\n') = true → isBlank c := by
    intro c same
    rw [beq_iff_eq.1 same]
    rfl
  have held : piece <:+: t := by
    obtain ⟨front, back, _, rfl, -⟩ := stands
    exact ⟨front, back, List.append_assoc _ _ _⟩
  have lined : StandsIn piece (trimLineEnds t) := stands.trimmed ticked (by decide) lineEnds
  exact (lined.dedent ticked).trimmed (ticked.infix_codeBlock held).1 (by decide) id

end StandsIn

end Recast
