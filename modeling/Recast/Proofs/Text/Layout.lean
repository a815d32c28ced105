import Recast.Proofs.Text.Lines

/-!
# Code in a new place

Code is moved line by line: `dedent` and `indent` both take a number of characters off each line,
put a pad in their place and empty the lines that hold nothing (`shiftLine`, `dedent_eq`,
`indent_eq`). The number is the size of the `margin`, which stands before every line that is not
emptied (`margin_isPrefix`).

A piece of the text that is framed by ticks keeps its first line and has the others moved
(`moveLater`): it is in the moved text as such a piece (`moveLater_isInfix`), and it is the piece
that it was just if no later line changes (`moveLater_eq_self`).
-/

namespace Recast

/-! ## Moving lines -/

/-- A line with `width` characters taken off and a pad in their place; a line of characters that do
not count becomes empty. -/
def shiftLine (skips : Char → Bool) (width : Nat) (pad line : Text) : Text :=
  if line.all skips then [] else pad ++ line.drop width

/-- A piece of a text with the lines behind its first one moved. -/
def moveLater (move : Text → Text) (piece : Text) : Text :=
  unlines ((lines piece).take 1 ++ ((lines piece).drop 1).map move)

/-- The indentation that all lines of a text share. -/
def margin (t : Text) : Text :=
  (sharedIndent ((lines t).map emptyIfIndent)).getD []

theorem dedent_eq (t : Text) :
    dedent t = unlines ((lines t).map (shiftLine isIndent (margin t).length [])) := by
  have emptied : ∀ (line : Text) (n : Nat), (emptyIfIndent line).drop n =
      shiftLine isIndent n [] line := by
    intro line n
    rw [emptyIfIndent, shiftLine]
    split
    · exact List.drop_nil
    · rfl
  rw [dedent, margin]
  split
  · rename_i none
    rw [none]
    exact congrArg unlines (List.map_congr_left fun line _ => emptied line 0)
  · rename_i shared some
    rw [some, List.map_map]
    exact congrArg unlines (List.map_congr_left fun line _ => emptied line shared.length)

theorem indent_eq (width : Nat) (t : Text) :
    indent width t = (lines t).map (shiftLine isBlank 0 (List.replicate width ' ')) :=
  rfl

/-! ## The margin -/

theorem commonStart_isPrefix : ∀ a b : Text, commonStart a b <+: a ∧ commonStart a b <+: b
  | [], _ => by simp [commonStart]
  | _ :: _, [] => by simp [commonStart]
  | a :: as, b :: bs => by
    obtain ⟨left, right⟩ := commonStart_isPrefix as bs
    rw [commonStart]
    split
    · rename_i same
      subst same
      exact ⟨List.cons_prefix_cons.2 ⟨rfl, left⟩, List.cons_prefix_cons.2 ⟨rfl, right⟩⟩
    · exact ⟨List.nil_prefix, List.nil_prefix⟩

/-- What lines share stands before each of them. -/
theorem exists_sharedIndent {line : Text} (filled : line ≠ []) : ∀ {ls : List Text}, line ∈ ls →
    ∃ shared, sharedIndent ls = some shared ∧ shared <+: line.takeWhile isIndent
  | first :: rest, h => by
    rw [sharedIndent]
    by_cases empty : first = []
    · have later : line ∈ rest :=
        (List.mem_cons.1 h).resolve_left fun same => filled (same.trans empty)
      rw [empty]
      exact exists_sharedIndent filled later
    · rw [if_neg (by simpa using empty)]
      rcases List.mem_cons.1 h with rfl | later
      · cases sharedIndent rest with
        | none => exact ⟨_, rfl, List.prefix_rfl⟩
        | some shared => exact ⟨_, rfl, (commonStart_isPrefix _ _).1⟩
      · obtain ⟨shared, found, before⟩ := exists_sharedIndent filled later
        rw [found]
        exact ⟨_, rfl, (commonStart_isPrefix _ _).2.trans before⟩

/-- The margin stands before every line that holds more than indentation. -/
theorem margin_isPrefix {t line : Text} (h : line ∈ lines t) (filled : line.all isIndent = false) :
    margin t <+: line.takeWhile isIndent := by
  have kept : emptyIfIndent line = line := by rw [emptyIfIndent, if_neg (by simp [filled])]
  have member : line ∈ (lines t).map emptyIfIndent := List.mem_map.2 ⟨line, h, kept⟩
  have nonempty : line ≠ [] := by
    rintro rfl
    cases filled
  obtain ⟨shared, found, before⟩ := exists_sharedIndent nonempty member
  rw [margin, found]
  exact before

/-! ## A piece between ticks -/

/-- A piece that starts and ends with a tick. -/
structure Ticked (piece : Text) : Prop where
  head : piece.head? = some '`'
  last : piece.getLast? = some '`'

theorem Ticked.ne_nil {piece : Text} (ticked : Ticked piece) : piece ≠ [] := by
  rintro rfl
  cases ticked.head

theorem exists_lines_of_head {piece : Text} (head : piece.head? = some '`') :
    ∃ first rest, lines piece = ('`' :: first) :: rest := by
  obtain ⟨inner, rfl⟩ := List.head?_eq_some_iff.1 head
  obtain ⟨first, rest, h⟩ := exists_lines_eq_cons inner
  have plain : '\n' ∉ ['`'] := by decide
  exact ⟨first, rest, splitOn_append_first h plain⟩

theorem exists_lines_of_last {piece : Text} (last : piece.getLast? = some '`') :
    ∃ front line, lines piece = front ++ [line ++ ['`']] := by
  obtain ⟨inner, rfl⟩ := List.getLast?_eq_some_iff.1 last
  obtain ⟨front, line, h⟩ := exists_lines_eq_append inner
  exact ⟨front, line, splitOn_append_last (by decide) h⟩

section Pieces

variable {skips : Char → Bool} {width : Nat}

/-- A line has room for what is taken off it. -/
def Fits (skips : Char → Bool) (width : Nat) (line : Text) : Prop :=
  line.all skips = false → width ≤ (line.takeWhile skips).length

theorem takeWhile_append_of_filled {line : Text} (filled : line.all skips = false) (more : Text) :
    (line ++ more).takeWhile skips = line.takeWhile skips := by
  rw [List.takeWhile_append, if_neg]
  intro whole
  have same := (List.takeWhile_prefix skips).eq_of_length whole
  rw [List.all_eq_true.2 (List.takeWhile_eq_self_iff.1 same)] at filled
  cases filled

theorem shiftLine_filled {line : Text} (pad : Text) (filled : line.all skips = false) :
    shiftLine skips width pad line = pad ++ line.drop width := by
  rw [shiftLine, if_neg (by simp [filled])]

theorem shiftLine_skipped {line : Text} (pad : Text) (skipped : line.all skips = true) :
    shiftLine skips width pad line = [] := by
  rw [shiftLine, if_pos skipped]

/-- What is taken off a line stands before a tick in it. -/
theorem shiftLine_append_tick (tick : skips '`' = false) (pad : Text) {before after : Text}
    (fits : Fits skips width (before ++ '`' :: after)) :
    shiftLine skips width pad (before ++ '`' :: after) =
      (pad ++ before.drop width) ++ '`' :: after := by
  have filled : (before ++ '`' :: after).all skips = false := by simp [tick]
  have room : width ≤ before.length := by
    refine (fits filled).trans ?_
    rw [List.takeWhile_append, List.takeWhile_cons_of_neg (by simp [tick]), List.append_nil]
    split
    · exact Nat.le_refl _
    · exact (List.takeWhile_prefix skips).length_le
  rw [shiftLine_filled pad filled, List.drop_append_of_le_length room, List.append_assoc]

theorem shiftLine_append {line : Text} (filled : line.all skips = false) (pad : Text) {more : Text}
    (fits : Fits skips width (line ++ more)) :
    shiftLine skips width pad (line ++ more) = shiftLine skips width pad line ++ more := by
  have longer : (line ++ more).all skips = false := by simp [filled]
  have room : width ≤ line.length := by
    refine (fits longer).trans ?_
    rw [takeWhile_append_of_filled filled]
    exact (List.takeWhile_prefix skips).length_le
  rw [shiftLine_filled pad longer, shiftLine_filled pad filled, List.drop_append_of_le_length room,
    List.append_assoc]

/-- The text behind a piece that ends with a tick only makes its last line longer. -/
theorem moveLater_append (tick : skips '`' = false) (pad : Text) {piece : Text}
    (last : piece.getLast? = some '`') (back : Text)
    (fits : ∀ line ∈ (lines (piece ++ back)).drop 1, Fits skips width line) :
    moveLater (shiftLine skips width pad) (piece ++ back) =
      moveLater (shiftLine skips width pad) piece ++
        moveLater (shiftLine skips width pad) back := by
  obtain ⟨front, line, split⟩ := exists_lines_of_last last
  obtain ⟨first, rest, behind⟩ := exists_lines_eq_cons back
  have both := lines_append split behind
  have filled : (line ++ ['`']).all skips = false := by simp [tick]
  rw [both] at fits
  rw [moveLater, moveLater, moveLater, both, split, behind]
  cases front with
  | nil => exact unlines_append (line ++ ['`']) first (rest.map (shiftLine skips width pad)) []
  | cons head front =>
    have moved := shiftLine_append filled pad (fits (line ++ ['`'] ++ first) (by simp))
    have joined := unlines_append (shiftLine skips width pad (line ++ ['`'])) first
      (rest.map (shiftLine skips width pad)) (head :: front.map (shiftLine skips width pad))
    rw [← moved] at joined
    simpa using joined

/-- The lines of a text, moved, around a piece between ticks: the piece has its later lines moved,
and so has the text behind it. -/
theorem unlines_shiftLine (tick : skips '`' = false) (pad : Text) {front piece back before : Text}
    {above : List Text} (ticked : Ticked piece) (split : lines front = above ++ [before])
    (fits : ∀ line ∈ lines (front ++ (piece ++ back)), Fits skips width line) :
    unlines ((lines (front ++ (piece ++ back))).map (shiftLine skips width pad)) =
      unlines (above.map (shiftLine skips width pad) ++ [pad ++ before.drop width]) ++
        (moveLater (shiftLine skips width pad) piece ++
          moveLater (shiftLine skips width pad) back) := by
  have head : (piece ++ back).head? = some '`' := by
    rw [List.head?_append, ticked.head, Option.some_or]
  obtain ⟨first, rest, ahead⟩ := exists_lines_of_head head
  have both := lines_append split ahead
  rw [both] at fits ⊢
  have opening := shiftLine_append_tick tick pad (fits (before ++ '`' :: first) (by simp))
  have later := moveLater_append tick pad ticked.last back fun line hl =>
    fits line (by rw [ahead] at hl; exact List.mem_append_right _ (List.mem_cons_of_mem _ hl))
  rw [moveLater, ahead] at later
  rw [List.map_append, List.map_cons, opening, unlines_append, ← later]
  rfl

/-- A piece between ticks is in the moved text with its later lines moved. -/
theorem moveLater_isInfix (tick : skips '`' = false) (pad : Text) {piece t : Text}
    (ticked : Ticked piece) (held : piece <:+: t) (fits : ∀ line ∈ lines t, Fits skips width line) :
    moveLater (shiftLine skips width pad) piece <:+:
      unlines ((lines t).map (shiftLine skips width pad)) := by
  obtain ⟨front, back, rfl⟩ := held
  rw [List.append_assoc] at fits ⊢
  obtain ⟨above, before, split⟩ := exists_lines_eq_append front
  rw [unlines_shiftLine tick pad ticked split fits]
  exact ⟨_, _, List.append_assoc _ _ _⟩

/-- A later line of a piece starts a line of the text. -/
theorem exists_mem_lines_of_later {piece t line : Text} (held : piece <:+: t)
    (later : line ∈ (lines piece).drop 1) : ∃ more, line ++ more ∈ lines t := by
  obtain ⟨before, back, rfl⟩ := held
  obtain ⟨front, last, split⟩ := exists_lines_eq_append piece
  obtain ⟨first, rest, behind⟩ := exists_lines_eq_cons back
  obtain ⟨above, start, top⟩ := exists_lines_eq_append before
  rw [split] at later
  cases front with
  | nil => cases later
  | cons head front =>
    have both := lines_append top (lines_append split behind)
    rw [List.append_assoc, both]
    rcases List.mem_append.1 later with inner | final
    · exact ⟨[], by simp [inner]⟩
    · obtain rfl := List.mem_singleton.1 final
      exact ⟨first, by simp⟩

theorem Fits.later {piece t line : Text} (held : piece <:+: t)
    (fits : ∀ line ∈ lines t, Fits skips width line)
    (later : line ∈ (lines piece).drop 1) : Fits skips width line := by
  intro filled
  obtain ⟨more, member⟩ := exists_mem_lines_of_later held later
  have longer := fits _ member (by simp [filled])
  rwa [takeWhile_append_of_filled filled] at longer

theorem Ticked.moveLater (tick : skips '`' = false) (pad : Text) {piece : Text}
    (ticked : Ticked piece) (fits : ∀ line ∈ (lines piece).drop 1, Fits skips width line) :
    Ticked (moveLater (shiftLine skips width pad) piece) := by
  constructor
  · obtain ⟨first, rest, split⟩ := exists_lines_of_head ticked.head
    have whole := unlines_append ['`'] first (rest.map (shiftLine skips width pad)) []
    rw [Recast.moveLater, split]
    exact List.head?_eq_some_iff.2 ⟨_, whole⟩
  · obtain ⟨front, line, split⟩ := exists_lines_of_last ticked.last
    rw [split] at fits
    rw [Recast.moveLater, split, List.getLast?_eq_some_iff]
    cases front with
    | nil => exact ⟨_, unlines_append line ['`'] [] []⟩
    | cons head front =>
      have closing := shiftLine_append_tick tick pad (fits (line ++ ['`']) (by simp))
      have whole := unlines_append (pad ++ line.drop width) ['`'] []
        (head :: front.map (shiftLine skips width pad))
      rw [← closing] at whole
      refine ⟨_, Eq.trans ?_ whole⟩
      simp

end Pieces

/-! ## Code blocks -/

/-- What is taken off both ends of a text does not reach a piece between ticks. -/
theorem Ticked.trim_around {p : Char → Bool} (tick : p '`' = false) {piece : Text}
    (ticked : Ticked piece) (front back : Text) :
    dropEndWhile p ((front ++ (piece ++ back)).dropWhile p) =
      front.dropWhile p ++ (piece ++ dropEndWhile p back) := by
  have first : ∀ c, (piece ++ back).head? = some c → p c = false := by
    intro c hc
    rw [List.head?_append, ticked.head, Option.some_or, Option.some.injEq] at hc
    rwa [← hc]
  have last : ∀ c, (front.dropWhile p ++ piece).reverse.head? = some c → p c = false := by
    intro c hc
    rw [List.head?_reverse, List.getLast?_append, ticked.last, Option.some_or,
      Option.some.injEq] at hc
    rwa [← hc]
  rw [dropWhile_append_of_head first, ← List.append_assoc, dropEndWhile, List.reverse_append,
    dropWhile_append_of_head last, List.reverse_append, List.reverse_reverse, List.append_assoc]
  rfl

theorem Ticked.infix_trimmed {p : Char → Bool} (tick : p '`' = false) {piece t : Text}
    (ticked : Ticked piece) (held : piece <:+: t) : piece <:+: dropEndWhile p (t.dropWhile p) := by
  obtain ⟨front, back, rfl⟩ := held
  rw [List.append_assoc, ticked.trim_around tick]
  exact ⟨_, _, List.append_assoc _ _ _⟩

theorem Ticked.infix_trimLineEnds {piece t : Text} (ticked : Ticked piece) (held : piece <:+: t) :
    piece <:+: trimLineEnds t :=
  ticked.infix_trimmed (by decide) held

theorem Ticked.infix_trim {piece t : Text} (ticked : Ticked piece) (held : piece <:+: t) :
    piece <:+: trim t :=
  ticked.infix_trimmed (by decide) held

theorem fits_margin (t : Text) : ∀ line ∈ lines t, Fits isIndent (margin t).length line :=
  fun _ member filled => (margin_isPrefix member filled).length_le

/-- A piece of code between ticks in its block: the lines behind its first one have lost the margin
of the block. -/
def dedented (code piece : Text) : Text :=
  moveLater (shiftLine isIndent (margin (trimLineEnds code)).length []) piece

/-- A piece of code between ticks is in its block without the margin. -/
theorem Ticked.infix_codeBlock {piece code : Text} (ticked : Ticked piece)
    (held : piece <:+: code) :
    Ticked (dedented code piece) ∧ dedented code piece <:+: codeBlock code := by
  have inner := ticked.infix_trimLineEnds held
  have fits := fits_margin (trimLineEnds code)
  have framed : Ticked (dedented code piece) :=
    ticked.moveLater (by decide) [] fun _ later => Fits.later inner fits later
  refine ⟨framed, framed.infix_trim ?_⟩
  rw [dedent_eq]
  exact moveLater_isInfix (by decide) [] ticked inner fits

/-! ## Pieces that stay as they are -/

theorem not_mem_shiftLine {skips : Char → Bool} {width : Nat} {pad line : Text} (plain : '\n' ∉ pad)
    (h : '\n' ∉ line) : '\n' ∉ shiftLine skips width pad line := by
  rw [shiftLine]
  split
  · exact List.not_mem_nil
  · rw [List.mem_append]
    rintro (hp | hd)
    · exact plain hp
    · exact h (List.mem_of_mem_drop hd)

/-- The lines of a moved piece are its lines, moved. -/
theorem lines_moveLater {move : Text → Text} (plain : ∀ line, '\n' ∉ line → '\n' ∉ move line)
    (piece : Text) :
    lines (moveLater move piece) = (lines piece).take 1 ++ ((lines piece).drop 1).map move := by
  obtain ⟨first, rest, split⟩ := exists_lines_eq_cons piece
  have free : ∀ line ∈ first :: rest, '\n' ∉ line :=
    fun line hl => not_mem_of_mem_splitOn (split ▸ hl)
  rw [moveLater, split, lines_unlines (by simp)]
  refine flatMap_lines fun line hl => ?_
  rcases List.mem_cons.1 hl with rfl | hl
  · exact free _ List.mem_cons_self
  · obtain ⟨origin, ho, rfl⟩ := List.mem_map.1 hl
    exact plain origin (free origin (List.mem_cons_of_mem _ ho))

theorem moveLater_moveLater {move again : Text → Text}
    (plain : ∀ line, '\n' ∉ line → '\n' ∉ move line) (piece : Text) :
    moveLater again (moveLater move piece) = moveLater (again ∘ move) piece := by
  obtain ⟨first, rest, split⟩ := exists_lines_eq_cons piece
  rw [moveLater, lines_moveLater plain, split, moveLater, split]
  simp

/-- A moved piece is the piece that it was just if no later line changes. -/
theorem moveLater_eq_self {move : Text → Text} (plain : ∀ line, '\n' ∉ line → '\n' ∉ move line)
    {piece : Text} :
    moveLater move piece = piece ↔ ∀ line ∈ (lines piece).drop 1, move line = line := by
  obtain ⟨first, rest, split⟩ := exists_lines_eq_cons piece
  have same : moveLater move piece = piece ↔ rest.map move = rest := by
    constructor
    · intro h
      have moved := lines_moveLater plain piece
      rw [h, split] at moved
      exact (List.cons.inj moved).2.symm
    · intro h
      calc moveLater move piece = unlines (first :: rest.map move) := by rw [moveLater, split]; rfl
        _ = unlines (lines piece) := by rw [h, split]
        _ = piece := unlines_lines piece
  have unmoved : rest.map move = rest.map id ↔ ∀ line ∈ rest, move line = id line :=
    List.map_inj_left
  rw [List.map_id] at unmoved
  rw [same, split]
  exact unmoved

theorem isBlank_of_isIndent {c : Char} (h : isIndent c) : isBlank c := by
  rw [isIndent, Bool.or_eq_true, beq_iff_eq, beq_iff_eq] at h
  rcases h with rfl | rfl <;> decide

/-- A line that loses the margin and gets a pad is the line that it was just if it is empty, or not
blank and the pad is the margin. -/
theorem shiftLine_shiftLine_eq_self {edge pad line : Text}
    (before : line.all isIndent = false → edge <+: line.takeWhile isIndent) :
    shiftLine isBlank 0 pad (shiftLine isIndent edge.length [] line) = line ↔
      line = [] ∨ isBlankText line = false ∧ edge = pad := by
  cases filled : line.all isIndent with
  | true =>
    have blank : isBlankText line = true := by
      rw [isBlankText, List.all_eq_true]
      exact fun c hc => isBlank_of_isIndent (List.all_eq_true.1 filled c hc)
    rw [shiftLine_skipped [] filled, shiftLine_skipped pad rfl, blank]
    simp [eq_comm]
  | false =>
    obtain ⟨rest, rfl⟩ := (before filled).trans (List.takeWhile_prefix isIndent)
    have taken : shiftLine isIndent edge.length [] (edge ++ rest) = rest := by
      rw [shiftLine_filled [] filled, List.nil_append, List.drop_left]
    have indentation : isBlankText edge = true := by
      rw [isBlankText, List.all_eq_true]
      intro c hc
      exact isBlank_of_isIndent (List.mem_takeWhile_imp ((before filled).subset hc))
    have nonempty : edge ++ rest ≠ [] := by
      intro empty
      rw [empty] at filled
      cases filled
    have same : isBlankText (edge ++ rest) = isBlankText rest := by
      rw [isBlankText, List.all_append, show edge.all isBlank = true from indentation,
        Bool.true_and]
      rfl
    rw [taken, same]
    cases blank : isBlankText rest with
    | true =>
      rw [shiftLine_skipped pad blank]
      simp [nonempty, eq_comm]
    | false =>
      rw [shiftLine_filled pad blank, List.drop_zero, List.append_left_inj]
      simpa [nonempty] using eq_comm

end Recast
