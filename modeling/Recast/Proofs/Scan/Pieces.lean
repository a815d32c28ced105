import Recast.Proofs.Markup.MappedReceiver
import Recast.Proofs.Scan.Tiling
import Recast.Proofs.Scan.Truncation

/-!
# Pieces between separators

Splitting at the top level cuts a text at the separators outside literals and brackets. The first
piece ends at the first such separator (`pieceEnd`), and what follows the separator is split as a
text of its own (`splitTopLevel_more`), so what holds of all pieces is proved by induction over
`IsSplit`. The pieces are all of the text but blanks and separators (`IsSplit.spaced`). A piece that
is cut out and trimmed is scanned as it was in the text, whether or not its literals and brackets
are closed, so it is a piece by itself (`splitTopLevel_trim`). And entries whose literals and
brackets are complete come back from the list that they are joined to (`splitTopLevel_joinComma`).
-/

namespace Recast

/-! ## Literals and brackets -/

/-- The end of the literal or the bracket that starts with the character `c` at `pos`. -/
def atomEnd? (pos : Nat) (c : Char) (cs : Text) : Option Nat :=
  if isQuote c then some (literalEnd c (pos + 1) 0 cs) else nestedEnd? pos c cs

theorem atomEnd?_eq_none {c : Char} (quote : isQuote c = false) (opener : isOpener c = false)
    (pos : Nat) (cs : Text) : atomEnd? pos c cs = none := by
  rw [atomEnd?, quote, nestedEnd?, ofOpener?_eq_none opener]
  rfl

theorem not_atom_of_isBlank {c : Char} (blank : isBlank c) :
    isQuote c = false ∧ isOpener c = false := by
  obtain ⟨code, opener, -⟩ := isPlainMark_iff.1 (isQuiet_of_isBlank blank).1
  simp only [isPlainCode, Bool.and_eq_true, Bool.not_eq_true'] at code
  exact ⟨code.1.1, opener⟩

theorem atomEnd?_shift (n pos : Nat) (c : Char) (cs : Text) :
    atomEnd? (pos + n) c cs = (atomEnd? pos c cs).map (· + n) := by
  unfold atomEnd?
  split
  · rw [Nat.add_right_comm, literalEnd_shift n c cs (Aligned.none n (pos + 1)), Option.map_some]
  · unfold nestedEnd?
    cases Bracket.ofOpener? c with
    | none => rfl
    | some kind =>
      simp only [Option.map_some]
      rw [Nat.add_right_comm, bracketEnd_shift n kind cs (Aligned.none n (pos + 1))]
      cases bracketEnd kind 0 [c] (pos + 1) 0 cs with
      | none => simp only [Option.map_none, Option.getD_none, Nat.add_right_comm]
      | some stop => rfl

/-- A literal or a bracket that is cut off goes to the cut. -/
theorem atomEnd?_cut (x : Text) (pos : Nat) (c : Char) {w : Text} (code : '<' ∉ w) :
    atomEnd? pos c w = (atomEnd? pos c (w ++ x)).map (min · (pos + 1 + w.length)) := by
  unfold atomEnd?
  split
  · rw [literalEnd_cut x c w (pos + 1) 0 code, Option.map_some]
  · unfold nestedEnd?
    cases Bracket.ofOpener? c with
    | none => rfl
    | some kind =>
      simp only [Option.map_some]
      rw [bracketEnd_cut x kind w 0 [c] (pos + 1) 0 code]
      cases bracketEnd kind 0 [c] (pos + 1) 0 (w ++ x) with
      | none =>
        rw [Option.filter_none, Option.getD_none, Option.getD_none, List.length_append,
          Nat.min_eq_right (by omega)]
      | some stop =>
        by_cases inside : stop ≤ pos + 1 + w.length
        · rw [Option.filter_some_pos (by simpa using inside), Option.getD_some, Option.getD_some,
            Nat.min_eq_left inside]
        · rw [Option.filter_some_neg (by simpa using inside), Option.getD_none, Option.getD_some,
            Nat.min_eq_right (by omega)]

/-! ## The first piece -/

section Piece

variable {isSeparator : Char → Bool}

/-- The end of the piece that goes on at `pos`. -/
def pieceEnd (isSeparator : Char → Bool) (pos resume : Nat) : Text → Nat
  | [] => pos
  | c :: cs =>
    if pos < resume then pieceEnd isSeparator (pos + 1) resume cs
    else
      match atomEnd? pos c cs with
      | some stop => pieceEnd isSeparator (pos + 1) stop cs
      | none => if isSeparator c then pos else pieceEnd isSeparator (pos + 1) resume cs

theorem pieceSpans_cons (start pos resume : Nat) (c : Char) (cs : Text) :
    pieceSpans isSeparator start pos resume (c :: cs) =
      if pos < resume then pieceSpans isSeparator start (pos + 1) resume cs
      else
        match atomEnd? pos c cs with
        | some stop => pieceSpans isSeparator start (pos + 1) stop cs
        | none =>
          if isSeparator c then ⟨start, pos⟩ :: pieceSpans isSeparator (pos + 1) (pos + 1) resume cs
          else pieceSpans isSeparator start (pos + 1) resume cs := by
  rw [pieceSpans, atomEnd?]
  split
  · rfl
  · split <;> rfl

/-- The spans of a text from `pos` on, if its first piece starts at `start` and ends at `stop`: the
text ends there as well, or a separator stands there, and the other spans are those behind it. -/
inductive FirstPiece (isSeparator : Char → Bool) (start pos : Nat) :
    Text → Nat → List Span → Prop where
  | last (body : Text) :
    FirstPiece isSeparator start pos body (pos + body.length) [⟨start, pos + body.length⟩]
  | more (body : Text) {c : Char} (separates : isSeparator c) (after : Text) :
    FirstPiece isSeparator start pos (body ++ c :: after) (pos + body.length)
      (⟨start, pos + body.length⟩ :: pieceSpans isSeparator (pos + body.length + 1)
        (pos + body.length + 1) 0 after)

theorem FirstPiece.cons {start pos stop : Nat} {t : Text} {spans : List Span}
    (h : FirstPiece isSeparator start (pos + 1) t stop spans) (c : Char) :
    FirstPiece isSeparator start pos (c :: t) stop spans := by
  have length (body : Text) : pos + 1 + body.length = pos + (c :: body).length := by
    rw [List.length_cons]
    omega
  cases h with
  | last =>
    rw [length]
    exact .last (c :: t)
  | more body separates after =>
    rw [length]
    exact .more (c :: body) separates after

theorem firstPiece (start : Nat) : ∀ (t : Text) (pos resume : Nat),
    FirstPiece isSeparator start pos t (pieceEnd isSeparator pos resume t)
      (pieceSpans isSeparator start pos resume t)
  | [], _, _ => .last []
  | c :: cs, pos, resume => by
    have next (resume : Nat) := (firstPiece start cs (pos + 1) resume).cons c
    rw [pieceEnd, pieceSpans_cons]
    split
    · exact next resume
    · cases atomEnd? pos c cs with
      | some stop => exact next stop
      | none =>
        dsimp only
        split
        · rename_i separates
          rw [pieceSpans_of_le (pos + 1) cs (by omega)]
          exact .more [] separates cs
        · exact next resume

theorem FirstPiece.head?_eq {start pos stop : Nat} {t : Text} {spans : List Span}
    (h : FirstPiece isSeparator start pos t stop spans) : spans.head? = some ⟨start, stop⟩ := by
  cases h <;> rfl

theorem FirstPiece.le {start pos stop : Nat} {t : Text} {spans : List Span}
    (h : FirstPiece isSeparator start pos t stop spans) : pos ≤ stop := by
  cases h <;> exact Nat.le_add_right _ _

/-! ## Another offset, and a cut text -/

/-- The span that stands `n` further. -/
def Span.shift (n : Nat) (span : Span) : Span :=
  ⟨span.start + n, span.stop + n⟩

theorem pieceSpans_shift (n : Nat) (t : Text) {start pos resume resume' : Nat}
    (aligned : Aligned n pos resume resume') :
    pieceSpans isSeparator (start + n) (pos + n) resume' t =
      (pieceSpans isSeparator start pos resume t).map (Span.shift n) := by
  induction t generalizing start pos resume resume' with
  | nil => rfl
  | cons c cs ih =>
    have next {start resume resume' : Nat} (h : Aligned n (pos + 1) resume resume') :
        pieceSpans isSeparator (start + n) (pos + n + 1) resume' cs =
          (pieceSpans isSeparator start (pos + 1) resume cs).map (Span.shift n) := by
      rw [Nat.add_right_comm]
      exact ih h
    rw [pieceSpans_cons, pieceSpans_cons, atomEnd?_shift]
    by_cases passed : pos < resume
    · rw [if_pos passed, if_pos (aligned.lt_iff.2 passed)]
      exact next aligned.succ
    · rw [if_neg passed, if_neg fun passed' => passed (aligned.lt_iff.1 passed')]
      cases atomEnd? pos c cs with
      | some stop => exact next (Aligned.shift n (pos + 1) stop)
      | none =>
        dsimp only [Option.map_none]
        split
        · rw [List.map_cons, ← next aligned.succ, Nat.add_right_comm]
          rfl
        · exact next aligned.succ

theorem pieceEnd_shift (n pos : Nat) (t : Text) :
    pieceEnd isSeparator (pos + n) 0 t = pieceEnd isSeparator pos 0 t + n := by
  have moved : pieceSpans isSeparator (0 + n) (pos + n) 0 t = _ :=
    pieceSpans_shift n t (Aligned.none n pos)
  have first := congrArg List.head? moved
  rw [List.head?_map, (firstPiece _ t _ 0).head?_eq, (firstPiece _ t _ 0).head?_eq] at first
  exact congrArg Span.stop (Option.some.inj first)

theorem pieceEnd_skip (rest t : Text) (pos : Nat) :
    pieceEnd isSeparator pos (pos + t.length) (t ++ rest) =
      pieceEnd isSeparator (pos + t.length) 0 rest := by
  have first := congrArg List.head? (pieceSpans_skip isSeparator 0 rest t pos)
  rw [(firstPiece _ _ _ _).head?_eq, (firstPiece _ _ _ _).head?_eq] at first
  exact congrArg Span.stop (Option.some.inj first)

theorem pieceEnd_capped (stop : Nat) : ∀ (t : Text) (pos : Nat),
    pieceEnd isSeparator pos (min stop (pos + t.length)) t = pieceEnd isSeparator pos stop t
  | [], _ => rfl
  | c :: cs, pos => by
    by_cases passed : pos < stop
    · have ih := pieceEnd_capped stop cs (pos + 1)
      rw [Nat.add_right_comm, Nat.add_assoc] at ih
      rw [pieceEnd, pieceEnd, if_pos passed, if_pos (by simp; omega)]
      exact ih
    · rw [Nat.min_eq_left (by omega)]

/-- A piece that is cut off goes to the cut. -/
theorem pieceEnd_cut (x w : Text) (pos resume : Nat) (code : '<' ∉ w) :
    pieceEnd isSeparator pos resume w =
      min (pieceEnd isSeparator pos resume (w ++ x)) (pos + w.length) := by
  induction w generalizing pos resume with
  | nil => exact (Nat.min_eq_right (firstPiece 0 x pos resume).le).symm
  | cons c cs ih =>
    have rest : '<' ∉ cs := fun mem => code (List.mem_cons_of_mem _ mem)
    have next (resume : Nat) : pieceEnd isSeparator (pos + 1) resume cs =
        min (pieceEnd isSeparator (pos + 1) resume (cs ++ x)) (pos + (c :: cs).length) := by
      rw [ih (pos + 1) resume rest, List.length_cons, Nat.add_comm cs.length, Nat.add_assoc]
    rw [List.cons_append, pieceEnd, pieceEnd, atomEnd?_cut x pos c rest]
    split
    · exact next resume
    · cases atomEnd? pos c (cs ++ x) with
      | some stop =>
        dsimp only [Option.map_some]
        rw [pieceEnd_capped]
        exact next stop
      | none =>
        dsimp only [Option.map_none]
        split
        · exact (Nat.min_eq_left (Nat.le_add_right _ _)).symm
        · exact next resume

/-- A piece that goes to the end of its text does so from behind its first blanks. -/
theorem pieceEnd_blanks {t : Text} : ∀ {blanks : Text} {pos : Nat}, isBlankText blanks →
    pieceEnd isSeparator pos 0 (blanks ++ t) = pos + (blanks ++ t).length →
      pieceEnd isSeparator (pos + blanks.length) 0 t = pos + blanks.length + t.length
  | [], _, _, whole => whole
  | c :: cs, pos, blank, whole => by
    rw [isBlankText, List.all_cons, Bool.and_eq_true] at blank
    obtain ⟨quote, opener⟩ := not_atom_of_isBlank blank.1
    have length (t : Text) : pos + (c :: t).length = pos + 1 + t.length := by
      rw [List.length_cons]
      omega
    rw [List.cons_append, pieceEnd, if_neg (Nat.not_lt_zero _), atomEnd?_eq_none quote opener,
      length] at whole
    dsimp only at whole
    rw [length]
    split at whole
    · omega
    · exact pieceEnd_blanks blank.2 whole

/-! ## All pieces -/

/-- The trimmed text, if it is not blank. -/
def trimmedPiece (t : Text) : List Text :=
  [trim t].filter (!·.isEmpty)

theorem mem_trimmedPiece {t piece : Text} :
    piece ∈ trimmedPiece t ↔ piece = trim t ∧ piece ≠ [] := by
  simp [trimmedPiece]

/-- The pieces of a text, with the scans that find them: the last piece goes to the end of its text,
and another one up to the separator behind it. -/
inductive IsSplit (isSeparator : Char → Bool) : Text → List Text → Prop where
  | last {body : Text} (ends : pieceEnd isSeparator 0 0 body = body.length) :
    IsSplit isSeparator body (trimmedPiece body)
  | more {body : Text} {c : Char} {after : Text} {pieces : List Text}
    (ends : pieceEnd isSeparator 0 0 (body ++ c :: after) = body.length) (separates : isSeparator c)
    (rest : IsSplit isSeparator after pieces) :
    IsSplit isSeparator (body ++ c :: after) (trimmedPiece body ++ pieces)

theorem piecesOf_cons (t : Text) (span : Span) (spans : List Span) :
    piecesOf t (span :: spans) = trimmedPiece (span.of t) ++ piecesOf t spans :=
  List.filter_append [trim (span.of t)] _

theorem piecesOf_shift (front t : Text) (spans : List Span) :
    piecesOf (front ++ t) (spans.map (Span.shift front.length)) = piecesOf t spans := by
  have moved (span : Span) : (span.shift front.length).of (front ++ t) = span.of t :=
    slice_append_shift front t _ _
  rw [piecesOf, piecesOf, List.map_map]
  simp only [Function.comp_def, moved]

/-- A text whose first piece goes to its end is that piece. -/
theorem splitTopLevel_whole {t : Text} (whole : pieceEnd isSeparator 0 0 t = t.length) :
    splitTopLevel isSeparator t = trimmedPiece t := by
  have first : FirstPiece isSeparator 0 0 t _ _ := firstPiece 0 t 0 0
  rw [splitTopLevel]
  rw [whole] at first
  generalize pieceSpans isSeparator 0 0 0 t = spans at first
  generalize stop : t.length = size at first
  cases first with
  | last =>
    have all : Span.of ⟨0, 0 + t.length⟩ t = t := by simp [Span.of, slice]
    rw [piecesOf_cons, all]
    exact List.append_nil _
  | more => simp at stop

/-- Behind the separator of the first piece a text is split as one of its own. -/
theorem splitTopLevel_more {body after : Text} {c : Char}
    (ends : pieceEnd isSeparator 0 0 (body ++ c :: after) = body.length) :
    splitTopLevel isSeparator (body ++ c :: after) =
      trimmedPiece body ++ splitTopLevel isSeparator after := by
  have first : FirstPiece isSeparator 0 0 (body ++ c :: after) _ _ :=
    firstPiece 0 (body ++ c :: after) 0 0
  have piece : Span.of ⟨0, body.length⟩ (body ++ c :: after) = body := by simp [Span.of, slice]
  have moved := piecesOf_shift (body ++ [c]) after (pieceSpans isSeparator 0 0 0 after)
  rw [← pieceSpans_shift _ after (Aligned.none _ 0), ← splitTopLevel, List.append_assoc,
    List.length_append, List.length_singleton, Nat.zero_add] at moved
  rw [ends] at first
  rw [splitTopLevel, ← moved]
  generalize pieceSpans isSeparator 0 0 0 (body ++ c :: after) = spans at first
  generalize size : body.length = stop at first
  generalize whole : body ++ c :: after = t at first
  cases first with
  | last =>
    have length := congrArg List.length whole
    simp at length
    omega
  | more body' separates after' =>
    obtain ⟨rfl, rest⟩ := List.append_inj whole (by omega)
    obtain ⟨rfl, rfl⟩ := List.cons.inj rest
    rw [Nat.zero_add, piecesOf_cons, piece]
    rfl

theorem isSplit_splitTopLevel (t : Text) : IsSplit isSeparator t (splitTopLevel isSeparator t) := by
  have first : FirstPiece isSeparator 0 0 t _ _ := firstPiece 0 t 0 0
  generalize ends : pieceEnd isSeparator 0 0 t = stop at first
  generalize pieceSpans isSeparator 0 0 0 t = spans at first
  cases first with
  | last =>
    rw [Nat.zero_add] at ends
    rw [splitTopLevel_whole ends]
    exact .last ends
  | @more body c separates after =>
    have shorter : after.length < (body ++ c :: after).length := by simp; omega
    rw [Nat.zero_add] at ends
    rw [splitTopLevel_more ends]
    exact .more ends separates (isSplit_splitTopLevel after)
termination_by t.length

/-- The text is the pieces with gaps of blanks and separators before, between and behind them. -/
def Spaced (isSeparator : Char → Bool) (pieces : List Text) (t : Text) : Prop :=
  ∃ gap gaps, (gap :: gaps).length = pieces.length + 1 ∧
    (∀ text ∈ gap :: gaps, ∀ c ∈ text, isBlank c ∨ isSeparator c) ∧
    weave (gap :: gaps) pieces = t

theorem Spaced.nil : Spaced isSeparator [] [] :=
  ⟨[], [], rfl, by simp, rfl⟩

/-- A gap before the first one joins it. -/
theorem Spaced.gap {pieces : List Text} {t front : Text} (h : Spaced isSeparator pieces t)
    (valid : ∀ c ∈ front, isBlank c ∨ isSeparator c) : Spaced isSeparator pieces (front ++ t) := by
  obtain ⟨gap, gaps, length, inside, rfl⟩ := h
  rw [List.forall_mem_cons] at inside
  refine ⟨front ++ gap, gaps, length, List.forall_mem_cons.2 ⟨?_, inside.2⟩,
    weave_append_head front gap gaps pieces⟩
  intro c mem
  rcases List.mem_append.1 mem with mem | mem
  · exact valid c mem
  · exact inside.1 c mem

theorem Spaced.piece {pieces : List Text} {t : Text} (h : Spaced isSeparator pieces t)
    (body : Text) : Spaced isSeparator (trimmedPiece body ++ pieces) (body ++ t) := by
  obtain ⟨before, after, hb, ha, split⟩ := exists_append_trim body
  have blank {blanks : Text} (h : isBlankText blanks) : ∀ c ∈ blanks, isBlank c ∨ isSeparator c :=
    fun c mem => .inl (List.all_eq_true.1 h c mem)
  have behind := h.gap (blank ha)
  have whole : body ++ t = before ++ (trim body ++ (after ++ t)) := by
    conv_lhs => rw [split]
    simp only [List.append_assoc]
  rw [whole]
  refine Spaced.gap ?_ (blank hb)
  by_cases empty : trim body = []
  · rw [trimmedPiece, empty]
    exact behind
  · have single : trimmedPiece body = [trim body] := by simp [trimmedPiece, empty]
    rw [single]
    obtain ⟨gap, gaps, length, inside, woven⟩ := behind
    rw [← woven]
    exact ⟨[], gap :: gaps, by simpa using length, by simpa using inside, by simp [weave]⟩

theorem IsSplit.spaced {t : Text} {pieces : List Text} (h : IsSplit isSeparator t pieces) :
    Spaced isSeparator pieces t := by
  induction h with
  | @last body _ => simpa using Spaced.nil.piece body
  | @more body c after pieces _ separates _ ih =>
    have behind : Spaced isSeparator pieces ([c] ++ after) := ih.gap (by simp [separates])
    exact behind.piece body

/-- A piece that is cut out of its text and trimmed is a piece by itself. -/
theorem splitTopLevel_trim {body rest : Text} (code : '<' ∉ body)
    (ends : pieceEnd isSeparator 0 0 (body ++ rest) = body.length) (filled : trim body ≠ []) :
    splitTopLevel isSeparator (trim body) = [trim body] := by
  obtain ⟨before, after, hb, -, split⟩ := exists_append_trim body
  have whole : body ++ rest = (before ++ trim body) ++ (after ++ rest) := by
    conv_lhs => rw [split]
    simp only [List.append_assoc]
  have kept : (before ++ trim body).length ≤ body.length := by
    conv_rhs => rw [split]
    simp
  have cut : pieceEnd isSeparator 0 0 (before ++ trim body) = 0 + (before ++ trim body).length := by
    have plain : '<' ∉ before ++ trim body :=
      fun mem => code (by rw [split]; exact List.mem_append_left _ mem)
    rw [pieceEnd_cut (after ++ rest) _ 0 0 plain, ← whole, ends, Nat.zero_add,
      Nat.min_eq_right kept]
  have solid := pieceEnd_blanks hb cut
  rw [pieceEnd_shift, Nat.zero_add, Nat.add_comm, Nat.add_left_cancel_iff] at solid
  rw [splitTopLevel_whole solid, trimmedPiece, trim_trim]
  simp [filled]

theorem IsSplit.atomic {t : Text} {pieces : List Text} (h : IsSplit isSeparator t pieces)
    (code : '<' ∉ t) : ∀ piece ∈ pieces, splitTopLevel isSeparator piece = [piece] := by
  induction h with
  | @last body ends =>
    intro piece mem
    obtain ⟨rfl, filled⟩ := mem_trimmedPiece.1 mem
    have ends' : pieceEnd isSeparator 0 0 (body ++ []) = body.length := by rwa [List.append_nil]
    exact splitTopLevel_trim code ends' filled
  | @more body c after pieces ends _ _ ih =>
    simp only [List.mem_append, List.mem_cons, not_or] at code
    intro piece mem
    rcases List.mem_append.1 mem with mem | mem
    · obtain ⟨rfl, filled⟩ := mem_trimmedPiece.1 mem
      exact splitTopLevel_trim code.1 ends filled
    · exact ih code.2.2 piece mem

/-! ## Joined pieces -/

/-- A piece goes on behind the text. -/
def GoesOn (isSeparator : Char → Bool) (t : Text) : Prop :=
  ∀ pos rest, pieceEnd isSeparator pos 0 (t ++ rest) = pieceEnd isSeparator (pos + t.length) 0 rest

theorem goesOn_nil : GoesOn isSeparator [] :=
  fun _ _ => rfl

theorem GoesOn.append {t u : Text} (ht : GoesOn isSeparator t) (hu : GoesOn isSeparator u) :
    GoesOn isSeparator (t ++ u) := by
  intro pos rest
  rw [List.append_assoc, ht, hu, List.length_append, Nat.add_assoc]

theorem goesOn_mark {c : Char} (quote : isQuote c = false) (opener : isOpener c = false)
    (other : isSeparator c = false) : GoesOn isSeparator [c] := by
  intro pos rest
  rw [List.singleton_append, pieceEnd, if_neg (Nat.not_lt_zero _), atomEnd?_eq_none quote opener]
  exact if_neg (by simp [other])

theorem goesOn_atom {c : Char} {t : Text}
    (atom : ∀ pos rest, atomEnd? pos c (t ++ rest) = some (pos + 1 + t.length)) :
    GoesOn isSeparator (c :: t) := by
  intro pos rest
  rw [List.cons_append, pieceEnd, if_neg (Nat.not_lt_zero _), atom]
  dsimp only
  rw [pieceEnd_skip, List.length_cons, Nat.add_comm t.length, Nat.add_assoc]

theorem goesOn_literal {quote : Char} (opens : isQuote quote) {content : Text}
    (complete : IsComplete quote content) : GoesOn isSeparator (quote :: (content ++ [quote])) := by
  refine goesOn_atom fun pos rest => ?_
  rw [atomEnd?, if_pos opens, List.append_assoc, List.singleton_append, complete,
    List.length_append, List.length_singleton, Nat.add_assoc _ content.length]

theorem goesOn_group (kind : Bracket) {inner : Text} (code : IsArgumentCode inner) :
    GoesOn isSeparator (kind.opener :: (inner ++ [kind.closer])) := by
  have quote : isQuote kind.opener = false := by cases kind <;> rfl
  refine goesOn_atom fun pos rest => ?_
  rw [atomEnd?, quote, if_neg Bool.false_ne_true, nestedEnd?, ofOpener?_opener, Option.map_some,
    List.append_assoc, List.singleton_append, code.bracketEnd_eq, bracketEnd_closer,
    Option.getD_some, List.length_append, List.length_singleton, Nat.add_assoc _ inner.length]

end Piece

mutual

/-- Code of a list entry: single characters, strings, template literals and groups in brackets. -/
inductive EntryCode where
  | done
  | mark (c : Char) (valid : isPlainMark c) (rest : EntryCode)
  | string (quote : Char) (opens : quote = '"' ∨ quote = '\'') (content : LiteralText quote)
    (rest : EntryCode)
  | template (parts : EntryTemplate) (rest : EntryCode)
  | group (kind : Bracket) (inner rest : EntryCode)

/-- The static text and the substitutions of a template literal. -/
inductive EntryTemplate where
  | last (content : LiteralText '`')
  | substitution (content : LiteralText '`') (inner : EntryCode) (rest : EntryTemplate)

end

mutual

/-- The code as text. -/
def EntryCode.print : EntryCode → Text
  | .done => []
  | .mark c _ rest => c :: rest.print
  | .string quote _ content rest => quote :: (content.text ++ quote :: rest.print)
  | .template parts rest => '`' :: (parts.print ++ '`' :: rest.print)
  | .group kind inner rest => kind.opener :: (inner.print ++ kind.closer :: rest.print)

/-- The parts of a template as text. -/
def EntryTemplate.print : EntryTemplate → Text
  | .last content => content.text
  | .substitution content inner rest =>
    content.text ++ '$' :: '{' :: (inner.print ++ '}' :: rest.print)

end

/-- Whether no comma stands outside literals and brackets. -/
def EntryCode.isSingle : EntryCode → Bool
  | .done => true
  | .mark c _ rest => !isComma c && rest.isSingle
  | .string _ _ _ rest => rest.isSingle
  | .template _ rest => rest.isSingle
  | .group _ _ rest => rest.isSingle

/-- An entry of a list: code without a comma of its own and without a blank at either end. -/
structure ListEntry where
  code : EntryCode
  single : code.isSingle
  trimmed : Trimmed code.print

/-- The entry as text. -/
def ListEntry.text (entry : ListEntry) : Text :=
  entry.code.print

mutual

theorem EntryCode.isArgumentCode : ∀ code : EntryCode, IsArgumentCode code.print
  | .done => .nil
  | .mark _ valid rest => .mark valid rest.isArgumentCode
  | .string quote opens content rest => by
    have quoted : isQuote quote := by rcases opens with rfl | rfl <;> decide
    exact .literal quoted (fun pos rest => literalEnd_valid quoted content.valid rest pos)
      rest.isArgumentCode
  | .template parts rest => .literal (by decide) parts.isComplete rest.isArgumentCode
  | .group kind inner rest => .group kind inner.isArgumentCode rest.isArgumentCode

theorem EntryTemplate.isComplete : ∀ parts : EntryTemplate, IsComplete '`' parts.print
  | .last content => fun pos rest => literalEnd_valid (by decide) content.valid rest pos
  | .substitution content inner more => by
    intro pos rest
    have stop : bracketEnd .curly 0 ['{'] (pos + content.text.length + 2) 0
        (inner.print ++ '}' :: (more.print ++ '`' :: rest)) =
        some (pos + content.text.length + 2 + (inner.print ++ ['}']).length) := by
      rw [inner.isArgumentCode.bracketEnd_eq]
      exact (bracketEnd_closer .curly _ _ _).trans (by simp [Nat.add_assoc])
    have skip := literalEnd_skip '`' (more.print ++ '`' :: rest) (inner.print ++ ['}'])
      (pos + content.text.length + 2)
    rw [List.append_assoc, List.singleton_append] at skip
    simp only [EntryTemplate.print, List.append_assoc, List.cons_append]
    rw [literalEnd_content (by simp) content.text pos content.valid, literalEnd_substitution stop,
      skip, more.isComplete]
    simp only [List.length_append, List.length_cons, List.length_nil]
    omega

end

/-- A piece goes on behind code without a comma of its own. -/
theorem EntryCode.goesOn : ∀ code : EntryCode, code.isSingle → GoesOn isComma code.print
  | .done, _ => goesOn_nil
  | .mark c valid rest, single => by
    obtain ⟨code, opener, -⟩ := isPlainMark_iff.1 valid
    simp only [isPlainCode, Bool.and_eq_true, Bool.not_eq_true'] at code
    simp only [EntryCode.isSingle, Bool.and_eq_true, Bool.not_eq_true'] at single
    exact (goesOn_mark code.1.1 opener single.1).append (rest.goesOn single.2)
  | .string quote opens content rest, single => by
    have quoted : isQuote quote := by rcases opens with rfl | rfl <;> decide
    have literal : GoesOn isComma (quote :: (content.text ++ [quote])) :=
      goesOn_literal quoted fun pos rest => literalEnd_valid quoted content.valid rest pos
    simpa [EntryCode.print] using literal.append (rest.goesOn single)
  | .template parts rest, single => by
    have literal : GoesOn isComma ('`' :: (parts.print ++ ['`'])) :=
      goesOn_literal (by decide) parts.isComplete
    simpa [EntryCode.print] using literal.append (rest.goesOn single)
  | .group kind inner rest, single => by
    have group : GoesOn isComma (kind.opener :: (inner.print ++ [kind.closer])) :=
      goesOn_group kind inner.isArgumentCode
    simpa [EntryCode.print] using group.append (rest.goesOn single)

theorem goesOn_blanks : ∀ {blanks : Text}, isBlankText blanks → GoesOn isComma blanks
  | [], _ => goesOn_nil
  | c :: cs, blank => by
    rw [isBlankText, List.all_cons, Bool.and_eq_true] at blank
    obtain ⟨quote, opener⟩ := not_atom_of_isBlank blank.1
    have comma : isComma c = false := by
      have key := (isQuiet_of_isBlank blank.1).2
      simp only [isKeyChar, Bool.and_eq_true, Bool.not_eq_true'] at key
      exact key.1.1
    exact (goesOn_mark quote opener comma).append (goesOn_blanks blank.2)

section Entry

variable (entry : ListEntry) {blanks : Text} (blank : isBlankText blanks)
include blank

theorem ListEntry.goesOn : GoesOn isComma (blanks ++ entry.text) :=
  (goesOn_blanks blank).append (entry.code.goesOn entry.single)

theorem ListEntry.trimmedPiece_eq : trimmedPiece (blanks ++ entry.text) = [entry.text] := by
  have around : trim (blanks ++ (entry.text ++ [])) = entry.text ++ trimEnd [] :=
    trim_around blank entry.trimmed []
  rw [trimEnd_blank rfl, List.append_nil] at around
  obtain ⟨c, cs, filled, -⟩ := entry.trimmed.first
  have nonempty : entry.text ≠ [] := by simp [ListEntry.text, filled]
  rw [trimmedPiece, around]
  simp [nonempty]

end Entry

/-- Entries come back from the list that they are joined to. -/
theorem splitTopLevel_joinComma :
    ∀ (entry : ListEntry) (entries : List ListEntry) {blanks : Text}, isBlankText blanks →
    splitTopLevel isComma (blanks ++ joinComma ((entry :: entries).map ListEntry.text)) =
      (entry :: entries).map ListEntry.text
  | entry, [], blanks, blank => by
    have ends := entry.goesOn blank 0 []
    rw [List.append_nil, Nat.zero_add] at ends
    exact (splitTopLevel_whole ends).trans (entry.trimmedPiece_eq blank)
  | entry, other :: entries, blanks, blank => by
    have split : blanks ++ joinComma ((entry :: other :: entries).map ListEntry.text) =
        (blanks ++ entry.text) ++
          ',' :: ([' '] ++ joinComma ((other :: entries).map ListEntry.text)) := by
      simp [joinComma, joinWith]
    have ends :=
      entry.goesOn blank 0 (',' :: ([' '] ++ joinComma ((other :: entries).map ListEntry.text)))
    rw [Nat.zero_add] at ends
    have space : isBlankText [' '] := by decide
    have ih := splitTopLevel_joinComma other entries space
    rw [split, splitTopLevel_more (ends.trans rfl), ih, entry.trimmedPiece_eq blank]
    rfl

/-- Splitting loses nothing but blanks and separators, its pieces are split no further, and it
undoes joining. -/
theorem splitTopLevel_lossless_atomic_inverse :
    (∀ (isSeparator : Char → Bool) (t : Text), '<' ∉ t →
      (∀ piece ∈ splitTopLevel isSeparator t,
        piece ≠ [] ∧ trim piece = piece ∧ splitTopLevel isSeparator piece = [piece]) ∧
      ∃ gaps : List Text, gaps.length = (splitTopLevel isSeparator t).length + 1 ∧
        (∀ gap ∈ gaps, ∀ c ∈ gap, isBlank c ∨ isSeparator c) ∧
          weave gaps (splitTopLevel isSeparator t) = t) ∧
    ∀ entries : List ListEntry,
      splitTopLevel isComma (joinComma (entries.map ListEntry.text)) =
        entries.map ListEntry.text := by
  refine ⟨fun isSeparator t code => ⟨fun piece mem => ?_, ?_⟩, fun entries => ?_⟩
  · obtain ⟨filled, trimmed⟩ := mem_piecesOf mem
    exact ⟨filled, trimmed, (isSplit_splitTopLevel t).atomic code piece mem⟩
  · obtain ⟨gap, gaps, spaced⟩ := (isSplit_splitTopLevel t).spaced
    exact ⟨gap :: gaps, spaced⟩
  · cases entries with
    | nil => rfl
    | cons entry entries =>
      have none : isBlankText [] := rfl
      have joined := splitTopLevel_joinComma entry entries none
      rwa [List.nil_append] at joined

/-- Literals and brackets that are not closed go to the end of the text, and so they do in a piece;
the comma in a call and the one in a string are no separators. -/
theorem splitTopLevel_call :
    splitTopLevel isComma " a, f(b, 'c,') ,, [d, e".toList = ["a".toList, "f(b, 'c,')".toList,
      "[d, e".toList] ∧
      splitTopLevel isComma "[d, e".toList = ["[d, e".toList] ∧
      ∃ entries : List ListEntry, entries.map ListEntry.text = ["f(b, 'c,')".toList, "a".toList] ∧
        splitTopLevel isComma (joinComma (entries.map ListEntry.text)) =
          entries.map ListEntry.text := by
  have pieces : splitTopLevel isComma " a, f(b, 'c,') ,, [d, e".toList =
      ["a".toList, "f(b, 'c,')".toList, "[d, e".toList] := by decide +kernel
  have whole :=
    (splitTopLevel_lossless_atomic_inverse.1 isComma " a, f(b, 'c,') ,, [d, e".toList (by decide)).1
  let arguments : EntryCode :=
    .mark 'b' rfl (.mark ',' rfl (.mark ' ' rfl (.string '\'' (.inr rfl) ⟨"c,".toList, rfl⟩ .done)))
  let call : ListEntry := ⟨.mark 'f' rfl (.group .round arguments .done), rfl,
    ⟨⟨'f', "(b, 'c,')".toList, rfl, by decide⟩, "f(b, 'c,'".toList, ')', rfl, by decide⟩⟩
  let name : ListEntry :=
    ⟨.mark 'a' rfl .done, rfl, ⟨⟨'a', [], rfl, by decide⟩, [], 'a', rfl, by decide⟩⟩
  exact ⟨pieces, (whole "[d, e".toList (by rw [pieces]; simp)).2.2, [call, name], rfl,
    splitTopLevel_lossless_atomic_inverse.2 [call, name]⟩

end Recast
