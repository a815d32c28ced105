import Recast.Proofs.Scan.Found
import Recast.Proofs.Text.Gap
import Recast.Scan.Token

/-!
# Units of a children text

The tokens of a text tile it: each starts where the one before it ends (`tokens_tile`). Grouping
tokens into siblings joins neighbours only, so the spans of the siblings tile the text as well,
however its tags are balanced (`childSpans_tile`). Trimming takes blanks off the ends of the tiles,
and a tile of blanks goes altogether, so the units of a text are all of it but blanks before,
between and behind them (`splitChildren_spaced`).
-/

namespace Recast

/-- Spans that cover everything from `start` up to `stop`: none is empty, and each starts where the
one before it ends. -/
def Tiles (start stop : Nat) : List Span → Prop
  | [] => start = stop
  | span :: spans => span.start = start ∧ start < span.stop ∧ Tiles span.stop stop spans

/-- The span that a token covers. -/
def Token.span (token : Token) : Span :=
  ⟨token.start, token.stop⟩

theorem Tiles.append {start middle stop : Nat} :
    ∀ {first second : List Span}, Tiles start middle first →
    Tiles middle stop second → Tiles start stop (first ++ second)
  | [], _, here, more => by
    obtain rfl : start = middle := here
    exact more
  | _ :: _, _, ⟨first, nonempty, rest⟩, more => ⟨first, nonempty, rest.append more⟩

/-! ## Tokens -/

/-- A tag or an expression starts where it is found and ends in the text. -/
theorem markAt_bounds {pos : Nat} {c : Char} {cs : Text} {token : Token}
    (h : markAt pos c cs = some (.ok token)) :
    token.start = pos ∧ pos < token.stop ∧ token.stop ≤ pos + 1 + cs.length := by
  rw [markAt, markBy.eq_def] at h
  split at h
  · split at h
    · rename_i found
      obtain rfl := Except.ok.inj (Option.some.inj h)
      obtain ⟨after, inside⟩ := (bracketEnd_found .curly found).bounds
      exact ⟨rfl, Nat.lt_of_succ_lt after, inside⟩
    · simp at h
  · split at h
    · split at h
      · split at h
        · rename_i name after cut
          obtain rfl := Except.ok.inj (Option.some.inj h)
          dsimp only
          rw [eq_append_of_cutAt? cut, List.length_cons, List.length_append, List.length_cons]
          exact ⟨rfl, by omega, by omega⟩
        · simp at h
      · split at h
        · simp at h
        · rename_i found
          obtain rfl := Except.ok.inj (Option.some.inj h)
          obtain ⟨after, inside⟩ := (tagEnd_found found).bounds
          exact ⟨rfl, Nat.lt_of_succ_lt after, inside⟩
    · simp at h

theorem textToken_tiles {start stop : Nat} (h : start ≤ stop) :
    Tiles start stop ((textToken start stop).map Token.span) := by
  unfold textToken
  split
  · exact ⟨rfl, by assumption, rfl⟩
  · exact (show start = stop by omega)

/-- The tokens from `pos` on tile the text from `textStart` on. What is passed over up to `resume`
belongs to the token before. -/
theorem tokensFrom_tile : ∀ {t : Text} {textStart pos resume : Nat} {found : List Token},
    tokensFrom textStart pos resume t = .ok found → textStart ≤ max pos resume →
      resume ≤ pos + t.length →
      Tiles textStart (pos + t.length) (found.map Token.span)
  | [], textStart, pos, resume, found, h, before, inside => by
    obtain rfl := Except.ok.inj h
    rw [List.length_nil, Nat.add_zero] at inside ⊢
    exact textToken_tiles (by omega)
  | c :: cs, textStart, pos, resume, found, h, before, inside => by
    have length : pos + (c :: cs).length = pos + 1 + cs.length := by
      rw [List.length_cons]
      omega
    rw [length] at inside ⊢
    rw [tokensFrom] at h
    split at h
    · exact tokensFrom_tile h (by omega) inside
    · split at h
      · exact tokensFrom_tile h (by omega) inside
      · cases h
      · rename_i token mark
        obtain ⟨start, nonempty, bound⟩ := markAt_bounds mark
        split at h
        · cases h
        · rename_i rest more
          obtain rfl := Except.ok.inj h
          have tail : Tiles pos (pos + 1 + cs.length) ((token :: rest).map Token.span) :=
            ⟨start, nonempty, tokensFrom_tile more (le_max_right _ _) bound⟩
          rw [List.map_append]
          exact (textToken_tiles (by omega)).append tail

/-- The tokens of a text tile it. -/
theorem tokens_tile {t : Text} {start : Nat} {found : List Token} (h : tokens t start = .ok found)
    (inside : start ≤ t.length) : Tiles start t.length (found.map Token.span) := by
  have tiles := tokensFrom_tile h (by omega) (by omega)
  rwa [List.length_drop, Nat.add_sub_cancel' inside] at tiles

/-! ## Siblings -/

/-- The siblings tile what the tokens do; inside an element they start with the element. -/
theorem childSpans_tile {size : Nat} : ∀ {found : List Token} (depth : Nat) {unitStart pos : Nat},
    Tiles pos size (found.map Token.span) → (depth ≠ 0 → unitStart < pos) →
      Tiles (if depth = 0 then pos else unitStart) size (childSpans size depth unitStart found)
  | [], depth, unitStart, pos, tiles, inside => by
    obtain rfl : pos = size := tiles
    rw [childSpans]
    split
    · exact rfl
    · rename_i element
      exact ⟨rfl, inside element, rfl⟩
  | token :: found, depth, unitStart, pos, ⟨start, nonempty, rest⟩, inside => by
    have start : token.start = pos := start
    have nonempty : pos < token.stop := nonempty
    rw [childSpans]
    split
    · split
      · rw [start]
        exact childSpans_tile 1 rest fun _ => nonempty
      · exact ⟨start, nonempty, childSpans_tile 0 rest fun absurd => (absurd rfl).elim⟩
    · rename_i element
      have before : unitStart < token.stop := (inside element).trans nonempty
      split
      · simpa using childSpans_tile (depth + 1) rest fun _ => before
      · split
        · split
          · exact ⟨rfl, before, childSpans_tile 0 rest fun absurd => (absurd rfl).elim⟩
          · have deeper : depth - 1 ≠ 0 := by omega
            simpa [deeper] using childSpans_tile (depth - 1) rest fun _ => before
        · simpa [element] using childSpans_tile depth rest fun _ => before

/-! ## Units -/

/-- Blanks before the first gap. -/
theorem weave_append_head (blanks gap : Text) (gaps units : List Text) :
    weave ((blanks ++ gap) :: gaps) units = blanks ++ weave (gap :: gaps) units := by
  cases units <;> simp [weave]

theorem trim_trim (t : Text) : trim (trim t) = trim t := by
  have first : ∀ c, (trim t).head? = some c → isBlank c = false := by
    intro c hc
    have : (trimStart t).head? = some c := by
      obtain ⟨blanks, -, split⟩ := exists_trimEnd_append (trimStart t)
      rw [split, List.head?_append, ← trim, hc]
      rfl
    exact not_isBlank_of_head?_trimStart this
  rw [trim, trimStart_eq_self first]
  exact trimEnd_trimEnd (trimStart t)

/-- Every piece is trimmed, and none is empty. -/
theorem mem_piecesOf {t piece : Text} {spans : List Span} (h : piece ∈ piecesOf t spans) :
    piece ≠ [] ∧ trim piece = piece := by
  obtain ⟨found, nonempty⟩ := List.mem_filter.1 h
  obtain ⟨span, -, rfl⟩ := List.mem_map.1 found
  exact ⟨by simpa using nonempty, trim_trim _⟩

theorem isBlankText_append {s t : Text} (hs : isBlankText s) (ht : isBlankText t) :
    isBlankText (s ++ t) := by
  rw [isBlankText, List.all_append, ← isBlankText, ← isBlankText, hs, ht]
  rfl

/-- The pieces of tiles are all of the text but blanks. -/
theorem piecesOf_spaced {t : Text} :
    ∀ {spans : List Span} {start : Nat}, Tiles start t.length spans →
    ∃ gap gaps, (gap :: gaps).length = (piecesOf t spans).length + 1 ∧
      (∀ blanks ∈ gap :: gaps, isBlankText blanks) ∧
      weave (gap :: gaps) (piecesOf t spans) = t.drop start
  | [], start, tiles => by
    obtain rfl : start = t.length := tiles
    exact ⟨[], [], rfl, by simp [isBlankText], by simp [piecesOf, weave]⟩
  | span :: spans, _, ⟨rfl, nonempty, rest⟩ => by
    obtain ⟨gap, gaps, length, blank, woven⟩ := piecesOf_spaced rest
    obtain ⟨before, after, hb, ha, split⟩ := exists_append_trim (span.of t)
    rw [List.forall_mem_cons] at blank
    have whole : t.drop span.start =
        before ++ (trim (span.of t) ++ (after ++ t.drop span.stop)) := by
      rw [← slice_append_drop t nonempty.le, ← Span.of]
      conv_lhs => rw [split]
      simp only [List.append_assoc]
    have joined : isBlankText (after ++ gap) := isBlankText_append ha blank.1
    rw [whole, ← woven, ← weave_append_head]
    by_cases empty : trim (span.of t) = []
    · -- A tile of blanks joins the gap behind it.
      have pieces : piecesOf t (span :: spans) = piecesOf t spans := by simp [piecesOf, empty]
      rw [pieces, empty, List.nil_append, ← weave_append_head]
      refine ⟨before ++ (after ++ gap), gaps, length, ?_, rfl⟩
      exact List.forall_mem_cons.2 ⟨isBlankText_append hb joined, blank.2⟩
    · have pieces : piecesOf t (span :: spans) = trim (span.of t) :: piecesOf t spans := by
        simp [piecesOf, empty]
      rw [pieces]
      refine ⟨before, (after ++ gap) :: gaps,
        by simpa using length, ?_, by rw [weave, List.append_assoc]⟩
      exact List.forall_mem_cons.2 ⟨hb, List.forall_mem_cons.2 ⟨joined, blank.2⟩⟩

/-- The units of a children text, each trimmed and none empty, are all of the text but the blanks
before, between and behind them. -/
theorem splitChildren_spaced {t : Text} {units : List Text} (h : splitChildren t = .ok units) :
    (∀ unit ∈ units, unit ≠ [] ∧ trim unit = unit) ∧
      ∃ gaps : List Text, gaps.length = units.length + 1 ∧ (∀ gap ∈ gaps, isBlankText gap) ∧
        weave gaps units = t := by
  rw [splitChildren] at h
  cases read : tokens t 0 with
  | error fault =>
    rw [read] at h
    cases h
  | ok found =>
    rw [read] at h
    obtain rfl := Except.ok.inj h
    have tiles : Tiles 0 t.length (childSpans t.length 0 0 found) :=
      childSpans_tile 0 (tokens_tile read (Nat.zero_le _)) fun absurd => (absurd rfl).elim
    obtain ⟨gap, gaps, length, blank, woven⟩ := piecesOf_spaced tiles
    exact ⟨fun unit => mem_piecesOf, gap :: gaps, length, blank, woven⟩

/-- A closing tag without an element before it and an element that is never closed are units like
any other. -/
theorem splitChildren_unbalanced :
    splitChildren " </b>\n<i>x \x7by\x7d </i> <p> z ".toList =
        .ok ["</b>".toList, "<i>x \x7by\x7d </i>".toList, "<p> z".toList] ∧
      ∃ gaps : List Text, gaps.length = 4 ∧ (∀ gap ∈ gaps, isBlankText gap) ∧
        weave gaps ["</b>".toList, "<i>x \x7by\x7d </i>".toList, "<p> z".toList] =
          " </b>\n<i>x \x7by\x7d </i> <p> z ".toList := by
  have units : splitChildren " </b>\n<i>x \x7by\x7d </i> <p> z ".toList =
      .ok ["</b>".toList, "<i>x \x7by\x7d </i>".toList, "<p> z".toList] := by decide +kernel
  exact ⟨units, (splitChildren_spaced units).2⟩

end Recast
