import Mathlib.Data.List.Chain
import Recast.Proofs.Scan.Tiling

/-!
# The shape of tokens

A token shows by its ends what it is: an expression stands between braces, and a tag between `<` and
`>` (`markAt_shaped`). Text holds nothing that would start either of them (`Token.Shaped`), and all
the text between two marks is one token (`tokensFrom_shaped`). Where a text cannot be cut into
tokens, the fault names the `<` or `{` that is never closed (`tokensFrom_fault`).
-/

namespace Recast

/-- Neither an expression nor a tag starts from `start` up to `stop`: no `{` is there, and no `<`
with a character right behind it that a tag can go on with. -/
def NoMarkIn (t : Text) (start stop : Nat) : Prop :=
  ∀ i, start ≤ i → i < stop → t[i]? ≠ some '{' ∧
    (t[i]? = some '<' → ∀ c, t[i + 1]? = some c → isLetter c = false ∧ c ∉ ['/', '>', '_', '$'])

/-- What a token of each kind looks like. -/
def Token.Shaped (t : Text) (token : Token) : Prop :=
  match token.kind with
  | .text => NoMarkIn t token.start token.stop
  | .expression => (token.of t).head? = some '{' ∧ (token.of t).getLast? = some '}'
  | .opening | .selfClosing | .closing =>
    (token.of t).head? = some '<' ∧ (token.of t).getLast? = some '>'

/-- No two texts are next to each other. -/
def TextsApart (found : List Token) : Prop :=
  found.IsChain fun first second => ¬(first.kind = .text ∧ second.kind = .text)

variable {t : Text} {pos : Nat} {c : Char} {cs : Text}

/-! ## Tags and expressions -/

/-- A mark is an expression that ends with its brace, or a tag that ends with a `>`. -/
theorem markAt_cases {token : Token} (h : markAt pos c cs = some (.ok token)) :
    (token.kind = .expression ∧ c = '{' ∧ EndsBy '}' (pos + 1) cs token.stop) ∨
      (token.kind ∈ [.opening, .selfClosing, .closing] ∧ c = '<' ∧
        EndsBy '>' (pos + 1) cs token.stop) := by
  have tag := fun kind => markAt_found h kind
  rw [markAt, markBy.eq_def] at h
  split at h
  · rename_i brace
    split at h
    · rename_i found
      obtain rfl := Except.ok.inj (Option.some.inj h)
      exact .inl ⟨rfl, brace, bracketEnd_found .curly found⟩
    · simp at h
  · split at h
    · have kind : token.kind ∈ [.opening, .selfClosing, .closing] := by
        split at h
        · split at h
          · obtain rfl := Except.ok.inj (Option.some.inj h)
            simp
          · simp at h
        · split at h
          · simp at h
          · rename_i selfClosing _
            obtain rfl := Except.ok.inj (Option.some.inj h)
            cases selfClosing <;> simp
      exact .inr ⟨kind, tag fun expression => by simp [expression] at kind⟩
    · simp at h

/-- A piece that starts with `first` and is read up to `last` has these two at its ends. -/
theorem slice_ends {first last : Char} {stop : Nat} (here : t.drop pos = first :: cs)
    (ends : EndsBy last (pos + 1) cs stop) :
    (slice t pos stop).head? = some first ∧ (slice t pos stop).getLast? = some last := by
  obtain ⟨inner, rest, rfl, rfl⟩ := ends
  have length : pos + 1 + inner.length + 1 - pos = (first :: inner ++ [last]).length := by
    simp only [List.length_append, List.length_cons, List.length_nil]
    omega
  have whole : first :: (inner ++ last :: rest) = first :: inner ++ [last] ++ rest := by simp
  have piece : slice t pos (pos + 1 + inner.length + 1) = first :: inner ++ [last] := by
    rw [slice, List.drop_take, here, length, whole, List.take_left]
  rw [piece]
  exact ⟨rfl, List.getLast?_concat⟩

/-- A mark is no text, and has the shape of its kind. -/
theorem markAt_shaped {token : Token} (here : t.drop pos = c :: cs)
    (h : markAt pos c cs = some (.ok token)) : token.kind ≠ .text ∧ token.Shaped t := by
  have start := (markAt_bounds h).1
  rcases markAt_cases h with ⟨kind, rfl, ends⟩ | ⟨kind, rfl, ends⟩
  · have shape := slice_ends here ends
    rw [Token.Shaped, Token.of, start, kind]
    exact ⟨by simp, shape⟩
  · have shape := slice_ends here ends
    rw [Token.Shaped, Token.of, start]
    simp only [List.mem_cons, List.not_mem_nil, or_false] at kind
    rcases kind with kind | kind | kind <;> rw [kind] <;> exact ⟨by simp, shape⟩

/-! ## Text -/

theorem NoMarkIn.of_le (t : Text) {start stop : Nat} (h : stop ≤ start) : NoMarkIn t start stop :=
  fun _ after before => absurd (Nat.lt_of_lt_of_le before h) (Nat.not_lt.2 after)

/-- A character at which no mark starts goes on with the text before it. -/
theorem NoMarkIn.succ {start : Nat} (before : NoMarkIn t start pos) (here : t.drop pos = c :: cs)
    (h : markAt pos c cs = none) : NoMarkIn t start (pos + 1) := by
  intro i after inside
  by_cases last : i = pos
  · subst last
    have char : t[i]? = some c := by rw [← List.head?_drop, here]; rfl
    have next : t[i + 1]? = cs.head? := by rw [← List.head?_drop, ← List.tail_drop, here]; rfl
    rw [char, next]
    rw [markAt, markBy.eq_def] at h
    split at h
    · split at h <;> simp at h
    · rename_i brace
      refine ⟨by simpa using brace, fun angle d hd => ?_⟩
      obtain ⟨rest, rfl⟩ := List.head?_eq_some_iff.1 hd
      obtain rfl := Option.some.inj angle
      split at h
      · split at h
        · split at h <;> simp at h
        · split at h <;> simp at h
      · rename_i opens
        simpa [opensTag, not_or, and_assoc] using opens
  · exact before i after (by omega)

theorem shaped_textToken {start stop : Nat} (h : NoMarkIn t start stop) :
    ∀ token ∈ textToken start stop, token.Shaped t := by
  intro token hm
  rw [textToken, List.mem_ite_nil_right, List.mem_singleton] at hm
  obtain ⟨-, rfl⟩ := hm
  exact h

/-- A tag or an expression keeps the text before it from what comes after it. -/
theorem textsApart_mark {start stop : Nat} {token : Token} {rest : List Token}
    (kind : token.kind ≠ .text)
    (apart : TextsApart rest) : TextsApart (textToken start stop ++ token :: rest) := by
  have tail : TextsApart (token :: rest) := List.IsChain.cons apart fun _ _ both => kind both.1
  rw [textToken]
  split
  · exact List.IsChain.cons tail fun second hs both => kind (by
      obtain rfl := Option.some.inj hs
      exact both.2)
  · exact tail

/-- The tokens from `pos` on are shaped as they should be, and no two texts are next to each other.
While a mark is passed over, the next text starts where the mark ends. -/
theorem tokensFrom_shaped :
    ∀ {s : Text} {textStart pos resume : Nat} {found : List Token}, t.drop pos = s →
    tokensFrom textStart pos resume s = .ok found → NoMarkIn t textStart pos → resume ≤ pos ∨
      textStart = resume →
      (∀ token ∈ found, token.Shaped t) ∧ TextsApart found
  | [], textStart, pos, _, found, _, h, before, _ => by
    obtain rfl := Except.ok.inj h
    refine ⟨shaped_textToken before, ?_⟩
    rw [textToken]
    split
    · exact .singleton _
    · exact .nil
  | c :: cs, textStart, pos, resume, found, here, h, before, passed => by
    have next : t.drop (pos + 1) = cs := by rw [← List.tail_drop, here]; rfl
    rw [tokensFrom] at h
    split at h
    · exact tokensFrom_shaped next h (.of_le t (by omega)) (by omega)
    · split at h
      · rename_i mark
        exact tokensFrom_shaped next h (before.succ here mark) (by omega)
      · cases h
      · rename_i token mark
        obtain ⟨kind, shape⟩ := markAt_shaped here mark
        have bounds := markAt_bounds mark
        split at h
        · cases h
        · rename_i rest more
          obtain rfl := Except.ok.inj h
          obtain ⟨shapes, apart⟩ := tokensFrom_shaped next more (.of_le t (by omega)) (.inr rfl)
          refine ⟨fun other hm => ?_, textsApart_mark kind apart⟩
          rcases List.mem_append.1 hm with hm | hm
          · exact shaped_textToken before other hm
          · rcases List.mem_cons.1 hm with rfl | hm
            · exact shape
            · exact shapes other hm

/-! ## Faults -/

/-- The fault is at a `<` or at a `{` of the text that starts at `pos`. -/
def PointsAtMark (pos : Nat) (t : Text) (fault : MarkupFault) : Prop :=
  ∃ mark ∈ ['<', '{'], EndsBy mark pos t (fault.offset + 1)

theorem PointsAtMark.cons {fault : MarkupFault} (c : Char) (h : PointsAtMark (pos + 1) t fault) :
    PointsAtMark pos (c :: t) fault := by
  obtain ⟨mark, hm, ends⟩ := h
  exact ⟨mark, hm, ends.cons c⟩

/-- A tag whose end is not found is at fault itself, or the brace of one of its attributes is. -/
theorem tagEnd_fault {name : Text} {start : Nat} :
    ∀ {s : Text} {previous : Char} {pos resume : Nat} {fault : MarkupFault},
    tagEnd name start previous pos resume s = .error fault → fault.offset = start ∨
      PointsAtMark pos s fault
  | [], _, _, _, _, h => by
    obtain rfl := Except.error.inj h
    exact .inl rfl
  | c :: cs, previous, pos, resume, fault, h => by
    rw [tagEnd] at h
    split at h
    · exact (tagEnd_fault h).imp_right (.cons c)
    · split at h
      · exact (tagEnd_fault h).imp_right (.cons c)
      · split at h
        · rename_i brace
          split at h
          · exact (tagEnd_fault h).imp_right (.cons c)
          · obtain rfl := Except.error.inj h
            exact .inr ⟨'{', by simp, brace ▸ EndsBy.head c pos cs⟩
        · split at h
          · cases h
          · exact (tagEnd_fault h).imp_right (.cons c)

theorem markAt_fault {fault : MarkupFault} (h : markAt pos c cs = some (.error fault)) :
    PointsAtMark pos (c :: cs) fault := by
  rw [markAt, markBy.eq_def] at h
  split at h
  · rename_i brace
    split at h
    · simp at h
    · obtain rfl := Except.error.inj (Option.some.inj h)
      exact ⟨'{', by simp, brace ▸ EndsBy.head c pos cs⟩
  · split at h
    · rename_i opens
      simp only [Bool.and_eq_true, decide_eq_true_eq] at opens
      have itself : ∀ fault : MarkupFault, fault.offset = pos → PointsAtMark pos (c :: cs) fault :=
        fun fault he => ⟨'<', by simp, by rw [he, ← opens.1]; exact EndsBy.head c pos cs⟩
      split at h
      · split at h
        · simp at h
        · obtain rfl := Except.error.inj (Option.some.inj h)
          exact itself _ rfl
      · split at h
        · rename_i failed
          obtain rfl := Except.error.inj (Option.some.inj h)
          exact (tagEnd_fault failed).elim (itself _) (.cons c)
        · simp at h
    · simp at h

/-- A fault is at a `<` or a `{` from `pos` on. -/
theorem tokensFrom_fault : ∀ {s : Text} {textStart pos resume : Nat} {fault : MarkupFault},
    tokensFrom textStart pos resume s = .error fault → PointsAtMark pos s fault
  | c :: cs, textStart, pos, resume, fault, h => by
    rw [tokensFrom] at h
    split at h
    · exact (tokensFrom_fault h).cons c
    · split at h
      · exact (tokensFrom_fault h).cons c
      · rename_i failed mark
        obtain rfl := Except.error.inj h
        exact markAt_fault mark
      · split at h
        · rename_i more
          obtain rfl := Except.error.inj h
          exact (tokensFrom_fault more).cons c
        · cases h

/-- What a fault points at lies in the text. -/
theorem PointsAtMark.at {start : Nat} {fault : MarkupFault}
    (h : PointsAtMark start (t.drop start) fault) :
    start ≤ fault.offset ∧ fault.offset < t.length ∧
      (t[fault.offset]? = some '<' ∨ t[fault.offset]? = some '{') := by
  obtain ⟨mark, hm, inner, rest, here, offset⟩ := h
  have at' : fault.offset = start + inner.length := by omega
  have char : t[fault.offset]? = some mark := by
    rw [at', ← List.getElem?_drop, here]
    simp
  have inside : fault.offset < t.length := by
    by_contra outside
    rw [List.getElem?_eq_none (Nat.not_lt.1 outside)] at char
    cases char
  refine ⟨by omega, inside, ?_⟩
  rw [char]
  simpa using hm

/-! ## The tokens of a text -/

theorem Tiles.le : ∀ {spans : List Span} {start stop : Nat}, Tiles start stop spans → start ≤ stop
  | [], _, _, h => Nat.le_of_eq h
  | _ :: _, _, _, ⟨_, nonempty, rest⟩ => nonempty.le.trans rest.le

/-- There is nothing to tile just if the start is the end. -/
theorem Tiles.eq_nil_iff {start stop : Nat} {spans : List Span} (h : Tiles start stop spans) :
    spans = [] ↔ start = stop := by
  cases spans with
  | nil => exact iff_of_true rfl h
  | cons span spans =>
    obtain ⟨-, nonempty, rest⟩ := h
    exact iff_of_false (by simp) (nonempty.trans_le rest.le).ne

/-- Tokens tile the text from the start on and show by their ends what they are; text has no mark in
it, and no text is next to another one. If there is a fault, it is at a `<` or a `{` of that part of
the text. -/
theorem tokens_outcome {t : Text} {start : Nat} (inside : start ≤ t.length) :
    (∀ found, tokens t start = .ok found →
        Tiles start t.length (found.map Token.span) ∧ (found = [] ↔ start = t.length) ∧
          (∀ token ∈ found, token.Shaped t) ∧ TextsApart found) ∧
      ∀ fault, tokens t start = .error fault →
        start ≤ fault.offset ∧ fault.offset < t.length ∧
          (t[fault.offset]? = some '<' ∨ t[fault.offset]? = some '{') := by
  refine ⟨fun found h => ?_, fun fault h => (tokensFrom_fault h).at⟩
  have tiles := tokens_tile h inside
  obtain ⟨shaped, apart⟩ :=
    tokensFrom_shaped rfl h (.of_le t (Nat.le_refl _)) (.inl (Nat.zero_le _))
  have none : found = [] ↔ start = t.length := by
    rw [← tiles.eq_nil_iff, List.map_eq_nil_iff]
  exact ⟨tiles, none, shaped, apart⟩

/-- The text between the tag and the expression has the `<` of a comparison in it. In the second
text the brace of an attribute stays open, and the fault is at the brace, not at the tag. -/
theorem tokens_outcome_comparison :
    (tokens "if <p>a < b\x7bc\x7d".toList 3 =
          .ok [⟨.opening, 3, 6, "p".toList⟩, ⟨.text, 6, 11, []⟩, ⟨.expression, 11, 14, []⟩] ∧
        Tiles 3 14 [⟨3, 6⟩, ⟨6, 11⟩, ⟨11, 14⟩] ∧ NoMarkIn "if <p>a < b\x7bc\x7d".toList 6 11) ∧
      tokens "x <p a=\x7b1".toList 1 = .error ⟨.unclosedAttribute "p".toList, 7⟩ ∧
        1 ≤ 7 ∧ 7 < "x <p a=\x7b1".toList.length := by
  have read : tokens "if <p>a < b\x7bc\x7d".toList 3 =
      .ok [⟨.opening, 3, 6, "p".toList⟩, ⟨.text, 6, 11, []⟩, ⟨.expression, 11, 14, []⟩] := by
    decide +kernel
  have failed : tokens "x <p a=\x7b1".toList 1 = .error ⟨.unclosedAttribute "p".toList, 7⟩ := by
    decide +kernel
  obtain ⟨tiles, -, shaped, -⟩ := (@tokens_outcome _ 3 (by decide)).1 _ read
  obtain ⟨after, before, -⟩ := (@tokens_outcome _ 1 (by decide)).2 _ failed
  exact ⟨⟨read, tiles, shaped ⟨.text, 6, 11, []⟩ (by simp)⟩, failed, after, before⟩

end Recast
