import Mathlib.Data.List.Pairwise
import Recast.Proofs.Component.HookRemoval
import Recast.Proofs.Text.Search
import Recast.Source.Import

/-!
# Taking imports out once and twice

`stripImports` looks for statements at the starts of the lines of a source and takes out those of
stripped modules. What is left can hold such a statement again: taking a text out makes a line start
of the place behind it, and brings together what stood before and behind it.
`stripImports_stripImports_iff` says where: a statement that is left starts right behind one that
was taken out without its line end (`SharesLine`), or on a line of the source that starts with
`import` but not with a statement that was found (`Unread`). A source with neither is done in one
pass.

The statement itself is read off its quotation marks: its module is what stands between the first
two (`quoted`), so that a statement is the same wherever its text stands.
-/

namespace Recast

/-! ## Reading a statement -/

/-- Whether a text starts with `import`, behind spaces and tabs. -/
def opensImport (t : Text) : Bool :=
  startsWith (t.dropWhile isIndent) "import".toList

/-- What stands between the first two quotation marks. -/
def quoted (t : Text) : Text :=
  (t.dropWhile (!isMark ·)).tail.takeWhile (!isMark ·)

/-- The module stands between the first two quotation marks of a text, which are the same. -/
structure Quotes (t front : Text) (quote : Char) (module_ rest : Text) : Prop where
  text : t = front ++ quote :: (module_ ++ quote :: rest)
  plain : ∀ c ∈ front, isMark c = false
  mark : isMark quote
  inner : ∀ c ∈ module_, isMark c = false

namespace Quotes

variable {t front module_ rest : Text} {quote : Char}

theorem length_append_cons (front module_ : Text) (quote : Char) :
    (front ++ quote :: (module_ ++ [quote])).length = front.length + module_.length + 2 := by
  simp only [List.length_append, List.length_cons, List.length_nil]
  omega

theorem text_eq (quotes : Quotes t front quote module_ rest) :
    t = (front ++ quote :: (module_ ++ [quote])) ++ rest := by
  simpa using quotes.text

theorem size_le (quotes : Quotes t front quote module_ rest) :
    front.length + module_.length + 2 ≤ t.length := by
  rw [quotes.text_eq, List.length_append, length_append_cons]
  exact Nat.le_add_right _ _

theorem drop_size (quotes : Quotes t front quote module_ rest) :
    t.drop (front.length + module_.length + 2) = rest := by
  rw [quotes.text_eq, ← length_append_cons front module_ quote, List.drop_left]

theorem quoted_eq (quotes : Quotes t front quote module_ rest) : quoted t = module_ := by
  have first : t.dropWhile (!isMark ·) = quote :: (module_ ++ quote :: rest) := by
    rw [quotes.text, List.dropWhile_append_of_pos fun c hc => by rw [quotes.plain c hc]; rfl,
      List.dropWhile_cons_of_neg (by simp [quotes.mark])]
  rw [quoted, first, List.tail_cons, List.takeWhile_append_of_pos fun c hc => by
    rw [quotes.inner c hc]; rfl, List.takeWhile_cons_of_neg (by simp [quotes.mark]),
      List.append_nil]

/-- Behind the second quotation mark any text may stand. -/
theorem quoted_append {piece more : Text} (quotes : Quotes (piece ++ more) front quote module_ rest)
    (fits : front.length + module_.length + 2 ≤ piece.length) (more' : Text) :
    quoted (piece ++ more') = module_ := by
  obtain ⟨tail, rfl⟩ : ∃ tail, front ++ quote :: (module_ ++ [quote]) ++ tail = piece :=
    List.prefix_of_prefix_length_le (quotes.text_eq ▸ List.prefix_append _ _)
      (List.prefix_append piece more)
      (by rwa [length_append_cons])
  have same : Quotes (front ++ quote :: (module_ ++ [quote]) ++ tail ++ more') front quote module_
      (tail ++ more') :=
    ⟨by simp, quotes.plain, quotes.mark, quotes.inner⟩
  exact same.quoted_eq

end Quotes

theorem not_isMark_of_isIndent {c : Char} (h : isIndent c) : isMark c = false := by
  simp only [isIndent, Bool.or_eq_true, beq_iff_eq] at h
  rcases h with rfl | rfl <;> decide

theorem opensImport_iff {t : Text} :
    opensImport t ↔ ∃ indentation rest, t = indentation ++ ("import".toList ++ rest) ∧
      ∀ c ∈ indentation, isIndent c := by
  rw [opensImport, startsWith, Option.isSome_iff_exists]
  constructor
  · rintro ⟨rest, split⟩
    refine ⟨t.takeWhile isIndent, rest, ?_, fun c hc => List.mem_takeWhile_imp hc⟩
    rw [← eq_append_of_dropHead? split, List.takeWhile_append_dropWhile]
  · rintro ⟨indentation, rest, rfl, blank⟩
    refine ⟨rest, ?_⟩
    rw [List.dropWhile_append_of_pos blank]
    exact dropHead?_append "import".toList rest

/-- What is read of a statement up to the end of its module. -/
theorem importStatement_eq_some {behind ahead module_ : Text} {size : Nat}
    (h : importStatement behind ahead = some (module_, size)) :
    startsLine behind ∧ ∃ clauses quote inner rest,
      dropHead? "import".toList (ahead.dropWhile isIndent) = some clauses ∧
      clauses.dropWhile (!isMark ·) = quote :: inner ∧ module_ = inner.takeWhile (!isMark ·) ∧
      inner.dropWhile (!isMark ·) = quote :: rest ∧ ∀ stop, ahead.drop stop = rest →
        size = statementEnd ahead stop := by
  rw [importStatement] at h
  cases line : startsLine behind with
  | false => simp [line] at h
  | true =>
    simp only [line, Bool.not_true, Bool.false_eq_true, if_false, Option.bind_eq_bind,
      Option.bind_eq_some_iff] at h
    obtain ⟨clauses, word, h⟩ := h
    cases clause : isImportClause (clauses.takeWhile (!isMark ·)) with
    | false => simp [clause] at h
    | true =>
      simp only [clause, Bool.not_true, Bool.false_eq_true, if_false] at h
      cases opened : clauses.dropWhile (!isMark ·) with
      | nil => simp [opened] at h
      | cons quote inner =>
        rw [opened] at h
        cases filled : (inner.takeWhile (!isMark ·)).isEmpty with
        | true => simp [filled] at h
        | false =>
          simp only [filled, Bool.false_eq_true, if_false, Option.bind_eq_some_iff] at h
          obtain ⟨rest, closed, answer⟩ := h
          obtain ⟨rfl, rfl⟩ := Prod.mk.inj (Option.some.inj answer)
          refine ⟨rfl, clauses, quote, inner, rest, word, opened, rfl,
            eq_append_of_dropHead? closed, ?_⟩
          rintro stop rfl
          rfl

theorem not_isMark_of_mem_takeWhile {t : Text} {c : Char} (h : c ∈ t.takeWhile (!isMark ·)) :
    isMark c = false := by
  simpa using List.mem_takeWhile_imp h

/-- A statement starts a line with `import`, and covers the text at least up to its second quotation
mark. -/
theorem importStatement_reads {behind ahead module_ : Text} {size : Nat}
    (h : importStatement behind ahead = some (module_, size)) :
    startsLine behind ∧ opensImport ahead ∧ size ≤ ahead.length ∧
      ∃ front quote rest, Quotes ahead front quote module_ rest ∧
        front.length + module_.length + 2 ≤ size := by
  obtain ⟨line, clauses, quote, inner, rest, word, opened, rfl, closed, ends⟩ :=
    importStatement_eq_some h
  have first : clauses = clauses.takeWhile (!isMark ·) ++ quote :: inner := by
    rw [← opened, List.takeWhile_append_dropWhile]
  have second : inner = inner.takeWhile (!isMark ·) ++ quote :: rest := by
    rw [← closed, List.takeWhile_append_dropWhile]
  have mark : isMark quote := by
    have := List.head_dropWhile_not (!isMark ·) (l := clauses)
      (by rw [opened]; exact List.cons_ne_nil _ _)
    simpa [opened] using this
  have plain : ∀ c ∈ ahead.takeWhile isIndent ++ "import".toList ++ clauses.takeWhile (!isMark ·),
      isMark c = false := by
    have keyword : ∀ c ∈ "import".toList, isMark c = false := by decide
    intro c hc
    rcases List.mem_append.1 hc with hc | hc
    · rcases List.mem_append.1 hc with hc | hc
      · exact not_isMark_of_isIndent (List.mem_takeWhile_imp hc)
      · exact keyword c hc
    · exact not_isMark_of_mem_takeWhile hc
  have quotes : Quotes ahead
      (ahead.takeWhile isIndent ++ "import".toList ++ clauses.takeWhile (!isMark ·)) quote
      (inner.takeWhile (!isMark ·)) rest := by
    refine ⟨?_, plain, mark, fun c hc => not_isMark_of_mem_takeWhile hc⟩
    rw [← second, List.append_assoc, ← first, List.append_assoc, ← eq_append_of_dropHead? word,
      List.takeWhile_append_dropWhile]
  have bounds := statementEnd_bounds quotes.size_le
  rw [← ends _ quotes.drop_size] at bounds
  exact ⟨line, by rw [opensImport, startsWith, word]; rfl, bounds.2, _, quote, rest, quotes,
    bounds.1⟩

/-- The module of a statement depends only on the text that it covers. -/
theorem importStatement_value {behind behind' piece rest rest' module_ module_' : Text} {size : Nat}
    (h : importStatement behind (piece ++ rest) = some (module_, piece.length))
    (h' : importStatement behind' (piece ++ rest') = some (module_', size)) :
    module_' = module_ := by
  obtain ⟨-, -, -, _, _, _, quotes, fits⟩ := importStatement_reads h
  obtain ⟨-, -, -, _, _, _, quotes', -⟩ := importStatement_reads h'
  rw [← quotes'.quoted_eq, quotes.quoted_append fits]

/-! ## What is taken out -/

theorem importStatement_fits (behind ahead module_ : Text) (size : Nat)
    (h : importStatement behind ahead = some (module_, size)) : 0 < size ∧ size ≤ ahead.length := by
  obtain ⟨-, -, within, _, _, _, -, fits⟩ := importStatement_reads h
  exact ⟨by omega, within⟩

theorem importStatement_pairwise (source : Text) :
    (occurrences importStatement source).Pairwise fun a b => a.stop ≤ b.start :=
  (occurrencesFrom_pairwise importStatement_fits source [] 0 0).2

/-- An occurrence of a statement is a piece of the source. -/
theorem importStatement_of_mem {source : Text} {found : Occurrence Text}
    (h : found ∈ occurrences importStatement source) :
    ∃ size, importStatement (source.take found.start).reverse (source.drop found.start) =
      some (found.value, size) ∧
      found.stop = found.start + size ∧ 0 < size ∧ found.stop ≤ source.length := by
  obtain ⟨passed, ahead, size, rfl, here, start, stop⟩ := exists_of_mem_occurrencesFrom h
  rw [Nat.zero_add] at start stop
  rw [List.append_nil] at here
  obtain ⟨some, within⟩ := importStatement_fits _ _ _ _ here
  refine ⟨size, ?_, by omega, some, by rw [List.length_append]; omega⟩
  rwa [start, List.take_left, List.drop_left]

/-- The spans of the statements that are taken out. -/
def strippedSpans (source : Text) : List Span :=
  (occurrences importStatement source).filterMap fun found =>
    if isStripped found.value then some ⟨found.start, found.stop⟩ else none

theorem mem_strippedSpans {source : Text} {span : Span} : span ∈ strippedSpans source ↔
    ∃ found ∈ occurrences importStatement source, isStripped found.value ∧
      ⟨found.start, found.stop⟩ = span := by
  simp only [strippedSpans, List.mem_filterMap, Option.ite_none_right_eq_some, Option.some.injEq]

theorem strippedSpans_bounds {source : Text} {span : Span} (h : span ∈ strippedSpans source) :
    span.start < span.stop ∧ span.stop ≤ source.length := by
  obtain ⟨found, here, -, rfl⟩ := mem_strippedSpans.1 h
  obtain ⟨size, -, stop, some, within⟩ := importStatement_of_mem here
  exact ⟨by dsimp only; omega, within⟩

theorem strippedSpans_pairwise (source : Text) :
    (strippedSpans source).Pairwise fun a b => a.stop ≤ b.start := by
  refine List.Pairwise.filterMap _ (fun a b before span hs span' hs' => ?_)
    (importStatement_pairwise source)
  simp only [Option.ite_none_right_eq_some, Option.some.injEq] at hs hs'
  obtain ⟨-, rfl⟩ := hs
  obtain ⟨-, rfl⟩ := hs'
  exact before

/-- Of two things in order, one ends before the other starts. -/
theorem disjoint_of_pairwise {α : Type} {start stop : α → Nat} {l : List α}
    (ordered : l.Pairwise fun a b => stop a ≤ start b) {a b : α} (ha : a ∈ l) (hb : b ∈ l)
    (other : a ≠ b) : stop a ≤ start b ∨ stop b ≤ start a := by
  have apart : l.Pairwise fun a b => stop a ≤ start b ∨ stop b ≤ start a :=
    ordered.imp fun before => .inl before
  have : Std.Symm fun a b => stop a ≤ start b ∨ stop b ≤ start a := ⟨fun _ _ => Or.symm⟩
  exact apart.forall ha hb other

/-- Whether an offset lies in no statement that is taken out. -/
def isLeft (source : Text) (pos : Nat) : Bool :=
  !(strippedSpans source).any (·.covers pos)

theorem isLeft_iff {source : Text} {pos : Nat} :
    isLeft source pos ↔ ∀ span ∈ strippedSpans source, pos < span.start ∨ span.stop ≤ pos := by
  rw [isLeft, Bool.not_eq_true', List.any_eq_false]
  refine forall₂_congr fun span _ => ?_
  simp only [Span.covers, Bool.and_eq_true, decide_eq_true_eq]
  omega

/-- Taking imports out leaves the characters outside their spans. -/
theorem stripImports_eq (source : Text) :
    stripImports source = keepFrom (isLeft source) 0 source := by
  have edits : stripImports source =
      replaceSpans source ((strippedSpans source).map fun span => ⟨span, []⟩) := by
    rw [stripImports, strippedSpans, List.map_filterMap]
    congr 2
    funext found
    split <;> rfl
  have sorted : inOrder (strippedSpans source) = strippedSpans source := by
    refine List.mergeSort_of_pairwise
      ((strippedSpans_pairwise source).imp_of_mem fun {a b} ha _ before => ?_)
    have := strippedSpans_bounds ha
    exact Span.le_iff.2 (.inl (by omega))
  have sound : ¬Leaks (strippedSpans source) := by
    rintro ⟨outer, ho, inner, hi, after, inside, -⟩
    have other : outer ≠ inner := by
      rintro rfl
      omega
    have apart := disjoint_of_pairwise (strippedSpans_pairwise source) ho hi other
    have := strippedSpans_bounds hi
    omega
  have valid : ∀ span ∈ strippedSpans source, span.start ≤ span.stop ∧ span.stop ≤ source.length :=
    fun span hm => ⟨(strippedSpans_bounds hm).1.le, (strippedSpans_bounds hm).2⟩
  calc stripImports source
    _ = removeSpans source (strippedSpans source) := by
      rw [edits, removeSpans, sorted_removals, sorted]
    _ = outside (strippedSpans source) source := (removeSpans_eq_outside_iff valid).2 sound
    _ = keepFrom (isLeft source) 0 source := rfl

theorem keepFrom_eq_self {keep : Nat → Bool} {t : Text} {pos : Nat}
    (h : ∀ p, pos ≤ p → p < pos + t.length → keep p) : keepFrom keep pos t = t := by
  rw [keepFrom_congr fun p after before => (h p after before).trans
    (decide_eq_true (Nat.zero_le p)).symm, keepFrom_from, Nat.zero_sub, List.drop_zero]

/-- Nothing is taken out of a source just if none of its statements is of a stripped module. -/
theorem stripImports_eq_self_iff (source : Text) : stripImports source = source ↔
    ∀ found ∈ occurrences importStatement source, isStripped found.value = false := by
  have same := (@keepFrom_sublist (isLeft source) (fun _ => true) (fun _ _ => rfl) source 0).2
  rw [keepFrom_eq_self fun _ _ _ => rfl, ← stripImports_eq, eq_comm] at same
  rw [same]
  constructor
  · intro left found here
    by_contra stripped
    obtain ⟨size, -, stop, some, within⟩ := importStatement_of_mem here
    have taken :=
      isLeft_iff.1 (left found.start (Nat.zero_le _) (by omega) rfl) ⟨found.start, found.stop⟩
      (mem_strippedSpans.2 ⟨found, here, by simpa using stripped, rfl⟩)
    dsimp only at taken
    omega
  · intro kept pos _ _ _
    refine isLeft_iff.2 fun span hm => ?_
    obtain ⟨found, here, stripped, -⟩ := mem_strippedSpans.1 hm
    rw [kept found here] at stripped
    cases stripped

/-! ## Offsets of what is left -/

/-- Every offset of what is kept of a text is that of a kept character, with what is kept before it
and from it on. -/
theorem exists_kept_offset (keep : Nat → Bool) :
    ∀ {t : Text} {pos i : Nat}, i < (keepFrom keep pos t).length →
    ∃ n < t.length, keep (pos + n) ∧ (keepFrom keep pos (t.take n)).length = i
  | [], _, _, h => absurd h (Nat.not_lt_zero _)
  | c :: cs, pos, i, h => by
    rw [keepFrom] at h
    have next : ∀ {i : Nat}, i < (keepFrom keep (pos + 1) cs).length →
        ∃ n < cs.length, keep (pos + (n + 1)) ∧
          (keepFrom keep (pos + 1) (cs.take n)).length = i := by
      intro i inside
      obtain ⟨n, within, kept, length⟩ := exists_kept_offset keep inside
      exact ⟨n, within, by rwa [Nat.add_assoc, Nat.add_comm 1] at kept, length⟩
    cases here : keep pos with
    | true =>
      rw [if_pos here] at h
      cases i with
      | zero => exact ⟨0, by simp, here, rfl⟩
      | succ i =>
        obtain ⟨n, within, kept, length⟩ := next (Nat.lt_of_succ_lt_succ h)
        refine ⟨n + 1, by simpa using within, kept, ?_⟩
        rw [List.take_succ_cons, keepFrom, if_pos here, List.length_cons, length]
    | false =>
      rw [if_neg (by simp [here])] at h
      obtain ⟨n, within, kept, length⟩ := next h
      refine ⟨n + 1, by simpa using within, kept, ?_⟩
      rw [List.take_succ_cons, keepFrom, if_neg (by simp [here]), length]

section

variable {source : Text} {pos : Nat}

/-- The text that is left before an offset. -/
def leftBefore (source : Text) (pos : Nat) : Text :=
  keepFrom (isLeft source) 0 (source.take pos)

/-- The text that is left from an offset on. -/
def leftBehind (source : Text) (pos : Nat) : Text :=
  keepFrom (isLeft source) pos (source.drop pos)

theorem stripImports_eq_append (h : pos ≤ source.length) :
    stripImports source = leftBefore source pos ++ leftBehind source pos := by
  rw [stripImports_eq, keepFrom_take_drop _ pos, List.length_take, Nat.min_eq_left h, Nat.zero_add]
  rfl

/-- Where a line starts in what is left, one starts in the source or something was taken out right
before. -/
theorem startsLine_of_leftBefore (inside : pos < source.length) (left : isLeft source pos)
    (line : startsLine (leftBefore source pos).reverse) :
    startsLine (source.take pos).reverse ∨ ∃ span ∈ strippedSpans source, span.stop = pos := by
  cases pos with
  | zero => exact .inl rfl
  | succ before =>
    have grown : source.take (before + 1) = source.take before ++ [source[before]] :=
      List.take_succ_eq_append_getElem (by omega)
    cases here : isLeft source before with
    | true =>
      rw [leftBefore, grown, keepFrom_append, List.length_take, Nat.min_eq_left (by omega),
        Nat.zero_add, keepFrom, if_pos here, keepFrom, List.reverse_append] at line
      rw [grown, List.reverse_append]
      exact .inl line
    | false =>
      simp only [isLeft, Bool.not_eq_false', List.any_eq_true, Span.covers, Bool.and_eq_true,
        decide_eq_true_eq] at here
      obtain ⟨span, hm, after, reaches⟩ := here
      have ends := isLeft_iff.1 left span hm
      exact .inr ⟨span, hm, by omega⟩

/-- On a line everything behind a character that is left is left. -/
theorem isLeft_succ (left : isLeft source pos) (inLine : source[pos]? ≠ some '\n') :
    isLeft source (pos + 1) := by
  refine isLeft_iff.2 fun span hm => ?_
  have before := isLeft_iff.1 left span hm
  obtain ⟨found, here, -, rfl⟩ := mem_strippedSpans.1 hm
  obtain ⟨size, read, -, -, within⟩ := importStatement_of_mem here
  have line := (importStatement_reads read).1
  dsimp only at before ⊢
  by_contra taken
  have start : found.start = pos + 1 := by omega
  have here : source[pos]? = some source[pos] := List.getElem?_eq_getElem (by omega)
  rw [start, List.take_succ_eq_append_getElem (by omega), List.reverse_append] at line
  rw [here] at inLine
  exact inLine (congrArg some (beq_iff_eq.1 line))

/-- The rest of a line is left together. -/
theorem takeWhile_leftBehind :
    ∀ {ahead : Text} {pos : Nat}, isLeft source pos → source.drop pos = ahead →
    (keepFrom (isLeft source) pos ahead).takeWhile (· != '\n') = ahead.takeWhile (· != '\n')
  | [], _, _, _ => rfl
  | c :: cs, pos, left, here => by
    rw [keepFrom, if_pos left]
    by_cases ends : c = '\n'
    · rw [List.takeWhile_cons_of_neg (by simp [ends]), List.takeWhile_cons_of_neg (by simp [ends])]
    have next : source.drop (pos + 1) = cs := by rw [← List.drop_drop, here]; rfl
    have inLine : source[pos]? ≠ some '\n' := by
      rw [← Nat.add_zero pos, ← List.getElem?_drop, here]
      simpa using ends
    rw [List.takeWhile_cons_of_pos (by simp [ends]), List.takeWhile_cons_of_pos (by simp [ends]),
      takeWhile_leftBehind (isLeft_succ left inLine) next]

/-- A line that starts with `import` after stripping did so before. -/
theorem opensImport_of_leftBehind (left : isLeft source pos)
    (h : opensImport (leftBehind source pos)) : opensImport (source.drop pos) := by
  obtain ⟨indentation, rest, split, blank⟩ := opensImport_iff.1 h
  have line : ∀ c ∈ indentation ++ "import".toList, (c != '\n') = true := by
    have keyword : ∀ c ∈ "import".toList, (c != '\n') = true := by decide
    intro c hc
    rcases List.mem_append.1 hc with hc | hc
    · have := blank c hc
      simp only [isIndent, Bool.or_eq_true, beq_iff_eq] at this
      rcases this with rfl | rfl <;> rfl
    · exact keyword c hc
  have same := takeWhile_leftBehind left rfl
  rw [← leftBehind, split, ← List.append_assoc, List.takeWhile_append_of_pos line] at same
  refine opensImport_iff.2
    ⟨indentation, rest.takeWhile (· != '\n') ++ (source.drop pos).dropWhile (· != '\n'), ?_, blank⟩
  rw [← List.append_assoc, ← List.append_assoc, same, List.takeWhile_append_dropWhile]

/-- A statement that is found and left is read again with its own module. -/
theorem not_isStripped_of_left {found : Occurrence Text}
    (here : found ∈ occurrences importStatement source)
    (left : isLeft source found.start) {behind module_ : Text} {size : Nat}
    (again : importStatement behind (leftBehind source found.start) = some (module_, size)) :
    isStripped module_ = false := by
  obtain ⟨covered, read, stop, some, within⟩ := importStatement_of_mem here
  have kept : isStripped found.value = false := by
    by_contra stripped
    have taken := isLeft_iff.1 left ⟨found.start, found.stop⟩
      (mem_strippedSpans.2 ⟨found, here, by simpa using stripped, rfl⟩)
    dsimp only at taken
    omega
  have size : ((source.drop found.start).take covered).length = covered := by
    rw [List.length_take, List.length_drop]
    omega
  have whole : keepFrom (isLeft source) found.start ((source.drop found.start).take covered) =
      (source.drop found.start).take covered := by
    refine keepFrom_eq_self fun p after before => isLeft_iff.2 fun span hm => ?_
    obtain ⟨other, ho, stripped, rfl⟩ := mem_strippedSpans.1 hm
    have distinct : found ≠ other := by
      rintro rfl
      rw [kept] at stripped
      cases stripped
    have apart := disjoint_of_pairwise (importStatement_pairwise source) here ho distinct
    dsimp only
    omega
  rw [← List.take_append_drop covered (source.drop found.start)] at read
  rw [leftBehind, ← List.take_append_drop covered (source.drop found.start), keepFrom_append, whole]
    at again
  rw [importStatement_value (read.trans (by rw [size])) again, kept]

end

/-! ## What a second pass finds -/

/-- A statement of a stripped module is left that starts at an offset of the source. -/
def SurvivesAt (source : Text) (pos : Nat) : Prop :=
  isLeft source pos ∧ ∃ found ∈ occurrences importStatement (stripImports source),
    found.start = (leftBefore source pos).length ∧ isStripped found.value

/-- A statement is taken out up to an offset in the middle of a line. -/
def SharesLine (source : Text) (pos : Nat) : Prop :=
  startsLine (source.take pos).reverse = false ∧ ∃ span ∈ strippedSpans source, span.stop = pos

/-- A line starts with `import`, but not with a statement that is found. -/
def Unread (source : Text) (pos : Nat) : Prop :=
  startsLine (source.take pos).reverse ∧ opensImport (source.drop pos) ∧
    ∀ found ∈ occurrences importStatement source, found.start ≠ pos

/-- A statement that is left shares its line with one that was taken out, or was not read. -/
theorem SurvivesAt.sharesLine_or_unread {source : Text} {pos : Nat} (inside : pos < source.length)
    (h : SurvivesAt source pos) : SharesLine source pos ∨ Unread source pos := by
  obtain ⟨left, found, here, start, stripped⟩ := h
  obtain ⟨size, read, -⟩ := importStatement_of_mem here
  rw [stripImports_eq_append inside.le, start, List.take_left, List.drop_left] at read
  obtain ⟨line, opens, -⟩ := importStatement_reads read
  cases starts : startsLine (source.take pos).reverse with
  | true =>
    refine .inr ⟨starts, opensImport_of_leftBehind left opens, ?_⟩
    rintro first found rfl
    rw [not_isStripped_of_left found left read] at stripped
    cases stripped
  | false =>
    rcases startsLine_of_leftBefore inside left line with same | taken
    · rw [starts] at same
      cases same
    · exact .inl ⟨starts, taken⟩

/-- Every statement of a stripped module in what is left comes from an offset of the source. -/
theorem exists_survivesAt {source : Text} {found : Occurrence Text}
    (here : found ∈ occurrences importStatement (stripImports source))
    (stripped : isStripped found.value) : ∃ pos < source.length, SurvivesAt source pos := by
  obtain ⟨size, -, stop, some, within⟩ := importStatement_of_mem here
  have inside : found.start < (keepFrom (isLeft source) 0 source).length := by
    rw [← stripImports_eq]
    omega
  obtain ⟨pos, within, left, length⟩ := exists_kept_offset _ inside
  rw [Nat.zero_add] at left
  exact ⟨pos, within, left, found, here, length.symm, stripped⟩

/-- A second pass takes nothing out just if no statement is left behind one that was taken out of
the same line, nor on a line that starts with `import` but not with a statement that was found. -/
theorem stripImports_stripImports_iff (source : Text) :
    stripImports (stripImports source) = stripImports source ↔
    ∀ pos, SharesLine source pos ∨ Unread source pos → ¬SurvivesAt source pos := by
  rw [stripImports_eq_self_iff]
  constructor
  · rintro none pos - ⟨-, found, here, -, stripped⟩
    rw [none found here] at stripped
    cases stripped
  · intro none found here
    by_contra stripped
    obtain ⟨pos, inside, survives⟩ := exists_survivesAt here (by simpa using stripped)
    exact none pos (survives.sharesLine_or_unread inside) survives

/-- Two imports on one line. -/
def twoImports : Text :=
  "import './a'; import './b';\n".toList

/-- An import between the halves of another one. -/
def tornImport : Text :=
  "import x\nimport './a';\nfrom './y';\n".toList

/-- One pass leaves the second of two imports on a line, and an import whose halves it brings
together. -/
theorem stripImports_leaves_imports :
    stripImports twoImports = "import './b';\n".toList ∧
      stripImports (stripImports twoImports) = [] ∧
      stripImports tornImport = "import x\nfrom './y';\n".toList ∧
        stripImports (stripImports tornImport) = [] := by
  decide +kernel

end Recast
