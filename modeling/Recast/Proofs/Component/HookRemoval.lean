import Recast.Proofs.Component.HookExtraction
import Recast.Proofs.Scan.Found
import Recast.Proofs.Text.Gap
import Recast.Proofs.Text.Sweep
import Recast.Text.Length

/-!
# Taking hooks out of a body

`removeSpans` takes spans out of a text in the order of their starts, and goes on behind each of
them, wherever an earlier one ends. So a character is taken out just if it lies in the last span
that starts at or before it (`removeSpans_eq`), and not if it only lies in an earlier one: what is
left is never less than what lies outside all spans (`outside_sublist_removeSpans`), and it is more
just if a span ends inside another one with no span to take over there (`Leaks`,
`removeSpans_eq_outside_iff`).

The spans of state variables and effects come from two searches that know nothing of each other or
of comments, so that one may well lie in another one (`withoutHooks_eq_outside_iff`).
-/

namespace Recast

/-! ## Characters at offsets -/

/-- Whether an offset lies in a span. -/
def Span.covers (span : Span) (pos : Nat) : Bool :=
  span.start ≤ pos && pos < span.stop

/-- The characters of a text that starts at `pos` whose offsets are kept. -/
def keepFrom (keep : Nat → Bool) (pos : Nat) : Text → Text
  | [] => []
  | c :: cs => if keep pos then c :: keepFrom keep (pos + 1) cs else keepFrom keep (pos + 1) cs

/-- The characters of a text that lie in none of the spans. -/
def outside (spans : List Span) (t : Text) : Text :=
  keepFrom (fun pos => !spans.any (·.covers pos)) 0 t

section

variable {keep more : Nat → Bool}

theorem keepFrom_append (keep : Nat → Bool) (b : Text) : ∀ (a : Text) (pos : Nat),
    keepFrom keep pos (a ++ b) = keepFrom keep pos a ++ keepFrom keep (pos + a.length) b
  | [], _ => rfl
  | c :: cs, pos => by
    have ih := keepFrom_append keep b cs (pos + 1)
    rw [Nat.add_assoc, Nat.add_comm 1] at ih
    rw [List.cons_append, keepFrom, keepFrom, ih, List.length_cons]
    split <;> rfl

theorem keepFrom_take_drop (keep : Nat → Bool) (n : Nat) (t : Text) :
    keepFrom keep 0 t = keepFrom keep 0 (t.take n) ++
      keepFrom keep (0 + (t.take n).length) (t.drop n) := by
  rw [← keepFrom_append, List.take_append_drop]

theorem keepFrom_congr :
    ∀ {t : Text} {pos : Nat}, (∀ p, pos ≤ p → p < pos + t.length → keep p = more p) →
    keepFrom keep pos t = keepFrom more pos t
  | [], _, _ => rfl
  | c :: cs, pos, h => by
    have ih : keepFrom keep (pos + 1) cs = keepFrom more (pos + 1) cs :=
      keepFrom_congr fun p after before => h p (by omega) (by rw [List.length_cons]; omega)
    rw [keepFrom, keepFrom, ih, h pos (Nat.le_refl _) (by rw [List.length_cons]; omega)]

theorem keepFrom_eq_nil {t : Text} {pos : Nat}
    (h : ∀ p, pos ≤ p → p < pos + t.length → keep p = false) : keepFrom keep pos t = [] := by
  have none : ∀ (t : Text) (pos : Nat), keepFrom (fun _ => false) pos t = [] := by
    intro t
    induction t with
    | nil => exact fun _ => rfl
    | cons c cs ih => exact fun pos => ih (pos + 1)
  rw [keepFrom_congr h, none]

/-- Keeping everything from an offset on drops what comes before it. -/
theorem keepFrom_from (last : Nat) : ∀ (t : Text) (pos : Nat),
    keepFrom (fun p => decide (last ≤ p)) pos t = t.drop (last - pos)
  | [], _ => by rw [keepFrom, List.drop_nil]
  | c :: cs, pos => by
    rw [keepFrom, keepFrom_from last cs (pos + 1)]
    by_cases reached : last ≤ pos
    · rw [if_pos (decide_eq_true reached), Nat.sub_eq_zero_of_le reached,
        Nat.sub_eq_zero_of_le (by omega)]
      rfl
    · rw [if_neg (by simpa using reached), show last - pos = last - (pos + 1) + 1 by omega]
      rfl

/-- Who keeps more offsets keeps more of the text, and the same text only if the offsets are the
same. -/
theorem keepFrom_sublist (h : ∀ p, keep p → more p) : ∀ (t : Text) (pos : Nat),
    (keepFrom keep pos t).Sublist (keepFrom more pos t) ∧
      (keepFrom more pos t = keepFrom keep pos t ↔ ∀ p, pos ≤ p → p < pos + t.length → more p →
        keep p)
  | [], pos => ⟨List.Sublist.refl _, iff_of_true rfl fun p after before => by
      rw [List.length_nil] at before
      omega⟩
  | c :: cs, pos => by
    obtain ⟨part, same⟩ := keepFrom_sublist h cs (pos + 1)
    have split : (∀ p, pos ≤ p → p < pos + (c :: cs).length → more p → keep p) ↔
        (more pos → keep pos) ∧ ∀ p, pos + 1 ≤ p → p < pos + 1 + cs.length → more p → keep p := by
      rw [List.length_cons]
      constructor
      · exact fun all => ⟨all pos (Nat.le_refl _) (by omega),
          fun p after before => all p (by omega) (by omega)⟩
      · rintro ⟨here, rest⟩ p after before
        rcases Nat.eq_or_lt_of_le after with rfl | later
        · exact here
        · exact rest p later (by omega)
    rw [split, keepFrom, keepFrom]
    cases kept : keep pos with
    | true =>
      rw [if_pos rfl, if_pos (h pos kept), List.cons_inj_right, same]
      exact ⟨part.cons_cons c, (and_iff_right fun _ => rfl).symm⟩
    | false =>
      rw [if_neg Bool.false_ne_true]
      cases wanted : more pos with
      | false =>
        rw [if_neg Bool.false_ne_true, same]
        exact ⟨part, (and_iff_right fun no => no).symm⟩
      | true =>
        rw [if_pos rfl]
        refine ⟨part.cons c,
          iff_of_false (fun equal => ?_) fun both => Bool.false_ne_true (both.1 rfl)⟩
        -- one character more is too many
        have longer := congrArg List.length equal
        have fits := part.length_le
        rw [List.length_cons] at longer
        omega

end

/-! ## The last span that starts -/

/-- The order in which spans are taken out: by start, then by end. -/
def Span.le (a b : Span) : Bool :=
  a.start < b.start || (a.start == b.start && a.stop ≤ b.stop)

theorem Span.le_iff {a b : Span} :
    a.le b ↔ a.start < b.start ∨ a.start = b.start ∧ a.stop ≤ b.stop := by
  simp [Span.le]

/-- Where the last of the spans that starts at or before an offset ends, for spans in order; `last`
if none does. -/
def reach (last : Nat) : List Span → Nat → Nat
  | [], _ => last
  | span :: spans, pos => if span.start ≤ pos then reach span.stop spans pos else last

/-- The spans in the order in which they are taken out. -/
def inOrder (spans : List Span) : List Span :=
  spans.mergeSort Span.le

theorem pairwise_inOrder (spans : List Span) : (inOrder spans).Pairwise fun a b => a.le b := by
  refine List.pairwise_mergeSort (fun a b c => ?_) (fun a b => ?_) spans
  · simp only [Span.le_iff]
    omega
  · simp only [Bool.or_eq_true, Span.le_iff]
    omega

theorem mem_inOrder {spans : List Span} {span : Span} : span ∈ inOrder spans ↔ span ∈ spans :=
  List.mem_mergeSort

/-- Sorting the edits that take spans out is sorting the spans. -/
theorem sorted_removals (spans : List Span) :
    (spans.map fun span => (⟨span, []⟩ : Edit)).mergeSort Edit.le = (inOrder spans).map fun span =>
      ⟨span, []⟩ := by
  refine mergeSort_eq_of_perm ((List.mergeSort_perm spans _).symm.map _) ?_
  rw [List.pairwise_map]
  refine (pairwise_inOrder spans).imp fun {a b} before => ?_
  rw [Span.le_iff] at before
  rw [Edit.le_iff]
  rcases before with earlier | ⟨same, shorter⟩
  · exact .inl earlier
  · rcases Nat.lt_or_eq_of_le shorter with less | equal
    · exact .inr ⟨same, .inl less⟩
    · exact .inr ⟨same, .inr ⟨equal, rfl⟩⟩

/-- Taking out spans in order keeps the characters that the last span before them does not reach. -/
theorem replaceFrom_removals (t : Text) : ∀ {spans : List Span} (last : Nat),
    (spans.Pairwise fun a b => a.le b) → (∀ span ∈ spans, span.start ≤ span.stop) →
      replaceFrom t last (spans.map fun span => ⟨span, []⟩) =
        keepFrom (fun pos => decide (reach last spans pos ≤ pos)) 0 t
  | [], last, _, _ => by rw [List.map_nil, replaceFrom]; exact (keepFrom_from last t 0).symm
  | span :: spans, last, sorted, valid => by
    obtain ⟨first, sorted⟩ := List.pairwise_cons.1 sorted
    obtain ⟨inside, valid⟩ := List.forall_mem_cons.1 valid
    have ih := replaceFrom_removals t span.stop sorted valid
    -- the cursor is at the end of the span, so nothing before its start is kept any more
    have early : ∀ p, p < span.start → span.stop ≤ reach span.stop spans p := by
      intro p before
      cases spans with
      | nil => exact Nat.le_refl _
      | cons next rest =>
        have later := Span.le_iff.1 (first next List.mem_cons_self)
        rw [reach, if_neg (by omega)]
    have size := List.length_take_le span.start t
    have front : keepFrom (fun pos => decide (reach span.stop spans pos ≤ pos)) 0
        (t.take span.start) = [] := by
      refine keepFrom_eq_nil fun p _ before => decide_eq_false ?_
      have := early p (by omega)
      omega
    have copied : keepFrom (fun pos => decide (reach last (span :: spans) pos ≤ pos)) 0
        (t.take span.start) =
        slice t last span.start := by
      refine Eq.trans (keepFrom_congr fun p _ before => ?_)
        (keepFrom_from last (t.take span.start) 0)
      rw [reach, if_neg (by omega)]
    have behind : keepFrom (fun pos => decide (reach last (span :: spans) pos ≤ pos))
        (0 + (t.take span.start).length)
        (t.drop span.start) =
        keepFrom (fun pos => decide (reach span.stop spans pos ≤ pos))
          (0 + (t.take span.start).length)
          (t.drop span.start) := by
      refine keepFrom_congr fun p after before => ?_
      rw [List.length_drop] at before
      rw [List.length_take] at after before
      rw [reach, if_pos (by omega)]
    rw [List.map_cons, replaceFrom, ih, keepFrom_take_drop _ span.start t, front, List.nil_append,
      List.append_nil, keepFrom_take_drop _ span.start t, copied, behind]

/-- What is left of a text are the characters that the last span before them does not reach. -/
theorem removeSpans_eq (t : Text) {spans : List Span}
    (valid : ∀ span ∈ spans, span.start ≤ span.stop) :
    removeSpans t spans = keepFrom (fun pos => decide (reach 0 (inOrder spans) pos ≤ pos)) 0 t := by
  rw [removeSpans, sorted_removals, replaceSpans]
  exact replaceFrom_removals t 0 (pairwise_inOrder spans) fun span hm =>
    valid span (mem_inOrder.1 hm)

/-- The end of the last span that starts at or before an offset, with the spans that it comes
behind. -/
theorem reach_found {pos : Nat} :
    ∀ {spans : List Span} (last : Nat), (spans.Pairwise fun a b => a.le b) →
    (∃ span ∈ spans, span.start ≤ pos) →
      ∃ span ∈ spans, span.start ≤ pos ∧ reach last spans pos = span.stop ∧
        ∀ other ∈ spans, other.start ≤ pos → other.le span
  | [], _, _, started => by
    obtain ⟨_, none, _⟩ := started
    cases none
  | span :: spans, last, sorted, started => by
    obtain ⟨first, sorted⟩ := List.pairwise_cons.1 sorted
    have here : span.start ≤ pos := by
      obtain ⟨other, hm, before⟩ := started
      rcases List.mem_cons.1 hm with rfl | hm
      · exact before
      · have := Span.le_iff.1 (first other hm)
        omega
    rw [reach, if_pos here]
    by_cases later : ∃ span ∈ spans, span.start ≤ pos
    · obtain ⟨found, hm, before, stop, greatest⟩ := reach_found span.stop sorted later
      refine ⟨found, List.mem_cons_of_mem _ hm, before, stop, fun other ho started => ?_⟩
      rcases List.mem_cons.1 ho with rfl | ho
      · exact first found hm
      · exact greatest other ho started
    · refine ⟨span, List.mem_cons_self, here, ?_, fun other ho started => ?_⟩
      · cases spans with
        | nil => rfl
        | cons next rest =>
          rw [reach, if_neg fun before => later ⟨next, List.mem_cons_self, before⟩]
      · rcases List.mem_cons.1 ho with rfl | ho
        · exact Span.le_iff.2 (.inr ⟨rfl, Nat.le_refl _⟩)
        · exact absurd ⟨other, ho, started⟩ later

/-! ## What is left over -/

/-- One of the spans ends inside an earlier one, and no later span starts before that end. -/
def Leaks (spans : List Span) : Prop :=
  ∃ outer ∈ spans, ∃ inner ∈ spans, outer.start ≤ inner.start ∧ inner.stop < outer.stop ∧
    ∀ other ∈ spans, other.start ≤ inner.stop → other.le inner

instance (spans : List Span) : Decidable (Leaks spans) :=
  inferInstanceAs (Decidable (∃ outer ∈ spans, ∃ inner ∈ spans, _ ∧ _ ∧ ∀ other ∈ spans, _))

section

variable {spans : List Span} {t : Text}

/-- An offset that is kept although a span covers it comes from a leak. -/
theorem leaks_of_covered (valid : ∀ span ∈ spans, span.start ≤ span.stop) {pos : Nat} {outer : Span}
    (hm : outer ∈ spans)
    (covered : outer.covers pos) (kept : reach 0 (inOrder spans) pos ≤ pos) : Leaks spans := by
  simp only [Span.covers, Bool.and_eq_true, decide_eq_true_eq] at covered
  obtain ⟨inner, hi, started, stop, greatest⟩ :=
    reach_found 0 (pairwise_inOrder spans) ⟨outer, mem_inOrder.2 hm, covered.1⟩
  have before := Span.le_iff.1 (greatest outer (mem_inOrder.2 hm) covered.1)
  have inside := valid inner (mem_inOrder.1 hi)
  refine ⟨outer, hm, inner, mem_inOrder.1 hi, by omega, by omega, fun other ho early => ?_⟩
  exact greatest other (mem_inOrder.2 ho) (by omega)

/-- At a leak an offset is kept that a span covers. -/
theorem Leaks.exists_covered (valid : ∀ span ∈ spans, span.start ≤ span.stop ∧ span.stop ≤ t.length)
    (h : Leaks spans) :
    ∃ pos < t.length, (spans.any (·.covers pos)) ∧ reach 0 (inOrder spans) pos ≤ pos := by
  obtain ⟨outer, ho, inner, hi, after, inside, greatest⟩ := h
  have bounds := valid inner hi
  have fits := valid outer ho
  refine ⟨inner.stop, by omega, List.any_eq_true.2 ⟨outer, ho, ?_⟩, ?_⟩
  · simp only [Span.covers, Bool.and_eq_true, decide_eq_true_eq]
    omega
  · obtain ⟨found, hf, started, stop, last⟩ :=
      reach_found 0 (pairwise_inOrder spans) ⟨inner, mem_inOrder.2 hi, bounds.1⟩
    have before := Span.le_iff.1 (last inner (mem_inOrder.2 hi) bounds.1)
    have behind := Span.le_iff.1 (greatest found (mem_inOrder.1 hf) started)
    omega

/-- Nothing outside the spans is taken out. -/
theorem kept_of_outside (pos : Nat) (h : !spans.any (·.covers pos)) :
    decide (reach 0 (inOrder spans) pos ≤ pos) := by
  rw [decide_eq_true_eq]
  by_cases started : ∃ span ∈ inOrder spans, span.start ≤ pos
  · obtain ⟨span, hm, before, stop, -⟩ := reach_found 0 (pairwise_inOrder spans) started
    rw [Bool.not_eq_true', List.any_eq_false] at h
    have free := h span (mem_inOrder.1 hm)
    simp only [Span.covers, Bool.and_eq_true, decide_eq_true_eq] at free
    omega
  · cases sorted : inOrder spans with
    | nil => exact Nat.zero_le _
    | cons first rest =>
      rw [sorted] at started
      rw [reach, if_neg fun before => started ⟨first, List.mem_cons_self, before⟩]
      exact Nat.zero_le _

theorem outside_sublist_removeSpans (valid : ∀ span ∈ spans, span.start ≤ span.stop) (t : Text) :
    (outside spans t).Sublist (removeSpans t spans) := by
  rw [removeSpans_eq t valid]
  exact (keepFrom_sublist kept_of_outside t 0).1

/-- Just what lies in the spans is taken out, unless there is a leak. -/
theorem removeSpans_eq_outside_iff
    (valid : ∀ span ∈ spans, span.start ≤ span.stop ∧ span.stop ≤ t.length) :
    removeSpans t spans = outside spans t ↔ ¬Leaks spans := by
  have ordered : ∀ span ∈ spans, span.start ≤ span.stop := fun span hm => (valid span hm).1
  rw [removeSpans_eq t ordered, outside, (keepFrom_sublist kept_of_outside t 0).2]
  constructor
  · intro same leaks
    obtain ⟨pos, inside, covered, kept⟩ := leaks.exists_covered valid
    have free := same pos (Nat.zero_le _) (by omega) (decide_eq_true kept)
    rw [covered] at free
    cases free
  · intro sound pos _ _ kept
    rw [Bool.not_eq_true', List.any_eq_false]
    exact fun outer hm covered =>
      sound (leaks_of_covered ordered hm covered (of_decide_eq_true kept))

end

/-! ## The spans of hooks -/

/-- The spans of the statements of state variables and effects. -/
def hookSpans (body : Text) : List Span :=
  (findState body).map (·.2) ++ (findEffects body).map (·.2)

theorem statementEnd_bounds {t : Text} {stop : Nat} (h : stop ≤ t.length) :
    stop ≤ statementEnd t stop ∧ statementEnd t stop ≤ t.length := by
  have shorter : ∀ (mark : Char) (rest : Text), ((dropHead? [mark] rest).getD rest).length ≤
      rest.length := by
    intro mark rest
    cases taken : dropHead? [mark] rest with
    | none => exact Nat.le_refl _
    | some after => exact length_dropHead?_le taken
  have blanks : ∀ t : Text, (t.dropWhile isIndent).length ≤ t.length :=
    fun t => (List.dropWhile_sublist _).length_le
  rw [statementEnd]
  have first := blanks (t.drop stop)
  have second := shorter ';' ((t.drop stop).dropWhile isIndent)
  have third := blanks
    ((dropHead? [';'] ((t.drop stop).dropWhile isIndent)).getD ((t.drop stop).dropWhile isIndent))
  have fourth := shorter '\n'
    (((dropHead? [';'] ((t.drop stop).dropWhile isIndent)).getD
      ((t.drop stop).dropWhile isIndent)).dropWhile isIndent)
  rw [List.length_drop] at first
  omega

/-- A statement starts at or before its call and ends at or behind the bracket of the call. -/
theorem statement_bounds {α : Type} {recognise : Recogniser α} {body : Text} {found : Occurrence α}
    {stop : Nat}
    (here : found ∈ occurrences recognise body)
    (closed : bracketEndAt? body (found.stop - 1) = some stop) :
    lineStart body found.start ≤ statementEnd body stop ∧ statementEnd body stop ≤ body.length := by
  obtain ⟨passed, ahead, size, -, -, start, opening⟩ := exists_of_mem_occurrencesFrom here
  have bounds := bracketEndAt?_bounds closed
  have after := statementEnd_bounds bounds.2
  have before : lineStart body found.start ≤ found.start := Nat.sub_le _ _
  omega

theorem hookSpans_bounds {body : Text} {span : Span} (h : span ∈ hookSpans body) :
    span.start ≤ span.stop ∧ span.stop ≤ body.length := by
  rcases List.mem_append.1 h with h | h
  · obtain ⟨_, found, rfl⟩ := List.mem_map.1 h
    obtain ⟨opening, here, made⟩ := List.mem_filterMap.1 found
    obtain ⟨stop, closed, rfl⟩ := Option.map_eq_some_iff.1 made
    exact statement_bounds here closed
  · obtain ⟨_, found, rfl⟩ := List.mem_map.1 h
    obtain ⟨opening, here, made⟩ := List.mem_filterMap.1 found
    simp only [Option.bind_eq_bind, Option.bind_eq_some_iff] at made
    obtain ⟨⟨arguments, stop⟩, call, callback, -, effectBody, -, made⟩ := made
    obtain ⟨_, closed, same⟩ := Option.map_eq_some_iff.1 call
    obtain ⟨-, rfl⟩ := Prod.mk.inj same
    obtain rfl := Option.some.inj made
    exact statement_bounds here closed

/-- What is left of a body are the characters that the last hook before them does not reach. -/
theorem withoutHooks_eq (body : Text) :
    withoutHooks body = keepFrom (fun pos => decide (reach 0 (inOrder (hookSpans body)) pos ≤ pos))
      0 body :=
  removeSpans_eq body fun _ hm => (hookSpans_bounds hm).1

/-- Taking the hooks out of a body takes out the characters that lie in the last hook before them.
Everything outside the hooks is kept in order, and nothing else just if no hook ends inside another
one without a later hook to take over. -/
theorem withoutHooks_eq_outside_iff (body : Text) :
    withoutHooks body = keepFrom (fun pos => decide (reach 0 (inOrder (hookSpans body)) pos ≤ pos))
      0 body ∧
      (outside (hookSpans body) body).Sublist (withoutHooks body) ∧
      (withoutHooks body = outside (hookSpans body) body ↔ ¬Leaks (hookSpans body)) := by
  exact ⟨withoutHooks_eq body,
    outside_sublist_removeSpans (fun _ hm => (hookSpans_bounds hm).1) body,
    removeSpans_eq_outside_iff fun _ hm => hookSpans_bounds hm⟩

/-- An effect with an old one in a comment. -/
def commentedEffect : Text :=
  "useEffect(() => \x7b\n  // useEffect(() => \x7b old(); \x7d, []);\n  run();\n\x7d, []);\n".toList

theorem hookSpans_commentedEffect : hookSpans commentedEffect = [⟨0, 73⟩, ⟨22, 56⟩] := by
  decide +kernel

/-- The rest of an effect behind a hook in one of its comments is left over. -/
theorem withoutHooks_commentedEffect :
    Leaks (hookSpans commentedEffect) ∧ outside (hookSpans commentedEffect) commentedEffect = [] ∧
      withoutHooks commentedEffect = "  run();\n\x7d, []);\n".toList := by
  have sorted : inOrder [⟨0, 73⟩, ⟨22, 56⟩] = [⟨0, 73⟩, ⟨22, 56⟩] :=
    List.mergeSort_of_pairwise (by decide)
  rw [withoutHooks_eq, hookSpans_commentedEffect, sorted]
  decide +kernel

end Recast
