import Recast.Proofs.Scope.Binders
import Recast.Proofs.Scope.LiteralsKept

/-!
# Names that are bound locally

Where a name is bound, a word that spells it is no reference, whatever it reads as otherwise
(`not_mem_proposals`). Edits cover whole words, so qualifying leaves each occurrence of a name alone
that stands in a binder of it (`bound_name_kept`), as long as the binder is seen.
-/

namespace Recast

/-! ## Code without markup -/

/-- No `<` of the text opens markup. -/
def WithoutMarkup (t : Text) : Prop :=
  ∀ pos, opensMarkupAt t pos = false

theorem takeWhile_append_cons_of_neg {p : Char → Bool} {c : Char} (stop : p c = false)
    (t s : Text) : (s ++ c :: t).takeWhile p = s.takeWhile p := by
  induction s with
  | nil => simp [stop]
  | cons d s ih => rw [List.cons_append, List.takeWhile_cons, List.takeWhile_cons, ih]

/-- What comes before an opening bracket has no say in whether markup opens behind it. -/
theorem opensMarkup_behind_opener (kind : Bracket) (passed before ahead : Text) :
    opensMarkup (passed ++ kind.opener :: before) ahead =
      opensMarkup (passed ++ [kind.opener]) ahead := by
  have layout : isLayout kind.opener = false := by cases kind <;> decide
  have name : isNameChar kind.opener = false := by cases kind <;> decide
  have behind : ∀ before, (passed ++ kind.opener :: before).dropWhile isLayout =
      passed.dropWhile isLayout ++ kind.opener :: before := fun before =>
    dropWhile_append_of_head (by rintro c ⟨⟩; exact layout)
  cases ahead with
  | nil => rfl
  | cons next rest =>
    rw [opensMarkup, opensMarkup, behind, behind]
    cases passed.dropWhile isLayout with
    | nil => simp [name]
    | cons last more =>
      have word := takeWhile_append_cons_of_neg name before (last :: more)
      have word' := takeWhile_append_cons_of_neg name [] (last :: more)
      rw [List.cons_append] at word word'
      simp only [List.cons_append, word, word']

theorem WithoutMarkup.unmarked {t : Text} (h : WithoutMarkup t) : Unmarked t := by
  rintro before kind passed ahead rfl
  have here := h (before ++ kind.opener :: passed).length
  have split : before ++ kind.opener :: (passed ++ '<' :: ahead) =
      (before ++ kind.opener :: passed) ++ '<' :: ahead := by
    simp
  rw [opensMarkupAt, split, List.drop_left, List.take_left] at here
  simpa [opensMarkup_behind_opener] using here

theorem withoutMarkup_of_not_mem {t : Text} (h : '<' ∉ t) : WithoutMarkup t := by
  intro pos
  rw [opensMarkupAt]
  split
  · rename_i c cs here
    have other : (c == '<') = false := by
      rw [beq_eq_false_iff_ne]
      rintro rfl
      exact h (List.mem_of_mem_drop (here ▸ List.mem_cons_self))
    rw [other, Bool.false_and]
  · rfl

/-! ## Occurrences of a name -/

/-- The name stands at an offset as a whole word. -/
structure StandsAt (t : Text) (pos : Nat) (name : Text) : Prop where
  valid : isWord name
  free : startsFree (t.take pos).reverse
  word : wordAhead (t.drop pos) = name

/-- Inside a word no word starts. -/
theorem startsFree_inside {t : Text} {start pos : Nat} (after : start < pos)
    (inside : pos < start + (wordAhead (t.drop start)).length) :
    startsFree (t.take pos).reverse = false := by
  obtain ⟨c, last, name⟩ : ∃ c, t[pos - 1]? = some c ∧ isNameChar c := by
    have short : pos - 1 - start < (wordAhead (t.drop start)).length := by omega
    obtain ⟨c, found⟩ : ∃ c, (wordAhead (t.drop start))[pos - 1 - start]? = some c :=
      ⟨_, List.getElem?_eq_getElem short⟩
    have ahead : (t.drop start)[pos - 1 - start]? = some c := by
      rw [← wordAhead_append_afterWord (t.drop start), List.getElem?_append_left short, found]
    rw [List.getElem?_drop, show start + (pos - 1 - start) = pos - 1 by omega] at ahead
    exact ⟨c, ahead, List.mem_takeWhile_imp (List.mem_of_getElem? found)⟩
  have head : (t.take pos).reverse.head? = some c := by
    rw [List.head?_reverse, List.getLast?_take, if_neg (by omega), last]
    rfl
  simp [startsFree, head, name]

variable {state : List Text} {props : List (Text × Text)} {refs : References}
  {scopes : List BindingScope}

theorem startsFree_of_mem_proposals {place : Place} {edit : Edit}
    (h : edit ∈ proposals refs scopes place) : startsFree place.behind := by
  by_contra inside
  rw [proposals, if_neg inside] at h
  cases h

/-- A bound name is no reference. -/
theorem not_mem_proposals {place : Place} (bound : isBound scopes place.mention.name place.pos)
    (edit : Edit) : edit ∉ proposals refs scopes place := by
  intro proposed
  rcases mem_proposals proposed with ⟨refers, -⟩ | ⟨refers, -⟩ | ⟨refers, -⟩
  · simp [Mention.refers, bound] at refers
  · simp [Mention.refersToProps, bound] at refers
  · simp [Mention.refersToSetter, bound] at refers

/-- An edit at another place does not touch a word. -/
theorem StandsAt.apart {code name : Text} {pos : Nat} (stands : StandsAt code pos name)
    {place : Place}
    (here : place ∈ places code) (other : place.pos ≠ pos) {edit : Edit}
    (proposed : edit ∈ proposals refs scopes place) :
    edit.span.stop ≤ pos ∨ pos + name.length ≤ edit.span.start := by
  have behind := take_of_mem_places here
  have ahead := drop_of_mem_places here
  have free := startsFree_of_mem_proposals proposed
  -- Neither word starts inside the other one.
  have before : place.pos < pos → place.pos + place.mention.name.length ≤ pos := by
    intro earlier
    by_contra inside
    have starts := startsFree_inside (t := code) earlier (by rw [ahead]; exact Nat.not_le.1 inside)
    rw [stands.free] at starts
    cases starts
  have after : pos < place.pos → pos + name.length ≤ place.pos := by
    intro later
    by_contra inside
    have starts :=
      startsFree_inside (t := code) later (by rw [stands.word]; exact Nat.not_le.1 inside)
    rw [behind, free] at starts
    cases starts
  have word : place.pos + place.mention.name.length ≤ pos ∨ pos + name.length ≤ place.pos := by
    omega
  rcases mem_proposals proposed with ⟨-, rfl⟩ | ⟨refers, rfl⟩ | ⟨-, rfl⟩
  · exact word
  · -- The dot behind the props object is in no word.
    have props : place.mention.name = "props".toList := name_eq_props refers
    have size : place.mention.name.length = 5 := by rw [props]; rfl
    have dot : pos ≠ place.pos + 5 := by
      rintro rfl
      have rest : code.drop (place.pos + 5) = afterWord place.ahead := by
        rw [← List.drop_drop, ahead, ← size]
        nth_rewrite 1 [← wordAhead_append_afterWord place.ahead]
        exact List.drop_left
      obtain ⟨cs, cons⟩ := List.head?_eq_some_iff.1 (head?_of_refersToProps refers)
      have word := stands.word
      rw [rest, show afterWord place.ahead = '.' :: cs from cons] at word
      exact ne_nil_of_isWord stands.valid word.symm
    dsimp only
    omega
  · exact word

theorem isBound_of_boundOver {name : Text} {start stop pos : Nat}
    (h : BoundOver scopes name start stop)
    (after : start ≤ pos) (inside : pos < stop) : isBound scopes name pos := by
  obtain ⟨scope, mem, first, last, bound⟩ := h
  refine List.any_eq_true.2 ⟨scope, mem, ?_⟩
  simp only [Bool.and_eq_true, decide_eq_true_eq, List.contains_iff_mem]
  exact ⟨⟨by omega, by omega⟩, bound⟩

/-! ## Names that are left alone -/

/-- Qualifying leaves the name at an offset alone: no edit touches it, and it is copied between what
becomes of the text before it and behind it. -/
def LeavesAlone (state : List Text) (props : List (Text × Text)) (body : Text) (pos : Nat)
    (name : Text) : Prop :=
  (∀ edit ∈ qualifyEdits state props body, edit.span.stop ≤ pos ∨
    pos + name.length ≤ edit.span.start) ∧
    ∃ first second, dropOverlaps 0 ((qualifyEdits state props body).mergeSort Edit.le) = first ++
      second ∧
      qualify state props body = replaceSpans (body.take pos) first ++ name ++
        replaceFrom body (pos + name.length) second

/-- The body has the words of its masked copy. -/
theorem StandsAt.slice_body {body name : Text} {pos : Nat}
    (stands : StandsAt (mask body) pos name) : slice body pos (pos + name.length) = name := by
  have inside : pos ≤ (mask body).length := by
    by_contra outside
    have word := stands.word
    rw [List.drop_eq_nil_of_le (by omega)] at word
    exact ne_nil_of_isWord stands.valid word.symm
  have split : mask body = (mask body).take pos ++ (name ++ afterWord ((mask body).drop pos)) := by
    rw [← stands.word, wordAhead_append_afterWord, List.take_append_drop]
  have edit := editsCode_of_piece (· = name) split (ne_nil_of_isWord stands.valid)
    (not_isBarrier_of_isWord stands.valid)
    rfl []
  have here := edit.kind
  rwa [Span.of, List.length_take, Nat.min_eq_left inside] at here

/-- A name is left alone where it is bound. -/
theorem leavesAlone_of_isBound (words : ∀ name ∈ state ++ props.map (·.1), isWord name)
    {body name : Text} {pos : Nat}
    (stands : StandsAt (mask body) pos name)
    (bound : isBound (bindingScopes (mask body)) name pos) :
    LeavesAlone state props body pos name := by
  have apart : ∀ edit ∈ qualifyEdits state props body, edit.span.stop ≤ pos ∨
      pos + name.length ≤ edit.span.start := by
    intro edit mem
    obtain ⟨place, here, made⟩ := exists_proposal words mem
    refine stands.apart here ?_ made
    rintro rfl
    have same : place.mention.name = name := by
      rw [← stands.word, drop_of_mem_places here]
      rfl
    exact not_mem_proposals (same ▸ bound) edit made
  have code : ∀ edit ∈ (qualifyEdits state props body).mergeSort Edit.le,
      edit.span.start < edit.span.stop ∧ edit.span.stop ≤ body.length := by
    intro edit mem
    obtain ⟨place, here, made⟩ := exists_proposal words (List.mem_mergeSort.1 mem)
    have edits := editsCode_of_mem_proposals words here made
    exact ⟨edits.inside, edits.fits⟩
  refine ⟨apart, ?_⟩
  have kept := replaceFrom_untouched (Nat.le_add_right pos name.length) (Nat.zero_le pos)
    (orderedFrom_dropOverlaps (Nat.zero_le _) code)
    fun edit mem => apart edit (List.mem_mergeSort.1 (mem_of_mem_dropOverlaps mem))
  rwa [stands.slice_body] at kept

/-- Names that are bound locally are left alone: a name that a binder of the masked body binds is
not edited in the parameters and the body of an arrow function or function, nor from a declaration
to the end of its block, nor in a loop whose header declares it. The body has no markup, and the
binder is one that is seen. -/
theorem bound_name_kept (words : ∀ name ∈ state ++ props.map (·.1), isWord name) {body name : Text}
    (markup : WithoutMarkup (mask body)) (binder : Binder) (before after : Text)
    (code : mask body = before ++ (binder.lead ++ (binder.scope ++ after)))
    (fits : binder.Fits before.reverse after)
    (seen : binder.Seen before.reverse) (binds : binder.Binds name) {pos : Nat}
    (start : (before ++ binder.lead).length ≤ pos)
    (stop : pos < (before ++ binder.lead).length + binder.scope.length)
    (stands : StandsAt (mask body) pos name) : LeavesAlone state props body pos name :=
  leavesAlone_of_isBound words stands
    (isBound_of_boundOver (binder.boundOver markup.unmarked code fits seen binds) start stop)

/-- A declaration whose first declarator is the name of a state variable. -/
def firstDeclarator : Declaration where
  keyword := "const".toList
  valid := by decide
  gap := ⟨" ".toList, by decide⟩
  passed := []
  place := .inl rfl
  rest := "count = 2, a = 1; use(count);".toList

theorem binds_firstDeclarator : Binds "count".toList .element firstDeclarator.rest :=
  have here : Binds "count".toList .element
      ([] ++ ("count".toList ++ " = 2, a = 1; use(count);".toList)) :=
    .name rfl (by decide) (by rintro c ⟨⟩; decide)
  here

theorem bound_name_kept_firstDeclarator :
    LeavesAlone ["count".toList] [] "const count = 2, a = 1; use(count);".toList 28 "count".toList ∧
      qualify ["count".toList] [] "const count = 2, a = 1; use(count);".toList =
        "const count = 2, a = 1; use(count);".toList := by
  refine ⟨?_, by decide +kernel⟩
  exact bound_name_kept (by decide) (withoutMarkup_of_not_mem (by decide +kernel))
    (.declaration firstDeclarator (by decide)) [] [] (by decide +kernel) ⟨by decide, by rintro c ⟨⟩⟩
      ⟨rfl, by decide⟩
    binds_firstDeclarator (by decide) (by decide +kernel)
      ⟨by decide, by decide +kernel, by decide +kernel⟩

/-- A declaration whose second declarator is the name of a state variable. -/
def laterDeclarator : Declaration where
  keyword := "const".toList
  valid := by decide
  gap := ⟨" ".toList, by decide⟩
  passed := "a = 1,".toList
  place := .inr ⟨"a = 1".toList, closed_of_plain (by decide), rfl⟩
  rest := " count = 2; use(count);".toList

theorem binds_laterDeclarator : Binds "count".toList .element laterDeclarator.rest :=
  have here : Binds "count".toList .element
      (" ".toList ++ ("count".toList ++ " = 2; use(count);".toList)) :=
    .name (by decide) (by decide) (by rintro c ⟨⟩; decide)
  here

/-- The declaration as a piece of code that binds the name. -/
def laterStatement : Binder :=
  .declaration laterDeclarator (by decide)

/-- An arrow function whose parameter is the name of a state variable. -/
def branchArrow : Binder :=
  .arrow (.one "x".toList (by decide)) ⟨" ".toList, by decide⟩
    (.expression ⟨" ".toList, by decide⟩ "x".toList ⟨'x', [], rfl, by decide, by decide⟩
      (by decide))

/-- Names whose binders are not seen are edited: those of a later declarator, and the parameter of
an arrow function that is the last branch of a conditional behind a call. -/
theorem unseen_names_edited :
    (mask "const a = 1, count = 2; use(count);".toList = laterStatement.scope ∧
      laterStatement.Fits [] [] ∧
      laterStatement.Binds "count".toList ∧
      qualify ["count".toList] [] "const a = 1, count = 2; use(count);".toList =
        "const a = 1, this.count = 2; use(this.count);".toList) ∧
    mask "ok ? f(a) : x => x".toList = "ok ? f(a) : ".toList ++ branchArrow.scope ∧
      branchArrow.Fits "ok ? f(a) : ".toList.reverse [] ∧ branchArrow.Binds "x".toList ∧
      qualify ["x".toList] [] "ok ? f(a) : x => x".toList =
        "ok ? f(a) : this.x => this.x".toList := by
  have count : ∀ entry ∈ references ["count".toList] [], isWord entry.1 := by decide
  have x : ∀ entry ∈ references ["x".toList] [], isWord entry.1 := by decide
  refine ⟨⟨by decide +kernel, ⟨by decide, by rintro c ⟨⟩⟩, binds_laterDeclarator, ?_⟩,
    by decide +kernel, ?_, rfl, ?_⟩
  · rw [qualify_eq_walk count]
    decide +kernel
  · rintro c ⟨⟩
    decide
  · rw [qualify_eq_walk x]
    decide +kernel

end Recast
