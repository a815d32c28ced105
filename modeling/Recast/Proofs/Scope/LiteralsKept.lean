import Recast.Proofs.Scope.LiteralScan
import Recast.Proofs.Scope.Settled
import Recast.Proofs.Text.Gap

/-!
# Literals and comments are kept

The edits of a body are found in its masked copy, and each covers characters of names and dots only.
A masked text shows such a character only where the text has it, so an edit covers the same piece of
both, and no part of a literal or comment (`EditsCode`). Edits that overlap are left out, and the
others cut the body into gaps that are copied, so each literal and comment comes out character for
character (`rewrites_applyEdits`).
-/

namespace Recast

/-! ## Edits of code -/

/-- An edit of a piece of code of some kind: the masked body shows the piece, and no character of it
is a barrier. -/
structure EditsCode (kind : Text → Prop) (body : Text) (edit : Edit) : Prop where
  inside : edit.span.start < edit.span.stop
  fits : edit.span.stop ≤ body.length
  shown : edit.span.of (mask body) = edit.span.of body
  plain : ∀ c ∈ edit.span.of (mask body), isBarrier c = false
  kind : kind (edit.span.of body)

theorem eq_of_shows_plain :
    ∀ {piece body : Text}, List.Forall₂ Shows piece body → (∀ c ∈ piece, isBarrier c = false) →
    piece = body
  | [], _, .nil, _ => rfl
  | c :: cs, _, .cons first rest, plain => by
    have mark := plain c List.mem_cons_self
    have dot : isNameChar c ∨ c = '.' := by
      cases h : isNameChar c with
      | true => exact .inl rfl
      | false => exact .inr (by simpa [isBarrier, h] using mark)
    rw [eq_of_shows first dot,
      eq_of_shows_plain rest fun d hd => plain d (List.mem_cons_of_mem _ hd)]

/-- A piece of masked code without barriers is edited as a piece of the body. -/
theorem editsCode_of_piece (kind : Text → Prop) {body behind piece rest : Text}
    (code : mask body = behind ++ (piece ++ rest))
    (filled : piece ≠ []) (plain : ∀ c ∈ piece, isBarrier c = false) (here : kind piece)
    (text : Text) : EditsCode kind body ⟨⟨behind.length, behind.length + piece.length⟩, text⟩ := by
  have size := List.length_pos_iff.2 filled
  have length : body.length = behind.length + (piece.length + rest.length) := by
    rw [← length_mask body, code, List.length_append, List.length_append]
  have covered : slice (mask body) behind.length (behind.length + piece.length) = piece := by
    rw [code, slice_append]
  have shows : List.Forall₂ Shows (slice (mask body) behind.length (behind.length + piece.length))
      (slice body behind.length (behind.length + piece.length)) :=
    List.forall₂_drop _ (List.forall₂_take _ (mask_shows body))
  rw [covered] at shows
  have same : piece = slice body behind.length (behind.length + piece.length) :=
    eq_of_shows_plain shows plain
  refine ⟨Nat.lt_add_of_pos_right size, by dsimp only; omega, ?_, ?_, ?_⟩
  · exact covered.trans same
  · intro c hc
    rw [Span.of, covered] at hc
    exact plain c hc
  · rwa [Span.of, ← same]

/-- The masked text shows a barrier at an offset. -/
def BarrierAt (body : Text) (p : Nat) : Prop :=
  ∃ c, (mask body)[p]? = some c ∧ isBarrier c

/-- No edit of code touches a barrier. -/
theorem EditsCode.apart {kind : Text → Prop} {body : Text} {edit : Edit}
    (h : EditsCode kind body edit) {p : Nat}
    (hidden : BarrierAt body p) : p < edit.span.start ∨ edit.span.stop ≤ p := by
  by_contra touches
  obtain ⟨c, shown, barrier⟩ := hidden
  have member : c ∈ edit.span.of (mask body) := by
    refine List.mem_of_getElem? (i := p - edit.span.start) ?_
    rw [Span.of, slice, List.getElem?_drop, List.getElem?_take, if_pos (by omega),
      Nat.add_sub_cancel' (by omega), shown]
  rw [h.plain c member] at barrier
  cases barrier

/-- The output is the body with spans of code of some kind replaced: they are in order and do not
overlap, the masked body shows each as it is, and a run of literals and comments is copied between
what becomes of the text around it. -/
def Rewrites (kind : Text → Prop) (body output : Text) : Prop :=
  ∃ edits : List Edit, output = replaceSpans body edits ∧
    OrderedFrom body.length 0 (edits.map (·.span)) ∧
    (∀ edit ∈ edits, edit.span.of (mask body) = edit.span.of body ∧ kind (edit.span.of body)) ∧
    ∀ start stop, start < stop → (∀ p, start ≤ p → p < stop → Inert body p) →
      ∃ first second, edits = first ++ second ∧
        output = replaceSpans (body.take start) first ++ slice body start stop ++
          replaceFrom body stop second

section Applied

variable {kind : Text → Prop} {body : Text} {edits : List Edit}

/-- The edits that are made are edits of code, in order. -/
theorem editsCode_made (h : ∀ edit ∈ edits, EditsCode kind body edit) :
    (∀ edit ∈ dropOverlaps 0 (edits.mergeSort Edit.le), EditsCode kind body edit) ∧
      OrderedFrom body.length 0 ((dropOverlaps 0 (edits.mergeSort Edit.le)).map (·.span)) := by
  have sorted : ∀ edit ∈ edits.mergeSort Edit.le, EditsCode kind body edit := by
    intro edit hm
    exact h edit (List.mem_mergeSort.1 hm)
  refine ⟨fun edit hm => sorted edit (mem_of_mem_dropOverlaps hm), ?_⟩
  exact orderedFrom_dropOverlaps (Nat.zero_le _) fun edit hm =>
    ⟨(sorted edit hm).inside, (sorted edit hm).fits⟩

/-- A run of barriers is copied between what becomes of the text around it. -/
theorem applyEdits_barriers (h : ∀ edit ∈ edits, EditsCode kind body edit) {start stop : Nat}
    (run : start < stop) (barriers : ∀ p, start ≤ p → p < stop → BarrierAt body p) :
    ∃ first second, dropOverlaps 0 (edits.mergeSort Edit.le) = first ++ second ∧
      applyEdits body edits =
        replaceSpans (body.take start) first ++ slice body start stop ++
          replaceFrom body stop second := by
  obtain ⟨made, ordered⟩ := editsCode_made h
  refine replaceFrom_untouched run.le (Nat.zero_le _) ordered fun edit hm => ?_
  -- an edit that starts before the run and ends in it or behind it covers its first offset
  have first := (made edit hm).apart (barriers start (Nat.le_refl _) run)
  have inside := (made edit hm).inside
  rcases Nat.lt_or_ge edit.span.start stop with early | late
  · refine .inl ?_
    rcases first with before | after
    · have touched := (made edit hm).apart (barriers edit.span.start before.le early)
      omega
    · exact after
  · exact .inr late

theorem rewrites_applyEdits (h : ∀ edit ∈ edits, EditsCode kind body edit) :
    Rewrites kind body (applyEdits body edits) := by
  obtain ⟨made, ordered⟩ := editsCode_made h
  refine ⟨_, rfl, ordered, fun edit hm => ⟨(made edit hm).shown, (made edit hm).kind⟩,
    fun start stop run inert => ?_⟩
  exact applyEdits_barriers h run fun p after before => (inert p after before).hidden

end Applied

/-! ## The edits of references -/

/-- What qualifying replaces: the props object with its dot, a name that is listed, or the name of a
setter. -/
def isReplaced (names : List Text) (piece : Text) : Prop :=
  piece = "props.".toList ∨ piece ∈ names ∨ isWord piece ∧ isSetterName piece

theorem not_isBarrier_of_isWord {w : Text} (h : isWord w) : ∀ c ∈ w, isBarrier c = false := by
  intro c hc
  simp [isBarrier, isNameChar_of_isWord h c hc]

/-- The word at a place is edited as a piece of the body. -/
theorem editsCode_word {kind : Text → Prop} {body : Text} {place : Place}
    (here : place ∈ places (mask body))
    (word : isWord place.mention.name) (fits : kind place.mention.name) (text : Text) :
    EditsCode kind body ⟨⟨place.pos, place.pos + place.mention.name.length⟩, text⟩ := by
  obtain ⟨split, offset⟩ := eq_of_mem_places here
  rw [← wordAhead_append_afterWord place.ahead] at split
  have edit := editsCode_of_piece kind split (ne_nil_of_isWord word) (not_isBarrier_of_isWord word)
    fits text
  rwa [List.length_reverse, ← offset] at edit

theorem isWord_of_isSetterName {w : Text} (chars : ∀ c ∈ w, isNameChar c) (h : isSetterName w) :
    isWord w := by
  cases w with
  | nil => exact Bool.noConfusion h
  | cons c cs =>
    rw [isWord, Bool.and_eq_true, List.all_eq_true]
    exact ⟨rfl, chars⟩

variable {state : List Text} {props : List (Text × Text)}

theorem editsCode_of_mem_proposals (words : ∀ name ∈ state ++ props.map (·.1), isWord name)
    {scopes : List BindingScope}
    {body : Text} {place : Place} (here : place ∈ places (mask body)) {edit : Edit}
    (proposed : edit ∈ proposals (references state props) scopes place) :
    EditsCode (isReplaced (state ++ props.map (·.1))) body edit := by
  rcases mem_proposals proposed with ⟨refers, rfl⟩ | ⟨refers, rfl⟩ | ⟨refers, rfl⟩
  · have listed : place.mention.name ∈ state ++ props.map (·.1) := by
      rw [Mention.refers, Bool.and_eq_true, List.contains_iff_mem] at refers
      simpa [references] using refers.1
    exact editsCode_word here (words _ listed) (.inr (.inl listed)) _
  · obtain ⟨split, offset⟩ := eq_of_mem_places here
    have name : wordAhead place.ahead = "props".toList := name_eq_props refers
    obtain ⟨rest, after⟩ := List.head?_eq_some_iff.1 (head?_of_refersToProps refers)
    rw [← wordAhead_append_afterWord place.ahead, name,
      show afterWord place.ahead = '.' :: rest from after] at split
    have code : mask body = place.behind.reverse ++ ("props.".toList ++ rest) := split
    have edit := editsCode_of_piece (isReplaced (state ++ props.map (·.1))) code (by decide)
      (by decide) (.inl rfl)
      "this.props.".toList
    rwa [List.length_reverse, ← offset] at edit
  · have setter := callsSetter_of_refersToSetter refers
    rw [Mention.callsSetter, Bool.and_eq_true] at setter
    have word := isWord_of_isSetterName (w := place.mention.name)
      (fun c hc => List.mem_takeWhile_imp hc) setter.1
    exact editsCode_word here word (.inr (.inr ⟨word, setter.1⟩)) _

/-- Each edit of a body is proposed at a place of its masked copy. -/
theorem exists_proposal (words : ∀ name ∈ state ++ props.map (·.1), isWord name) {body : Text}
    {edit : Edit} (mem : edit ∈ qualifyEdits state props body) :
    ∃ place ∈ places (mask body),
      edit ∈ proposals (references state props) (bindingScopes (mask body)) place := by
  have entries : ∀ entry ∈ references state props, isWord entry.1 := by
    intro entry he
    have listed : entry.1 ∈ (references state props).map (·.1) := List.mem_map_of_mem he
    exact words entry.1 (by simpa [references] using listed)
  exact List.mem_flatMap.1 ((qualifyEdits_perm entries body).mem_iff.1 mem)

theorem editsCode_of_mem_qualifyEdits (words : ∀ name ∈ state ++ props.map (·.1), isWord name)
    (body : Text) :
    ∀ edit ∈ qualifyEdits state props body,
      EditsCode (isReplaced (state ++ props.map (·.1))) body edit := by
  intro edit hm
  obtain ⟨place, here, proposed⟩ := exists_proposal words hm
  exact editsCode_of_mem_proposals words here proposed

theorem rewrites_qualify (words : ∀ name ∈ state ++ props.map (·.1), isWord name) (body : Text) :
    Rewrites (isReplaced (state ++ props.map (·.1))) body (qualify state props body) :=
  rewrites_applyEdits (editsCode_of_mem_qualifyEdits words body)

/-- A run of barriers is in the qualified text. -/
theorem infix_qualify (words : ∀ name ∈ state ++ props.map (·.1), isWord name)
    {front piece back : Text}
    (barriers : ∀ p, front.length ≤ p → p < front.length + piece.length →
      BarrierAt (front ++ (piece ++ back)) p) :
    piece <:+: qualify state props (front ++ (piece ++ back)) := by
  cases piece with
  | nil => exact List.nil_infix
  | cons c cs =>
    have edits := editsCode_of_mem_qualifyEdits words (front ++ (c :: cs ++ back))
    obtain ⟨first, second, -, copied⟩ := applyEdits_barriers edits (by simp) barriers
    rw [slice_append] at copied
    exact ⟨_, _, copied.symm⟩

/-! ## The roots of member accesses -/

/-- The root of a member access is the name that is looked for. -/
theorem eq_append_of_memberRoot {name behind ahead : Text} {mention : Mention} {size : Nat}
    (h : memberRoot name behind ahead = some (mention, size)) :
    (∃ rest, ahead = name ++ rest) ∧ size = name.length := by
  rw [memberRoot] at h
  cases free : startsFree behind with
  | false => simp [free] at h
  | true =>
    cases rest : dropHead? name ahead with
    | none => simp [free, rest] at h
    | some after =>
      simp only [free, rest, Bool.not_true, Bool.false_eq_true, if_false, Option.bind_eq_bind,
        Option.bind_some, Option.ite_none_right_eq_some, Option.some.injEq, Prod.mk.injEq] at h
      exact ⟨⟨after, eq_append_of_dropHead? rest⟩, h.2.2.symm⟩

theorem rewrites_renameParameter {old : Text} (word : isWord old) (new body : Text) :
    Rewrites (· = old) body (renameParameter old new body) := by
  rw [renameParameter]
  split
  · have unchanged : Rewrites (· = old) body (applyEdits body []) := rewrites_applyEdits (by simp)
    simpa [applyEdits, dropOverlaps, replaceSpans, replaceFrom] using unchanged
  · refine rewrites_applyEdits fun edit hm => ?_
    obtain ⟨found, here, made⟩ := List.mem_filterMap.1 hm
    obtain ⟨-, same⟩ := Option.ite_none_left_eq_some.1 made
    obtain rfl := Option.some.inj same
    obtain ⟨passed, ahead, size, code, root, start, stop⟩ := exists_of_mem_occurrencesFrom here
    obtain ⟨⟨rest, rfl⟩, rfl⟩ := eq_append_of_memberRoot root
    rw [start, stop, Nat.zero_add]
    exact editsCode_of_piece (· = old) code (ne_nil_of_isWord word) (not_isBarrier_of_isWord word)
      rfl new

/-! ## Both rewritings -/

/-- Rewriting keeps literals and comments. The masked copy is as long as the body and shows its
code, that of substitutions too. Qualifying replaces the props object, listed names and names of
setters, and renaming a parameter its old name, in code only: no span that they replace touches a
string, a comment or the static text of a template. -/
theorem rewriting_keeps_literals (state : List Text) (props : List (Text × Text))
    (words : ∀ name ∈ state ++ props.map (·.1), isWord name) (body : Text) :
    (mask body).length = body.length ∧
      (∀ stop pos, CodeAt body stop pos → pos < stop → commentEndAt? body pos = none →
        (mask body)[pos]? = body[pos]?) ∧
      Rewrites (isReplaced (state ++ props.map (·.1))) body (qualify state props body) ∧
      ∀ old new, isWord old → Rewrites (· = old) body (renameParameter old new body) :=
  ⟨length_mask body, fun _ _ here inside comment => here.shown inside comment,
    rewrites_qualify words body,
    fun _ new word => rewrites_renameParameter word new body⟩

/-- A template with the name in its static text and in a substitution, and a string and a comment
with it. -/
def quotedNames : Text :=
  "`n $\x7bn\x7d` + 'n' // n".toList

theorem static_quotedNames : StaticAt quotedNames quotedNames.length 1 :=
  .opening .start (by decide) rfl

theorem code_quotedNames : CodeAt quotedNames 6 5 :=
  .substitution
    (.char (.char static_quotedNames (by decide) rfl (by decide) (by decide) (by decide))
      (by decide) rfl (by decide) (by decide) (by decide)) rfl rfl (by decide)

theorem rewriting_keeps_literals_quotedNames :
    Inert quotedNames 1 ∧ (mask quotedNames)[5]? = some 'n' ∧
      Rewrites (isReplaced ["n".toList]) quotedNames (qualify ["n".toList] [] quotedNames) ∧
      qualify ["n".toList] [] quotedNames = "`n $\x7bthis.n\x7d` + 'n' // n".toList := by
  obtain ⟨-, code, rewrites, -⟩ := rewriting_keeps_literals ["n".toList] [] (by decide) quotedNames
  refine ⟨.static static_quotedNames (by decide), ?_, rewrites, by decide +kernel⟩
  exact code 6 5 code_quotedNames (by decide) rfl

end Recast
