import Recast.Proofs.Component.HookScript
import Recast.Proofs.Scope.ArrowParams

/-!
# The state variables of a script

The state variables that are found in a script are those that its statements declare
(`findState_script`). On the line of a state declaration its head is found
(`stateOpening_declaration`), the bracket behind it ends with the initial value, and the statement
covers the line (`stateAt_openingAt`); on another line nothing is found. `filterMap_script` puts the
lines together, for this search and for others.
-/

namespace Recast

/-! ## The head of a state declaration -/

/-- A type argument ends at the `>` before the bracket. -/
theorem typeArgument?_append (rest : Text) :
    ∀ {type : Text}, (∀ c ∈ type, c ≠ '(' ∧ c ≠ ')' ∧ c ≠ '=') →
    typeArgument? (type ++ '>' :: '(' :: rest) = some (type, rest)
  | [], _ => rfl
  | c :: cs, h => by
    obtain ⟨opens, closes, equals⟩ := h c (by simp)
    have ih := typeArgument?_append rest fun d (hd : d ∈ cs) => h d (by simp [hd])
    have inside : (if c = '>' then dropHead? ['('] (trimStart (cs ++ '>' :: '(' :: rest))
        else none) = none := by
      rw [ite_eq_right_iff]
      intro _
      have notBlank : ∀ d, ('>' :: '(' :: rest).head? = some d → isBlank d = false := by
        rintro d ⟨⟩
        decide
      rw [trimStart_append notBlank]
      cases front : trimStart cs with
      | nil => rfl
      | cons d ds =>
        have other : d ≠ '(' :=
          (h d (List.mem_cons_of_mem c (mem_of_mem_trimStart (by rw [front]; simp)))).1
        rw [List.cons_append, dropHead?, if_neg (Ne.symm other)]
    rw [List.cons_append, typeArgument?, if_neg (by simp [opens, closes, equals]), inside, ih]
    rfl

theorem callOpening?_typeText (type? : Option TypeArgument) (rest : Text) :
    callOpening? (typeText type? ++ '(' :: rest) = some (type?.map (·.text), rest) := by
  cases type? with
  | none => rfl
  | some type =>
    have argument := typeArgument?_append rest type.valid
    have opened : trimStart (typeText (some type) ++ '(' :: rest) =
        '<' :: (type.text ++ '>' :: '(' :: rest) := by
      rw [typeText]
      simp only [List.cons_append, List.append_assoc]
      exact trimStart_eq_self (by rintro c ⟨⟩; decide)
    rw [callOpening?, opened]
    simp only [argument, Option.map_some]

theorem word?_append (word : Word) {rest : Text} (h : PastWord rest) :
    word? (trimStart (word.text ++ rest)) = some (word.text, rest) := by
  obtain ⟨c, cs, whole, first, -⟩ := word.eq_cons
  have solid : trimStart (word.text ++ rest) = word.text ++ rest := by
    refine trimStart_eq_self fun d hd => ?_
    rw [whole] at hd
    obtain rfl := Option.some.inj hd
    exact not_isBlank_of_isNameChar (isNameChar_of_isNameStart first)
  have name : (word.text ++ rest).takeWhile isNameChar = word.text :=
    wordAhead_append word.isNameChar h
  have after : (word.text ++ rest).dropWhile isNameChar = rest := afterWord_append word.isNameChar h
  rw [solid, word?, name, after, if_neg (by simp [whole])]

theorem dropModule_hook (qualified : Bool) (rest : Text) :
    dropModule (trimStart (' ' :: (moduleText qualified ++ ("useState".toList ++ rest)))) =
      "useState".toList ++ rest := by
  cases qualified <;> rfl

/-- The head of a state declaration is found, with its names and its type argument. -/
theorem stateOpening_declaration (behind rest : Text) (name setter : Word) (qualified : Bool)
    (type? : Option TypeArgument) :
    stateOpening behind ((declarationText name setter qualified type? ++ ['(']) ++ rest) =
      some ((name.text, setter.text, type?.map (·.text)),
        (declarationText name setter qualified type? ++ ['(']).length) := by
  have split : (declarationText name setter qualified type? ++ ['(']) ++ rest =
      "const [".toList ++
        (name.text ++ ',' :: ' ' ::
          (setter.text ++ ']' :: ' ' :: '=' :: ' ' :: (moduleText qualified
        ++ ("useState".toList ++ (typeText type? ++ '(' :: rest))))) := by
    unfold declarationText
    simp
  have size :
      ((declarationText name setter qualified type? ++ ['(']) ++ rest).length - rest.length =
        (declarationText name setter qualified type? ++ ['(']).length := by
    rw [List.length_append, Nat.add_sub_cancel]
  rw [← size, split]
  have mark : ∀ {c : Char} {t : Text}, isNameChar c = false → PastWord (c :: t) := by
    rintro c t hc d ⟨⟩
    exact hc
  rw [stateOpening]
  refine Option.bind_eq_some_iff.2 ⟨_, rfl, Option.bind_eq_some_iff.2 ⟨_, rfl, ?_⟩⟩
  refine Option.bind_eq_some_iff.2 ⟨_, word?_append name (mark (by decide)),
    Option.bind_eq_some_iff.2 ⟨_, rfl, ?_⟩⟩
  refine Option.bind_eq_some_iff.2 ⟨_, word?_append setter (mark (by decide)), ?_⟩
  refine Option.bind_eq_some_iff.2 ⟨_, rfl, Option.bind_eq_some_iff.2 ⟨_, rfl, ?_⟩⟩
  rw [dropModule_hook]
  refine Option.bind_eq_some_iff.2 ⟨_, dropHead?_append _ _, ?_⟩
  exact Option.bind_eq_some_iff.2 ⟨_, callOpening?_typeText type? rest, rfl⟩

/-! ## The span of a statement -/

/-- A line starts here. -/
def AtLineStart (front : Text) : Prop :=
  front = [] ∨ front.getLast? = some '\n'

/-- The line has a line end, or nothing comes after it. -/
def Line.Before (line : Line) (rest : Text) : Prop :=
  line.ended = true ∨ rest = []

theorem lineStart_eq {front indentation : Text} (start : AtLineStart front)
    (h : ∀ c ∈ indentation, isIndent c)
    (more : Text) : lineStart (front ++ (indentation ++ more)) (front.length + indentation.length) =
      front.length := by
  have before : (front ++ (indentation ++ more)).take (front.length + indentation.length) =
      front ++ indentation := by
    rw [← List.append_assoc, ← List.length_append, List.take_left]
  have stops : front.reverse.takeWhile isIndent = [] := by
    rcases start with rfl | last
    · rfl
    · rw [← List.head?_reverse] at last
      obtain ⟨tail, reversed⟩ := List.head?_eq_some_iff.1 last
      rw [reversed]
      rfl
  have blanks : ∀ c ∈ indentation.reverse, isIndent c := fun c hc => h c (List.mem_reverse.1 hc)
  rw [lineStart, before, List.reverse_append, List.takeWhile_append_of_pos blanks, stops]
  simp

/-- A statement ends behind its semicolon and its line end. -/
theorem statementEnd_eq (before : Text) {line : Line} {rest : Text} (h : line.Before rest) :
    statementEnd (before ++ ';' :: (line.ending ++ rest)) before.length =
      before.length + 1 + line.ending.length := by
  rw [statementEnd, List.drop_left]
  cases ended : line.ended with
  | true =>
    rw [Line.ending, ended]
    change (before ++ ';' :: '\n' :: rest).length - rest.length = before.length + 2
    simp only [List.length_append, List.length_cons]
    omega
  | false =>
    obtain rfl : rest = [] := h.resolve_left (by simp [ended])
    rw [Line.ending, ended]
    change (before ++ [';']).length - 0 = before.length + 1
    rw [List.length_append, Nat.sub_zero, List.length_singleton]

/-! ## State declarations line by line -/

/-- The state variable that an opening declares, with the span of its statement. -/
def stateAt (body : Text) (found : Occurrence (Text × Text × Option Text)) :
    Option (StateVariable × Span) :=
  (bracketEndAt? body (found.stop - 1)).map fun stop =>
    let written := trim (slice body found.stop (stop - 1))
    let initial := if written.isEmpty then "null".toList else written
    let type := found.value.2.2.elim (literalType initial).text fun argument =>
      if argument.isEmpty then (literalType initial).text else trim argument
    (⟨found.value.1, found.value.2.1, type, initial⟩,
      ⟨lineStart body found.start, statementEnd body stop⟩)

theorem findState_eq (body : Text) :
    findState body = (occurrences stateOpening body).filterMap (stateAt body) := by
  rw [findState]
  congr 1
  funext found
  obtain ⟨start, stop, name, setter, argument?⟩ := found
  cases argument? <;> rfl

/-- No occurrence starts at the indentation of a line. -/
theorem silent_indentation {α : Type} {recognise : Recogniser α}
    (needs : ∀ {behind ahead found}, recognise behind ahead = some found →
      ∀ c, ahead.head? = some c → isIndent c = false)
    {indentation : Text} (h : ∀ c ∈ indentation, isIndent c) (behind rest : Text) :
    SilentIn recognise behind indentation rest := by
  rintro passed ahead rfl nonempty
  by_contra succeeds
  obtain ⟨found, here⟩ := Option.ne_none_iff_exists'.1 succeeds
  obtain ⟨c, cs, rfl⟩ := List.exists_cons_of_ne_nil nonempty
  have := needs here c rfl
  rw [h c (by simp)] at this
  cases this

theorem not_isIndent_of_stateOpening {behind ahead : Text}
    {found : (Text × Text × Option Text) × Nat}
    (h : stateOpening behind ahead = some found) :
    ∀ c, ahead.head? = some c → isIndent c = false := by
  obtain ⟨keyword, blanks, between, after, rfl, hk, -⟩ := stateOpening_needs h
  simp only [List.mem_cons, List.not_mem_nil, or_false] at hk
  rcases hk with rfl | rfl | rfl <;> rintro c ⟨⟩ <;> decide

theorem not_isIndent_of_effectOpening {behind ahead : Text} {found : Unit × Nat}
    (h : effectOpening behind ahead = some found) :
    ∀ c, ahead.head? = some c → isIndent c = false := by
  obtain ⟨-, qualified, hook, blanks, after, rfl, hm, -⟩ := effectOpening_needs h
  simp only [effectNames, List.mem_cons, List.not_mem_nil, or_false] at hm
  cases qualified <;> rcases hm with rfl | rfl <;> rintro c ⟨⟩ <;> decide

/-! ## The pieces of a line -/

theorem pastWord_cons {c : Char} (hc : isNameChar c = false) (t : Text) : PastWord (c :: t) := by
  rintro d ⟨⟩
  exact hc

theorem hookless_effectArguments (body dependencies : Snippet) :
    Hookless (effectArguments body dependencies) := by
  have tail : Hookless (dependencies.text ++ "]".toList) :=
    dependencies.hookless.append (hookless_of_not_mem (by decide))
      (.inr (pastWord_cons (by decide) _))
  have middle : Hookless ("\x7d, [".toList ++ (dependencies.text ++ "]".toList)) :=
    (hookless_of_not_mem (by decide)).append tail (.inl (pastWord_cons (by decide) _))
  have code := body.hookless.append middle (.inr (pastWord_cons (by decide) _))
  exact (hookless_of_not_mem (by decide)).append code (.inl (pastWord_cons (by decide) _))

/-- What stands behind the code of a call: the closing bracket, the semicolon and the line end. -/
def Line.closing (line : Line) : Text :=
  ");".toList ++ line.ending

theorem Line.hookless_closing (line : Line) : Hookless line.closing := by
  refine hookless_of_not_mem ?_
  rw [Line.closing, Line.ending]
  cases line.ended <;> decide

theorem startsUnqualified_reverse_append {a b : Text} (hb : b ≠ [])
    (h : startsUnqualified b.reverse = true) : startsUnqualified (a ++ b).reverse = true := by
  rw [startsUnqualified, List.reverse_append, List.head?_append_of_ne_nil _ (by simpa using hb)]
  exact h

/-- A line that ends with a closing bracket and a semicolon, or with a line end, does not end in a
word. -/
theorem Line.apart_closing (line : Line) (before rest : Text) :
    Apart (before ++ line.closing) rest := by
  refine .inl (startsUnqualified_reverse_append (by simp [Line.closing]) ?_)
  rw [Line.closing, Line.ending]
  cases line.ended <;> decide

theorem hookless_closed {line : Line} {code : Text} (h : Hookless code) :
    Hookless (code ++ line.closing) :=
  h.append line.hookless_closing (.inr (pastWord_cons (by decide) _))

/-- A plain line does not end in a word before the next one. -/
theorem Line.apart_text {line : Line} {rest : Text} (h : line.Before rest) :
    Apart line.text rest := by
  rcases h with ended | rfl
  · refine .inl (startsUnqualified_reverse_append (by simp [Line.ending, ended]) ?_)
    rw [Line.ending, ended]
    decide
  · exact .inr rfl

section Lines

variable {line : Line} {indentation : Indentation} {name setter : Word} {qualified : Bool}
  {type? : Option TypeArgument} {initial body dependencies : Snippet} {code : Text}
    {hookless : Hookless code}

/-- The line of a state declaration: what comes before its bracket, its initial value, and what
closes it. -/
theorem Line.text_state
    (h : line.statement = .state indentation name setter qualified type? initial) :
    line.text = indentation.text ++ ((declarationText name setter qualified type? ++ ['(']) ++
      (initial.text ++ line.closing)) := by
  rw [Line.text, h, Statement.text, Line.closing]
  simp

theorem Line.text_effect (h : line.statement = .effect indentation body dependencies) :
    line.text = indentation.text ++
      ("useEffect(".toList ++ (effectArguments body dependencies ++ line.closing)) := by
  rw [Line.text, h, Statement.text, Line.closing]
  simp

theorem Line.hookless_plain (h : line.statement = .plain code hookless) : Hookless line.text := by
  rw [Line.text, h]
  refine hookless.append (hookless_of_not_mem ?_) (.inr ?_)
  all_goals
    rw [Line.ending]
    cases line.ended
  · decide
  · decide
  · exact pastWord_nil
  · exact pastWord_cons (by decide) _

/-- An effect does not name the hook of a state variable. -/
theorem Line.not_hasWord_effect (h : line.statement = .effect indentation body dependencies) :
    ¬HasWord "useState".toList line.text := by
  intro found
  have closed : Hookless (effectArguments body dependencies ++ line.closing) :=
    hookless_closed (hookless_effectArguments body dependencies)
  have member : "useState".toList ∈ hookNames := by decide
  rw [Line.text_effect h, ← List.append_assoc] at found
  have bracket : PastWord (indentation.text ++ "useEffect(".toList).reverse :=
    pastWord_reverse_append (pastWord_cons (by decide) _) (by decide)
  rcases found.of_append (by decide) (.inl bracket) with found | found
  · refine not_hasWord_of_not_mem (c := 'S') (by decide) (fun hm => ?_) found
    rcases List.mem_append.1 hm with hm | hm
    · exact absurd (indentation.valid 'S' hm) (by decide)
    · exact absurd hm (by decide)
  · exact closed _ member found

/-- Every `useState` of a line and what follows it has its declaration before it. -/
theorem Line.heralded {rest : Text} (before : line.Before rest) (later : Heralded rest) :
    Heralded (line.text ++ rest) := by
  cases h : line.statement with
  | state indentation name setter qualified type? initial =>
    rw [Line.text_state h]
    unfold declarationText
    simp only [List.append_assoc]
    exact heralded_declaration indentation.valid _
  | effect indentation body dependencies =>
    exact later.append (Line.apart_text before).border (Line.not_hasWord_effect h)
  | plain code hookless =>
    exact later.append (Line.apart_text before).border (Line.hookless_plain h _ (by decide))

/-! ## One line -/

variable {front rest : Text}

/-- Where the opening of a state declaration is found on its line. -/
def openingAt (front : Text) (indentation : Indentation) (name setter : Word) (qualified : Bool)
    (type? : Option TypeArgument) : Occurrence (Text × Text × Option Text) :=
  ⟨front.length + indentation.text.length,
    front.length + indentation.text.length +
      (declarationText name setter qualified type? ++ ['(']).length,
    (name.text, setter.text, type?.map (·.text))⟩

/-- A state declaration is found on its line, and nothing else. -/
theorem occurrences_state
    (h : line.statement = .state indentation name setter qualified type? initial)
    (later : Heralded rest) :
    occurrencesFrom stateOpening front.reverse front.length 0 (line.text ++ rest) =
      openingAt front indentation name setter qualified type?
        :: occurrencesFrom stateOpening (front ++ line.text).reverse (front ++ line.text).length 0
          rest := by
  have member : "useState".toList ∈ hookNames := by decide
  have silent : ∀ behind, SilentIn stateOpening behind (initial.text ++ line.closing) rest :=
    fun behind => silent_stateOpening behind (line.apart_closing initial.text rest)
      (hookless_closed initial.hookless _ member) later
  have text := Line.text_state h
  rw [text, List.append_assoc, List.append_assoc]
  rw [occurrencesFrom_silent
    _ _ (silent_indentation not_isIndent_of_stateOpening indentation.valid _ _)]
  rw [occurrencesFrom_found _ (by simp) (stateOpening_declaration _ _ name setter qualified type?)]
  rw [occurrencesFrom_silent _ _ (silent _), openingAt]
  simp only [List.reverse_append, List.length_append, List.append_assoc, Nat.add_assoc]

/-- No state declaration is found on another line. -/
theorem occurrences_other (before : line.Before rest) (quiet : ¬HasWord "useState".toList line.text)
    (later : Heralded rest) :
    occurrencesFrom stateOpening front.reverse front.length 0 (line.text ++ rest) =
      occurrencesFrom stateOpening (front ++ line.text).reverse (front ++ line.text).length 0
        rest := by
  rw [occurrencesFrom_silent _ _ (silent_stateOpening _ (Line.apart_text before) quiet later),
    List.reverse_append, List.length_append]

end Lines

/-! ## The call on a line -/

section Call

variable {line : Line} {indentation : Indentation} {head inner front rest : Text}

/-- A line with a call, cut before the call's bracket. -/
theorem Line.cut_call
    (text : line.text = indentation.text ++ (head ++ '(' :: (inner ++ line.closing))) :
    front ++ (line.text ++ rest) =
      (front ++ (indentation.text ++ head)) ++
        '(' :: (inner ++ ')' :: (';' :: (line.ending ++ rest))) := by
  rw [text, Line.closing]
  simp

theorem length_before_call : (front ++ (indentation.text ++ head)).length =
    front.length + indentation.text.length + head.length := by
  simp only [List.length_append, Nat.add_assoc]

theorem Line.bracketEndAt?_call
    (text : line.text = indentation.text ++ (head ++ '(' :: (inner ++ line.closing)))
    (nested : Nested inner) (plain : ∀ c ∈ inner, isPlainCode c) :
    bracketEndAt? (front ++ (line.text ++ rest))
      (front.length + indentation.text.length + head.length) =
      some (front.length + indentation.text.length + head.length + inner.length + 2) := by
  rw [Line.cut_call text, ← length_before_call]
  exact bracketEndAt?_nested nested plain .round _ _

theorem Line.slice_call
    (text : line.text = indentation.text ++ (head ++ '(' :: (inner ++ line.closing))) :
    slice (front ++ (line.text ++ rest)) (front.length + indentation.text.length + head.length + 1)
      (front.length + indentation.text.length + head.length + inner.length + 2 - 1) = inner := by
  refine slice_eq ((front ++ (indentation.text ++ head)) ++ ['('])
    (')' :: (';' :: (line.ending ++ rest))) ?_ ?_ ?_
  · rw [Line.cut_call text]
    simp
  · rw [List.length_append, length_before_call, List.length_singleton]
  · rw [List.length_append, length_before_call, List.length_singleton]
    omega

theorem Line.lineStart_call
    (text : line.text = indentation.text ++ (head ++ '(' :: (inner ++ line.closing)))
    (start : AtLineStart front) :
    lineStart (front ++ (line.text ++ rest)) (front.length + indentation.text.length) =
      front.length := by
  rw [text, List.append_assoc]
  exact lineStart_eq start indentation.valid _

theorem Line.statementEnd_call
    (text : line.text = indentation.text ++ (head ++ '(' :: (inner ++ line.closing)))
    (before : line.Before rest) :
    statementEnd (front ++ (line.text ++ rest))
      (front.length + indentation.text.length + head.length + inner.length + 2) =
        front.length + line.text.length := by
  have whole := statementEnd_eq ((front ++ (indentation.text ++ head)) ++ '(' :: (inner ++ [')']))
    before
  have cut : (front ++ (indentation.text ++ head)) ++ '(' :: (inner ++ [')']) ++
      ';' :: (line.ending ++ rest) =
      front ++ (line.text ++ rest) := by
    rw [Line.cut_call text]
    simp
  have length : ((front ++ (indentation.text ++ head)) ++ '(' :: (inner ++ [')'])).length =
      front.length + indentation.text.length + head.length + inner.length + 2 := by
    rw [List.length_append, length_before_call, List.length_cons, List.length_append,
      List.length_singleton]
    omega
  have size : line.text.length = indentation.text.length + head.length + inner.length + 3 +
      line.ending.length := by
    rw [text, Line.closing]
    simp only [List.length_append, List.length_cons]
    have two : ");".toList.length = 2 := rfl
    omega
  rw [cut, length] at whole
  rw [whole, size]
  omega

end Call

/-! ## State declarations on a line -/

section Declarations

variable {line : Line} {indentation : Indentation} {name setter : Word} {qualified : Bool}
  {type? : Option TypeArgument} {initial : Snippet} {front rest : Text}

theorem TypeArgument.isEmpty_text (type : TypeArgument) : type.text.isEmpty = false := by
  have written := type.written
  cases text : type.text with
  | nil =>
    rw [text] at written
    cases written
  | cons c cs => rfl

/-- What the opening of a state declaration declares: the variable of its line, and the span of the
line. -/
theorem stateAt_openingAt
    (h : line.statement = .state indentation name setter qualified type? initial)
    (start : AtLineStart front) (before : line.Before rest) :
    stateAt (front ++ (line.text ++ rest))
      (openingAt front indentation name setter qualified type?) =
      line.statement.stateVariable?.map fun state =>
        (state, ⟨front.length, front.length + line.text.length⟩) := by
  have text : line.text = indentation.text ++ (declarationText name setter qualified type? ++
      '(' :: (initial.text ++ line.closing)) := by
    rw [Line.text_state h]
    simp
  have stop : (openingAt front indentation name setter qualified type?).stop =
      front.length + indentation.text.length +
        (declarationText name setter qualified type?).length + 1 := by
    rw [openingAt, List.length_append]
    rfl
  rw [stateAt, stop, Nat.add_sub_cancel, Line.bracketEndAt?_call text initial.nested initial.plain,
    Option.map_some]
  dsimp only
  rw [Line.slice_call text, openingAt, Line.lineStart_call text start,
    Line.statementEnd_call text before, h, isEmpty_trim]
  dsimp only
  cases type? with
  | none => rfl
  | some type =>
    rw [Option.map_some, Option.elim_some, type.isEmpty_text]
    rfl

end Declarations

/-! ## All lines -/

/-- What the lines declare, each with the span of its line; the first line starts at `pos`. -/
def located {β : Type} (find : Statement → Option β) (pos : Nat) : List Line → List (β × Span)
  | [] => []
  | line :: lines =>
    ((find line.statement).map fun found => (found, (⟨pos, pos + line.text.length⟩ : Span))).toList
      ++ located find (pos + line.text.length) lines

theorem scriptText_cons (line : Line) (lines : List Line) :
    scriptText (line :: lines) = line.text ++ scriptText lines :=
  List.flatMap_cons

/-- A line ends before the next one, if there is one. -/
theorem ends_cons {line : Line} {lines : List Line}
    (h : ∀ other ∈ (line :: lines).dropLast, other.ended = true) :
    (line.ended = true ∨ lines = []) ∧ ∀ other ∈ lines.dropLast, other.ended = true := by
  cases lines with
  | nil => exact ⟨.inr rfl, by simp⟩
  | cons next lines =>
    rw [List.dropLast_cons_cons] at h
    exact ⟨.inl (h line (by simp)), fun other hm => h other (by simp [hm])⟩

theorem before_scriptText {line : Line} {lines : List Line} (h : line.ended = true ∨ lines = []) :
    line.Before (scriptText lines) :=
  h.imp_right fun empty => by
    rw [empty]
    rfl

theorem heralded_script : ∀ {lines : List Line}, (∀ line ∈ lines.dropLast, line.ended = true) →
    Heralded (scriptText lines)
  | [], _ => heralded_nil
  | line :: lines, h => by
    obtain ⟨ended, rest⟩ := ends_cons h
    rw [scriptText_cons]
    exact Line.heralded (before_scriptText ended) (heralded_script rest)

theorem atLineStart_append {line : Line} (front : Text) (h : line.ended = true) :
    AtLineStart (front ++ line.text) := by
  right
  rw [Line.text, Line.ending, h, if_pos rfl, ← List.append_assoc, List.getLast?_concat]

/-- A search goes line by line if it goes on behind the first line, whatever lines follow. -/
theorem filterMap_script {α β : Type} {recognise : Recogniser α} {find : Statement → Option β}
    {read : Text → Occurrence α → Option (β × Span)} (atEnd : ∀ behind, recognise behind [] = none)
    (step : ∀ {front rest : Text} {line : Line}, AtLineStart front → line.Before rest →
      Heralded rest →
      (occurrencesFrom recognise front.reverse front.length 0 (line.text ++ rest)).filterMap
          (read (front ++ (line.text ++ rest))) =
        ((find line.statement).map
          fun found => (found, (⟨front.length, front.length + line.text.length⟩ : Span))).toList
          ++ (occurrencesFrom recognise (front ++ line.text).reverse (front ++ line.text).length 0
            rest).filterMap
              (read (front ++ (line.text ++ rest)))) :
    ∀ (lines : List Line) (front : Text), (lines ≠ [] → AtLineStart front) →
      (∀ line ∈ lines.dropLast, line.ended = true) →
      (occurrencesFrom recognise front.reverse front.length 0 (scriptText lines)).filterMap
          (read (front ++ scriptText lines)) = located find front.length lines
  | [], front, _, _ => by
    change (occurrencesFrom recognise front.reverse front.length 0 []).filterMap _ = []
    rw [occurrencesFrom, atEnd, List.filterMap_nil]
  | line :: lines, front, start, h => by
    obtain ⟨ended, rest⟩ := ends_cons h
    have next : lines ≠ [] → AtLineStart (front ++ line.text) := fun more =>
      atLineStart_append front (ended.resolve_right more)
    have ih := filterMap_script atEnd step lines (front ++ line.text) next rest
    rw [List.append_assoc, List.length_append] at ih
    rw [scriptText_cons, step (start (by simp)) (before_scriptText ended) (heralded_script rest),
      located, List.length_append, ih]

theorem stateOpening_nil (behind : Text) : stateOpening behind [] = none := rfl

/-- The state variables of a script are those that its statements declare. -/
theorem findState_script {lines : List Line} (h : ∀ line ∈ lines.dropLast, line.ended = true) :
    findState (scriptText lines) = located Statement.stateVariable? 0 lines := by
  rw [findState_eq]
  refine filterMap_script stateOpening_nil (fun {front rest line} start before later => ?_) lines []
    (fun _ => .inl rfl) h
  cases statement : line.statement with
  | state indentation name setter qualified type? initial =>
    rw [occurrences_state statement later, List.filterMap_cons,
      stateAt_openingAt statement start before, statement]
    rfl
  | effect indentation body dependencies =>
    rw [occurrences_other before (Line.not_hasWord_effect statement) later]
    rfl
  | plain code hookless =>
    rw [occurrences_other before (Line.hookless_plain statement _ (by decide)) later]
    rfl

end Recast
