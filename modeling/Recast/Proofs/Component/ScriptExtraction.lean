import Recast.Proofs.Component.ScriptState
import Recast.Proofs.Scope.ArrowParams

/-!
# The hooks of a script

Extraction from a script is exact (`extractHooks_script`): it finds the state variables and the
effects that the statements declare (`findState_script`, `findEffects_script`), each with the span
of its own line, and taking these spans out leaves the lines of the plain statements
(`withoutHooks_script`), in which no other hook is called.
-/

namespace Recast

/-! ## Effects on a line -/

section Effects

variable {line : Line} {indentation : Indentation} {body dependencies : Snippet} {front rest : Text}

theorem nested_effectArguments (body dependencies : Snippet) :
    Nested (effectArguments body dependencies) := by
  unfold Nested effectArguments
  rw [openAfter_append]
  change (openAfter [.curly] _) = _
  rw [body.nested.openAfter_append, openAfter_append]
  change (openAfter [.square] _) = _
  rw [dependencies.nested.openAfter_append]
  rfl

theorem plain_effectArguments (body dependencies : Snippet) :
    ∀ c ∈ effectArguments body dependencies, isPlainCode c := by
  unfold effectArguments
  simp only [List.forall_mem_append]
  exact ⟨by decide, body.plain, by decide, dependencies.plain, by decide⟩

/-- The callback of an effect. -/
def callbackText (body : Snippet) : Text :=
  "() => \x7b".toList ++ (body.text ++ ['\x7d'])

/-- The dependency list of an effect. -/
def listText (dependencies : Snippet) : Text :=
  '[' :: (dependencies.text ++ [']'])

theorem effectArguments_eq (body dependencies : Snippet) :
    effectArguments body dependencies =
      callbackText body ++ (',' :: ' ' :: listText dependencies) := by
  unfold effectArguments callbackText listText
  simp

theorem length_callbackText (body : Snippet) :
    (callbackText body).length = 6 + body.text.length + 2 := by
  have seven : "() => \x7b".toList.length = 7 := rfl
  unfold callbackText
  rw [List.length_append, List.length_append, List.length_singleton, seven]
  omega

theorem length_listText (dependencies : Snippet) :
    (listText dependencies).length = dependencies.text.length + 2 := by
  rw [listText, List.length_cons, List.length_append, List.length_singleton]

theorem pieceSpans_effectArguments (body dependencies : Snippet) :
    pieceSpans isComma 0 0 0 (effectArguments body dependencies) =
      [⟨0, (callbackText body).length⟩,
        ⟨(callbackText body).length + 1,
          (callbackText body).length + 2 + (listText dependencies).length⟩] := by
  have arrow : effectArguments body dependencies =
      '(' :: ([] ++ ')' :: (" => ".toList ++ ('{' :: (body.text ++ '}' ::
      (',' :: ([' '] ++ '[' :: (dependencies.text ++ ']' :: []))))))) := by
    unfold effectArguments
    simp
  have callback : 2 + " => ".toList.length + body.text.length + 2 = (callbackText body).length :=
    (length_callbackText body).symm
  have list : ∀ pos, pos + [' '].length + dependencies.text.length + 2 =
      pos + 1 + (listText dependencies).length := by
    intro pos
    rw [length_listText, List.length_singleton]
    omega
  rw [arrow]
  have empty : Nested [] := rfl
  refine (pieceSpans_nested empty (by simp) .round 0 0 _).trans ?_
  rw [pieceSpans_plain 0 _ " => ".toList _ (by decide)]
  refine (pieceSpans_nested body.nested body.plain .curly 0 _ _).trans ?_
  rw [pieceSpans_comma, pieceSpans_plain _ _ [' '] _ (by decide)]
  refine (congrArg (_ :: ·)
    (pieceSpans_nested dependencies.nested dependencies.plain .square _ _ _)).trans ?_
  change [(⟨0, 2 + " => ".toList.length + body.text.length + 2⟩ : Span),
    ⟨2 + " => ".toList.length + body.text.length + 2
    + 1, 2 + " => ".toList.length + body.text.length + 2 + 1 + [' '].length +
      dependencies.text.length + 2⟩] = _
  rw [callback, list]

theorem trim_between {c d : Char} (hc : isBlank c = false) (hd : isBlank d = false) (t : Text) :
    trim (c :: (t ++ [d])) = c :: (t ++ [d]) := by
  refine trim_eq_self ?_ ?_
  · rintro _ ⟨⟩
    exact hc
  · rw [← List.cons_append, List.getLast?_concat]
    rintro _ ⟨⟩
    exact hd

/-- The arguments of an effect are its callback and its dependency list. -/
theorem splitTopLevel_effectArguments (body dependencies : Snippet) :
    splitTopLevel isComma (effectArguments body dependencies) =
      [callbackText body, listText dependencies] := by
  have callback : slice (effectArguments body dependencies) 0 (callbackText body).length =
      callbackText body := by
    rw [effectArguments_eq, slice, List.take_left, List.drop_zero]
  have list : slice (effectArguments body dependencies) ((callbackText body).length + 1)
      ((callbackText body).length + 2 + (listText dependencies).length) =
        ' ' :: listText dependencies := by
    refine slice_eq (callbackText body ++ [',']) [] ?_ ?_ ?_
    · rw [effectArguments_eq]
      simp
    · rw [List.length_append, List.length_singleton]
    · rw [List.length_append, List.length_singleton, List.length_cons]
      omega
  have trimCallback : trim (callbackText body) = callbackText body := by
    unfold callbackText
    rw [← List.append_assoc]
    exact trim_between (c := '(') rfl rfl _
  have trimList : trim (' ' :: listText dependencies) = listText dependencies :=
    trim_between (c := '[') (d := ']') rfl rfl dependencies.text
  rw [splitTopLevel, pieceSpans_effectArguments, piecesOf]
  simp only [List.map_cons, List.map_nil, Span.of, callback, list, trimCallback, trimList]
  rfl

theorem callbackBody?_callbackText (body : Snippet) :
    callbackBody? (callbackText body) = some (codeBlock body.text) := by
  have block : trim ('{' :: (body.text ++ ['}'])) = '{' :: (body.text ++ ['}']) :=
    trim_between rfl rfl body.text
  have ends : bracketEndAt? ('{' :: (body.text ++ ['}'])) 0 = some (body.text.length + 2) :=
    (bracketEndAt?_nested body.nested body.plain .curly [] []).trans (by simp)
  have inside : slice ('{' :: (body.text ++ ['}'])) 1 (body.text.length + 2 - 1) = body.text :=
    slice_eq ['{'] ['}'] rfl rfl (by simp; omega)
  have arrow : effectCallback? (callbackText body) = some ('{' :: (body.text ++ ['}'])) := rfl
  rw [callbackBody?, arrow]
  change (if (trim ('{' :: (body.text ++ ['}']))).head? = some '{' then _ else _) = _
  rw [block, if_pos List.head?_cons, ends]
  change some (codeBlock (slice ('{' :: (body.text ++ ['}'])) 1 (body.text.length + 2 - 1))) = _
  rw [inside]

theorem dependencyList?_listText (callback : Text) (dependencies : Snippet) :
    dependencyList? [callback, listText dependencies] = some (trim dependencies.text) := by
  have inside : ((listText dependencies).drop 1).dropLast = dependencies.text := by
    rw [listText, List.drop_one, List.tail_cons, List.dropLast_concat]
  rw [dependencyList?, if_pos (show (listText dependencies).head? = some '[' from rfl), inside]

theorem effectOpening_call {behind : Text} (h : startsUnqualified behind = true) (rest : Text) :
    effectOpening behind ("useEffect(".toList ++ rest) = some ((), "useEffect(".toList.length) := by
  have size : ("useEffect(".toList ++ rest).length - rest.length = "useEffect(".toList.length := by
    rw [List.length_append, Nat.add_sub_cancel]
  rw [← size, effectOpening, h]
  rfl

/-- The effect that an opening starts, with the span of its statement. -/
def effectAt (body : Text) (found : Occurrence Unit) : Option (EffectBlock × Span) := do
  let call ← callArguments? body (found.stop - 1)
  let callback ← call.1.head?
  let effectBody ← callbackBody? callback
  some (⟨effectBody, dependencyList? call.1⟩,
    ⟨lineStart body found.start, statementEnd body call.2⟩)

theorem findEffects_eq (body : Text) :
    findEffects body = (occurrences effectOpening body).filterMap (effectAt body) :=
  rfl

theorem startsUnqualified_line {front : Text} (start : AtLineStart front)
    (indentation : Indentation) :
    startsUnqualified (indentation.text.reverse ++ front.reverse) = true := by
  have blank : ∀ c, isIndent c → (isNameChar c || c == '.') = false := by
    intro c hc
    simp only [isIndent, Bool.or_eq_true, beq_iff_eq] at hc
    rcases hc with rfl | rfl <;> decide
  rw [startsUnqualified]
  cases reversed : indentation.text.reverse with
  | nil =>
    rcases start with rfl | last
    · rfl
    · rw [List.nil_append, List.head?_reverse, last]
      rfl
  | cons c cs =>
    have hc := blank c (indentation.valid c (List.mem_reverse.1 (by rw [reversed]; simp)))
    rw [List.cons_append, List.head?_cons, Option.any_some, hc]
    rfl

/-- The effect of a line, and the span of the line. -/
theorem effectAt_line (h : line.statement = .effect indentation body dependencies)
    (start : AtLineStart front) (before : line.Before rest) :
    effectAt (front ++ (line.text ++ rest))
        ⟨front.length + indentation.text.length, front.length + indentation.text.length +
          "useEffect(".toList.length, ()⟩ =
      line.statement.effectBlock?.map fun effect =>
        (effect, ⟨front.length, front.length + line.text.length⟩) := by
  have text : line.text =
      indentation.text ++ ("useEffect".toList ++ '(' :: (effectArguments body dependencies
      ++ line.closing)) := by
    rw [Line.text_effect h]
    rfl
  have call : callArguments? (front ++ (line.text ++ rest))
      (front.length + indentation.text.length + "useEffect".toList.length) =
      some ([callbackText body, listText dependencies], front.length + indentation.text.length +
        "useEffect".toList.length + (effectArguments body dependencies).length + 2) := by
    rw [callArguments?, Line.bracketEndAt?_call text (nested_effectArguments body dependencies)
      (plain_effectArguments body dependencies), Option.map_some, Line.slice_call text,
      splitTopLevel_effectArguments]
  have opening : front.length + indentation.text.length + "useEffect(".toList.length - 1 =
      front.length + indentation.text.length + "useEffect".toList.length := rfl
  rw [effectAt, opening, call]
  change (callbackBody? (callbackText body)).bind _ = _
  rw [callbackBody?_callbackText, Option.bind_some, dependencyList?_listText,
    Line.lineStart_call text start, Line.statementEnd_call text before, h]
  rfl

/-- An effect is found on its line, and nothing else. -/
theorem occurrences_effect (h : line.statement = .effect indentation body dependencies)
    (start : AtLineStart front) :
    occurrencesFrom effectOpening front.reverse front.length 0 (line.text ++ rest) =
      ⟨front.length + indentation.text.length, front.length + indentation.text.length +
        "useEffect(".toList.length, ()⟩
        :: occurrencesFrom effectOpening (front ++ line.text).reverse (front ++ line.text).length 0
          rest := by
  have silent : ∀ behind,
      SilentIn effectOpening behind (effectArguments body dependencies ++ line.closing) rest :=
    fun behind => silent_effectOpening behind (line.apart_closing _ rest)
      (hookless_closed (hookless_effectArguments body dependencies))
  have free := startsUnqualified_line start indentation
  rw [Line.text_effect h, List.append_assoc, List.append_assoc]
  rw [occurrencesFrom_silent
    _ _ (silent_indentation not_isIndent_of_effectOpening indentation.valid _ _)]
  rw [occurrencesFrom_found _ (by decide) (effectOpening_call free _),
    occurrencesFrom_silent _ _ (silent _)]
  simp only [List.reverse_append, List.length_append, List.append_assoc, Nat.add_assoc]

/-- No effect is found on the line of a state declaration. -/
theorem occurrences_effect_state {name setter : Word} {qualified : Bool}
    {type? : Option TypeArgument}
    {initial : Snippet}
    (h : line.statement = .state indentation name setter qualified type? initial) :
    occurrencesFrom effectOpening front.reverse front.length 0 (line.text ++ rest) =
      occurrencesFrom effectOpening (front ++ line.text).reverse (front ++ line.text).length 0
        rest := by
  have silent : ∀ behind, SilentIn effectOpening behind (initial.text ++ line.closing) rest :=
    fun behind => silent_effectOpening behind (line.apart_closing initial.text rest)
      (hookless_closed initial.hookless)
  rw [Line.text_state h, List.append_assoc, List.append_assoc]
  rw [occurrencesFrom_silent
    _ _ (silent_indentation not_isIndent_of_effectOpening indentation.valid _ _)]
  rw [occurrencesFrom_silent _ _ (silent_effectOpening_declaration _ _ name setter qualified type?)]
  rw [occurrencesFrom_silent _ _ (silent _)]
  simp only [List.reverse_append, List.length_append, List.append_assoc, Nat.add_assoc]

end Effects

theorem effectOpening_nil (behind : Text) : effectOpening behind [] = none := by
  rw [effectOpening]
  cases startsUnqualified behind <;> rfl

/-- The effects of a script are those of its statements. -/
theorem findEffects_script {lines : List Line} (h : ∀ line ∈ lines.dropLast, line.ended = true) :
    findEffects (scriptText lines) = located Statement.effectBlock? 0 lines := by
  rw [findEffects_eq]
  refine filterMap_script effectOpening_nil (fun {front rest line} start before later => ?_) lines
    [] (fun _ => .inl rfl) h
  cases statement : line.statement with
  | state indentation name setter qualified type? initial =>
    rw [occurrences_effect_state statement]
    rfl
  | effect indentation body dependencies =>
    rw [occurrences_effect statement start, List.filterMap_cons,
      effectAt_line statement start before, statement]
    rfl
  | plain code hookless =>
    rw [occurrencesFrom_silent
      _ _ (silent_effectOpening _ (Line.apart_text before) (Line.hookless_plain statement)),
      List.reverse_append, List.length_append]
    rfl

/-! ## What is left -/

/-- The spans of the lines that declare something; the first line starts at `pos`. -/
def declaredSpans (pos : Nat) (lines : List Line) : List Span :=
  (located (fun statement => if statement.isPlain then none else some ()) pos lines).map (·.2)

theorem declaredSpans_plain {line : Line} (h : line.statement.isPlain = true) (pos : Nat)
    (lines : List Line) :
    declaredSpans pos (line :: lines) = declaredSpans (pos + line.text.length) lines := by
  rw [declaredSpans, located, h]
  rfl

theorem declaredSpans_declaring {line : Line} (h : line.statement.isPlain = false) (pos : Nat)
    (lines : List Line) :
    declaredSpans pos (line :: lines) =
      ⟨pos, pos + line.text.length⟩ :: declaredSpans (pos + line.text.length) lines := by
  rw [declaredSpans, located, h]
  rfl

/-- The spans of state declarations and of effects are those of all lines that declare something. -/
theorem perm_declaredSpans : ∀ (lines : List Line) (pos : Nat),
    ((located Statement.stateVariable? pos lines).map (·.2) ++
      (located Statement.effectBlock? pos lines).map (·.2)).Perm
      (declaredSpans pos lines)
  | [], _ => .nil
  | line :: lines, pos => by
    have ih := perm_declaredSpans lines (pos + line.text.length)
    cases statement : line.statement with
    | state indentation name setter qualified type? initial =>
      rw [declaredSpans_declaring (by rw [statement]; rfl), located, located, statement]
      exact ih.cons _
    | effect indentation body dependencies =>
      rw [declaredSpans_declaring (by rw [statement]; rfl), located, located, statement]
      exact List.perm_middle.trans (ih.cons _)
    | plain code hookless =>
      rw [declaredSpans_plain (by rw [statement]; rfl), located, located, statement]
      exact ih

theorem le_start_of_mem_declaredSpans : ∀ {lines : List Line} {pos : Nat} {span : Span},
    span ∈ declaredSpans pos lines → pos ≤ span.start
  | line :: lines, pos, span, h => by
    cases plain : line.statement.isPlain with
    | true =>
      rw [declaredSpans_plain plain] at h
      exact Nat.le_of_add_right_le (le_start_of_mem_declaredSpans h)
    | false =>
      rw [declaredSpans_declaring plain] at h
      rcases List.mem_cons.1 h with rfl | h
      · exact Nat.le_refl _
      · exact Nat.le_of_add_right_le (le_start_of_mem_declaredSpans h)

theorem length_pos_of_declaring {line : Line} (h : line.statement.isPlain = false) :
    0 < line.text.length := by
  cases statement : line.statement with
  | state indentation name setter qualified type? initial =>
    rw [Line.text_state statement]
    simp only [List.length_append, List.length_singleton]
    omega
  | effect indentation body dependencies =>
    rw [Line.text_effect statement]
    have positive : 0 < "useEffect(".toList.length := by decide
    simp only [List.length_append]
    omega
  | plain code hookless => simp [statement, Statement.isPlain] at h

/-- The edit that takes a span out. -/
def takeOut (span : Span) : Edit :=
  ⟨span, []⟩

theorem pairwise_declaredSpans : ∀ (lines : List Line) (pos : Nat),
    ((declaredSpans pos lines).map takeOut).Pairwise fun a b => a.le b
  | [], _ => .nil
  | line :: lines, pos => by
    have ih := pairwise_declaredSpans lines (pos + line.text.length)
    cases plain : line.statement.isPlain with
    | true =>
      rw [declaredSpans_plain plain]
      exact ih
    | false =>
      rw [declaredSpans_declaring plain, List.map_cons]
      refine .cons (fun edit hm => ?_) ih
      obtain ⟨span, hs, rfl⟩ := List.mem_map.1 hm
      have later := le_start_of_mem_declaredSpans hs
      have positive := length_pos_of_declaring plain
      exact Edit.le_iff.2 (.inl (by change pos < span.start; omega))

/-- Taking out the lines that declare something keeps the others; `kept` is text that is already
passed over. -/
theorem replaceFrom_declaredSpans : ∀ (lines : List Line) (front kept : Text),
    replaceFrom (front ++ (kept ++ scriptText lines)) front.length
        ((declaredSpans (front.length + kept.length) lines).map takeOut) = kept ++ plainText lines
  | [], front, kept => by
    change (front ++ (kept ++ scriptText [])).drop front.length = _
    rw [List.drop_left]
    rfl
  | line :: lines, front, kept => by
    rw [scriptText_cons]
    cases plain : line.statement.isPlain with
    | true =>
      have ih := replaceFrom_declaredSpans lines front (kept ++ line.text)
      rw [List.length_append, ← Nat.add_assoc, List.append_assoc kept] at ih
      rw [declaredSpans_plain plain, ih, plainText, plainText, List.flatMap_cons, if_pos plain,
        List.append_assoc]
    | false =>
      have ih := replaceFrom_declaredSpans lines (front ++ (kept ++ line.text)) []
      have slice_kept : slice (front ++ (kept ++ (line.text ++ scriptText lines))) front.length
          (front.length + kept.length) = kept :=
        slice_append front kept (line.text ++ scriptText lines)
      have length : (front ++ (kept ++ line.text)).length =
          front.length + kept.length + line.text.length := by
        rw [List.length_append, List.length_append, Nat.add_assoc]
      rw [length, List.nil_append, List.nil_append, List.length_nil, Nat.add_zero,
        List.append_assoc, List.append_assoc] at ih
      rw [declaredSpans_declaring plain, List.map_cons, replaceFrom]
      simp only [takeOut] at ih ⊢
      rw [slice_kept, ih, plainText, plainText, List.flatMap_cons, plain, List.append_nil]
      rfl

/-- Without its hooks a script is the lines of its plain statements. -/
theorem withoutHooks_script {lines : List Line} (h : ∀ line ∈ lines.dropLast, line.ended = true) :
    withoutHooks (scriptText lines) = plainText lines := by
  have sorted :=
    mergeSort_eq_of_perm ((perm_declaredSpans lines 0).map takeOut) (pairwise_declaredSpans lines 0)
  rw [withoutHooks, findState_script h, findEffects_script h, removeSpans]
  change replaceSpans _ (List.mergeSort (List.map takeOut _) Edit.le) = _
  rw [sorted]
  exact replaceFrom_declaredSpans lines [] []

theorem hookless_plainText : ∀ {lines : List Line}, (∀ line ∈ lines.dropLast, line.ended = true) →
    Hookless (plainText lines)
  | [], _ => hookless_of_not_mem List.not_mem_nil
  | line :: lines, h => by
    obtain ⟨ended, rest⟩ := ends_cons h
    have ih := hookless_plainText rest
    have before : line.Before (plainText lines) := ended.imp_right fun empty => by
      rw [empty]
      rfl
    rw [plainText, List.flatMap_cons]
    cases statement : line.statement with
    | plain code hookless =>
      exact (Line.hookless_plain statement).append ih (Line.apart_text before).border
    | state indentation name setter qualified type? initial => exact ih
    | effect indentation body dependencies => exact ih

/-! ## Extraction -/

theorem map_fst_located {β : Type} (find : Statement → Option β) :
    ∀ (lines : List Line) (pos : Nat),
    (located find pos lines).map (·.1) = lines.filterMap fun line => find line.statement
  | [], _ => rfl
  | line :: lines, pos => by
    rw [located, List.map_append, map_fst_located find lines, List.filterMap_cons]
    cases find line.statement <;> rfl

/-- The state variables that a script declares, in order. -/
def Script.states (script : Script) : List StateVariable :=
  script.lines.filterMap (·.statement.stateVariable?)

/-- The effects of a script, in order. -/
def Script.effects (script : Script) : List EffectBlock :=
  script.lines.filterMap (·.statement.effectBlock?)

/-- Extraction from a script gives the state variables and the effects that its statements declare,
in order, one field, accessor or comment for each, and leaves the lines of the plain statements. -/
theorem extractHooks_script (options : Options) (script : Script) :
    (extractHooks options (scriptText script.lines)).result = .ok
      { fields := script.states.map (stateField options.stateStyle)
        accessors := script.states.map (stateAccessor options.stateStyle)
        body := plainText script.lines
        state := script.states
        effects := script.effects
        lifecycle := script.effects.map effectComment } := by
  have quiet := occurrences_otherHookOpening (hookless_plainText script.ends)
  have replaced :
      (replaceHooks (occurrences otherHookOpening (withoutHooks (scriptText script.lines))).reverse
      (withoutHooks (scriptText script.lines))).result = .ok (plainText script.lines) := by
    rw [withoutHooks_script script.ends, quiet]
    rfl
  have states := map_fst_located Statement.stateVariable? script.lines 0
  have effects := map_fst_located Statement.effectBlock? script.lines 0
  rw [extractHooks_of_replaced options replaced, findState_script script.ends,
    findEffects_script script.ends, Script.states, Script.effects, ← states, ← effects]
  simp only [List.map_map]
  rfl

end Recast
