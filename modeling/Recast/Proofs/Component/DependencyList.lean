import Recast.Proofs.Component.ScriptExtraction
import Recast.Proofs.Scan.Progress
import Recast.Proofs.Text.Gap

/-!
# Dependency lists

The dependency list of a hook is its second argument, if that starts with an array. What is recorded
of it is the argument without its first and its last character, wherever the array ends:
`ArrayArgument` is such a call with the array in it, and `ArrayArgument.inner_iff` says that the
recorded text is the one between the brackets just if the array ends its argument. Blanks and a
comma behind the array do no harm, since they belong to no argument; a comment does.

Effects record their list as it is, and the calls of other hooks carry it in a warning and in a
comment of the code that replaces them (`dependencies_verbatim_iff`).
-/

namespace Recast

/-! ## Characters that are not blank -/

/-- Trimming keeps the characters that are not blank. -/
theorem filter_trim (t : Text) : (trim t).filter (!isBlank ·) = t.filter (!isBlank ·) := by
  have blank : ∀ {blanks : Text}, isBlankText blanks → blanks.filter (!isBlank ·) = [] := by
    intro blanks all
    rw [List.filter_eq_nil_iff]
    intro c hc
    simpa using List.all_eq_true.1 all c hc
  obtain ⟨before, after, hb, ha, split⟩ := exists_append_trim t
  conv_rhs => rw [split, List.filter_append, List.filter_append, blank hb, blank ha,
    List.nil_append, List.append_nil]

/-- What trimming takes off the end of a text is blank. -/
theorem isBlankText_of_trim_append {s t : Text} (h : trim (s ++ t) = trim s) : isBlankText t := by
  have same : s.filter (!isBlank ·) ++ t.filter (!isBlank ·) = s.filter (!isBlank ·) := by
    rw [← List.filter_append, ← filter_trim, h, filter_trim]
  rw [List.append_right_eq_self, List.filter_eq_nil_iff] at same
  rw [isBlankText, List.all_eq_true]
  intro c hc
  simpa using same c hc

/-! ## The arguments of a call -/

theorem slice_slice (t : Text) {start stop first last : Nat} (fits : start + last ≤ stop) :
    slice (slice t start stop) first last = slice t (start + first) (start + last) := by
  simp only [slice]
  rw [List.take_drop, List.take_take, Nat.min_eq_left fits, List.drop_drop]

theorem slice_eq_cons {t : Text} {start stop : Nat} {c : Char} (here : t[start]? = some c)
    (before : start < stop) : slice t start stop = c :: slice t (start + 1) stop := by
  rw [← List.getElem?_take_of_lt before] at here
  obtain ⟨inside, rfl⟩ := List.getElem?_eq_some_iff.1 here
  exact List.drop_eq_getElem_cons inside

/-- A piece ends at a separator or at the end of the text. -/
theorem pieceSpans_stop {isSeparator : Char → Bool} {t : Text} :
    ∀ {cs : Text} {start pos resume : Nat}, t.drop pos = cs →
    pos ≤ t.length → ∀ span ∈ pieceSpans isSeparator start pos resume cs,
      span.stop = t.length ∨ ∃ c, t[span.stop]? = some c ∧ isSeparator c
  | [], start, pos, resume, here, inside => by
    intro span hm
    obtain rfl := List.mem_singleton.1 hm
    rw [List.drop_eq_nil_iff] at here
    exact .inl (Nat.le_antisymm inside here)
  | c :: cs, start, pos, resume, here, inside => by
    have size := length_of_drop_eq_cons here
    have next := fun start resume => @pieceSpans_stop isSeparator t cs start (pos + 1) resume
      (MaskState.drop_succ here) (by omega)
    rw [pieceSpans]
    split
    · exact next start resume
    · split
      · exact next start _
      · split
        · exact next start _
        · split
          · rename_i separates
            refine List.forall_mem_cons.2 ⟨.inr ⟨c, ?_, separates⟩, next (pos + 1) resume⟩
            rw [← Nat.add_zero pos, ← List.getElem?_drop, here]
            rfl
          · exact next start resume

/-- The spans of the arguments of the call whose bracket opens at `opening` and ends at `stop`. -/
def argumentSpans (t : Text) (opening stop : Nat) : List Span :=
  ((pieceSpans isComma 0 0 0 (slice t (opening + 1) (stop - 1))).map fun span =>
    ⟨opening + 1 + span.start, opening + 1 + span.stop⟩).filter fun span => !isBlankText (span.of t)

section

variable {t : Text} {opening stop : Nat}

theorem length_slice_call (call : bracketEndAt? t opening = some stop) :
    opening + 1 + (slice t (opening + 1) (stop - 1)).length = stop - 1 := by
  have bounds := bracketEndAt?_bounds call
  rw [slice, List.length_drop, List.length_take]
  omega

/-- A piece of the text in the brackets of a call ends at a comma or at the end of the call. -/
theorem pieceSpans_call (call : bracketEndAt? t opening = some stop) {piece : Span}
    (h : piece ∈ pieceSpans isComma 0 0 0 (slice t (opening + 1) (stop - 1))) :
    opening + 1 + piece.stop ≤ stop - 1 ∧
      (t[opening + 1 + piece.stop]? = some ',' ∨ opening + 1 + piece.stop = stop - 1) := by
  have size := length_slice_call call
  rcases pieceSpans_stop (t := slice t (opening + 1) (stop - 1)) rfl (Nat.zero_le _) piece h
    with last | ⟨c, here, comma⟩
  · omega
  · have inside := (List.getElem?_eq_some_iff.1 here).1
    rw [slice, List.getElem?_drop, List.getElem?_take_of_lt (by omega)] at here
    obtain rfl : c = ',' := by simpa [isComma] using comma
    exact ⟨by omega, .inl here⟩

/-- The arguments of a call are the trimmed texts of their spans. -/
theorem callArguments?_eq (call : bracketEndAt? t opening = some stop) :
    callArguments? t opening =
      some ((argumentSpans t opening stop).map fun span => trim (span.of t), stop) := by
  have texts : ∀ piece ∈ pieceSpans isComma 0 0 0 (slice t (opening + 1) (stop - 1)),
      trim (piece.of (slice t (opening + 1) (stop - 1))) =
        trim (Span.of ⟨opening + 1 + piece.start, opening + 1 + piece.stop⟩ t) :=
    fun piece hp => congrArg trim (slice_slice t (pieceSpans_call call hp).1)
  have filled : ((!·.isEmpty) : Text → Bool) ∘ (fun span : Span => trim (span.of t)) =
      fun span => !isBlankText (span.of t) :=
    funext fun span => congrArg not (isEmpty_trim _)
  rw [callArguments?, call, Option.map_some, splitTopLevel, piecesOf, List.map_congr_left texts,
    argumentSpans, ← filled, ← List.filter_map, List.map_map]
  rfl

end

/-- A call with an array at the start of its second argument. -/
structure ArrayArgument (t : Text) (opening : Nat) where
  /-- Where the call ends. -/
  callStop : Nat
  first : Span
  argument : Span
  others : List Span
  /-- Where the array starts. -/
  start : Nat
  /-- Where the array ends. -/
  stop : Nat
  opened : t[opening]? = some '('
  call : bracketEndAt? t opening = some callStop
  listed : argumentSpans t opening callStop = first :: argument :: others
  inside : argument.start ≤ start ∧ start < argument.stop
  blank : isBlankText (slice t argument.start start)
  opens : t[start]? = some '['
  closes : bracketEndAt? t start = some stop

namespace ArrayArgument

variable {t : Text} {opening : Nat} (array : ArrayArgument t opening)

/-- The trimmed text between the brackets of the array. -/
def inner : Text :=
  trim (slice t (array.start + 1) (array.stop - 1))

/-- The array ends in its argument, and only blanks come behind it there. -/
def EndsArgument : Prop :=
  array.stop ≤ array.argument.stop ∧ isBlankText (slice t array.stop array.argument.stop)

/-- The text of the argument behind the opening bracket of the array. -/
def tail : Text :=
  slice t (array.start + 1) array.argument.stop

theorem trim_argument : trim (array.argument.of t) = '[' :: trimEnd array.tail := by
  have split : array.argument.of t = slice t array.argument.start array.start ++
      '[' :: array.tail := by
    rw [tail, ← slice_eq_cons array.opens array.inside.2,
      slice_append_slice t array.inside.1 array.inside.2.le]
    rfl
  have lead : trimStart (slice t array.argument.start array.start) = [] :=
    List.dropWhile_eq_nil_iff.2 (List.all_eq_true.1 array.blank)
  have bracket : isBlank '[' = false := by decide
  rw [trim, split, trimStart_append (by simpa using bracket), lead]
  exact trimEnd_append (s := ['[']) (by simpa using bracket) array.tail

/-- The array ends right behind a closing bracket. -/
theorem behind : EndsBehind t ']' (array.start + 1) array.stop :=
  bracketEndAt?_behind .square array.opens array.closes

/-- The argument ends at a comma or at the end of the call. -/
theorem argument_stop :
    t[array.argument.stop]? = some ',' ∨ t[array.argument.stop]? = some ')' := by
  have close := (bracketEndAt?_behind .round array.opened array.call).2.2
  have listed : array.argument ∈ argumentSpans t opening array.callStop := by
    rw [array.listed]
    exact List.mem_cons_of_mem _ List.mem_cons_self
  obtain ⟨piece, hp, same⟩ := List.mem_map.1 (List.mem_filter.1 listed).1
  rw [← same]
  rcases (pieceSpans_call array.call hp).2 with comma | last
  · exact .inl comma
  · exact .inr (last ▸ close)

/-- The text behind the opening bracket, if the array ends in its argument. -/
theorem tail_eq (within : array.stop ≤ array.argument.stop) :
    array.tail = slice t (array.start + 1) (array.stop - 1) ++ [']'] ++
      slice t array.stop array.argument.stop := by
  obtain ⟨after, -, close⟩ := array.behind
  have step : slice t (array.stop - 1) array.argument.stop =
      ']' :: slice t (array.stop - 1 + 1) array.argument.stop :=
    slice_eq_cons close (by omega)
  rw [Nat.sub_add_cancel (by omega)] at step
  rw [List.append_assoc, List.singleton_append, ← step, slice_append_slice t (by omega) (by omega)]
  rfl

/-- The text in the brackets goes on behind the argument, if the array does. -/
theorem slice_eq_tail_append (beyond : array.argument.stop < array.stop) :
    ∃ mark rest, isBlank mark = false ∧ slice t (array.start + 1) (array.stop - 1) = array.tail ++
      mark :: rest := by
  obtain ⟨-, -, close⟩ := array.behind
  obtain ⟨mark, here, plain, other⟩ : ∃ mark, t[array.argument.stop]? = some mark ∧
      isBlank mark = false ∧ mark ≠ ']' := by
    rcases array.argument_stop with comma | last
    · exact ⟨',', comma, by decide, by decide⟩
    · exact ⟨')', last, by decide, by decide⟩
  have before : array.argument.stop < array.stop - 1 := by
    refine Nat.lt_of_le_of_ne (by omega) fun same => other ?_
    rw [← same, here] at close
    exact Option.some.inj close
  refine ⟨mark, slice t (array.argument.stop + 1) (array.stop - 1), plain, ?_⟩
  rw [tail, ← slice_eq_cons here before, slice_append_slice t array.inside.2 before.le]

/-- The argument without its first and its last character is the text between the brackets of the
array just if the array ends the argument. -/
theorem inner_iff : trim (trimEnd array.tail).dropLast = array.inner ↔ array.EndsArgument := by
  by_cases within : array.stop ≤ array.argument.stop
  · have bracket : isBlank ']' = false := by decide
    rw [array.tail_eq within, trimEnd_append (by simpa using bracket), inner, EndsArgument,
      and_iff_right within]
    generalize slice t (array.start + 1) (array.stop - 1) = front
    generalize slice t array.stop array.argument.stop = rest
    constructor
    · intro same
      by_contra filled
      have kept : trimEnd rest ≠ [] := by
        intro none
        obtain ⟨blanks, blank, split⟩ := exists_trimEnd_append rest
        rw [none, List.nil_append] at split
        exact filled (split ▸ blank)
      rw [List.dropLast_append_of_ne_nil kept, List.append_assoc] at same
      have blank := isBlankText_of_trim_append same
      rw [isBlankText, List.singleton_append, List.all_cons, bracket] at blank
      cases blank
    · intro blank
      rw [trimEnd_blank blank, List.append_nil, List.dropLast_concat]
  · refine iff_of_false (fun same => ?_) fun ends => within ends.1
    obtain ⟨mark, rest, plain, longer⟩ := array.slice_eq_tail_append (Nat.lt_of_not_le within)
    obtain ⟨blanks, -, split⟩ := exists_trimEnd_append array.tail
    obtain ⟨last, cut⟩ := List.dropLast_prefix (trimEnd array.tail)
    have whole : array.tail ++ mark :: rest =
        (trimEnd array.tail).dropLast ++ (last ++ (blanks ++ mark :: rest)) := by
      rw [← List.append_assoc, cut, ← List.append_assoc, ← split]
    rw [inner, longer, whole] at same
    have blank := List.all_eq_true.1 (isBlankText_of_trim_append same.symm) mark (by simp)
    rw [plain] at blank
    cases blank

/-- What is recorded of the argument. -/
theorem recorded : ∃ arguments list, callArguments? t opening = some (arguments, array.callStop) ∧
    dependencyList? arguments = some list ∧ (list = array.inner ↔ array.EndsArgument) := by
  refine ⟨_, trim (trimEnd array.tail).dropLast, callArguments?_eq array.call, ?_, array.inner_iff⟩
  rw [array.listed, List.map_cons, List.map_cons, array.trim_argument]
  rfl

end ArrayArgument

/-! ## Hooks with dependencies -/

/-- The call of a hook other than a reference is replaced, with its dependency list in a warning and
in a comment. -/
theorem replaceHook_list {hook : OtherHook} (tracks : hook ≠ .ref) {arguments : List Text}
    {list : Text} (given : dependencyList? arguments = some list) (preceding : Text) :
    ∃ code, replaceHook hook arguments preceding = (do
      Outcome.warn (.untrackedHook hook list)
      return some (code ++ list ++ "] */".toList)) := by
  obtain ⟨first, rest, rfl⟩ : ∃ first rest, arguments = first :: rest := by
    cases arguments with
    | nil => cases given
    | cons first rest => exact ⟨first, rest, rfl⟩
  cases hook with
  | ref => exact absurd rfl tracks
  | callback => exact ⟨_, by rw [replaceHook, given]; rfl⟩
  | memo => exact ⟨_, by rw [replaceHook, given]; rfl⟩

section

variable {t : Text}

/-- The recorded dependencies of an effect are the text between the brackets just if the array ends
its argument. -/
theorem effect_dependencies_iff {found : Occurrence Unit} {effect : EffectBlock} {span : Span}
    (h : effectAt t found = some (effect, span)) (array : ArrayArgument t (found.stop - 1)) :
    effect.dependencies? = some array.inner ↔ array.EndsArgument := by
  obtain ⟨arguments, list, call, given, exactly⟩ := array.recorded
  simp only [effectAt, call, Option.bind_eq_bind, Option.bind_some, Option.bind_eq_some_iff,
    Option.some.injEq, Prod.mk.injEq] at h
  obtain ⟨callback, -, effectBody, -, rfl, -⟩ := h
  rw [given, Option.some.injEq, exactly]

/-- A call of a hook is replaced with its dependencies, which are the text between the brackets just
if the array ends its argument. -/
theorem hook_dependencies_iff {found : Occurrence OtherHook} (tracks : found.value ≠ .ref)
    (array : ArrayArgument t (found.stop - 1)) :
    ∃ list, (list = array.inner ↔ array.EndsArgument) ∧ ∃ code, ∀ rest,
      replaceHooks (found :: rest) t = (do
      Outcome.warn (.untrackedHook found.value list)
      replaceHooks rest (t.take found.start ++ (code ++ list ++ "] */".toList) ++
        t.drop array.callStop)) := by
  obtain ⟨arguments, list, call, given, exactly⟩ := array.recorded
  obtain ⟨code, replaced⟩ := replaceHook_list tracks given (t.take found.start)
  refine ⟨list, exactly, code, fun rest => ?_⟩
  rw [replaceHooks, call]
  dsimp only
  rw [replaced]
  simp only [bind_assoc, pure_bind]

end

/-- Of every effect and of every call of a callback or memo whose second argument starts with an
array, the recorded dependencies are the trimmed text between the brackets of the array just if
nothing but blanks stands between the array and the end of the argument. -/
theorem dependencies_verbatim_iff (t : Text) :
    findEffects t = (occurrences effectOpening t).filterMap (effectAt t) ∧
    (∀ found effect span, effectAt t found = some (effect, span) →
      ∀ array : ArrayArgument t (found.stop - 1),
      (effect.dependencies? = some array.inner ↔ array.EndsArgument)) ∧
    ∀ found : Occurrence OtherHook, found.value ≠ .ref → ∀ array : ArrayArgument t (found.stop - 1),
      ∃ list, (list = array.inner ↔ array.EndsArgument) ∧ ∃ code, ∀ rest,
        replaceHooks (found :: rest) t = (do
        Outcome.warn (.untrackedHook found.value list)
        replaceHooks rest (t.take found.start ++ (code ++ list ++ "] */".toList) ++
          t.drop array.callStop)) :=
  ⟨findEffects_eq t, fun _ _ _ h array => effect_dependencies_iff h array,
    fun _ tracks array => hook_dependencies_iff tracks array⟩

/-- An effect with blanks and a comma behind its dependency list. -/
def trailingComma : Text :=
  "useEffect(() => \x7b run(); \x7d, [ a, b ] ,\n);".toList

/-- The dependency list of the effect. -/
def trailingCommaArray : ArrayArgument trailingComma 9 where
  callStop := 40
  first := ⟨10, 26⟩
  argument := ⟨27, 37⟩
  others := []
  start := 28
  stop := 36
  opened := by decide +kernel
  call := by decide +kernel
  listed := by decide +kernel
  inside := by decide
  blank := by decide +kernel
  opens := by decide +kernel
  closes := by decide +kernel

theorem dependencies_verbatim_trailingComma :
    effectAt trailingComma ⟨0, 10, ()⟩ =
      some (⟨"run();".toList, some trailingCommaArray.inner⟩, ⟨0, 41⟩) ∧
      trailingCommaArray.inner = "a, b".toList ∧ trailingCommaArray.EndsArgument := by
  have effect : effectAt trailingComma ⟨0, 10, ()⟩ =
      some (⟨"run();".toList, some trailingCommaArray.inner⟩, ⟨0, 41⟩) := by
    decide +kernel
  exact ⟨effect, by decide +kernel,
    ((dependencies_verbatim_iff trailingComma).2.1 _ _ _ effect trailingCommaArray).1 rfl⟩

/-- An effect with a comment behind its dependency list. -/
def commentedList : Text :=
  "useEffect(() => \x7b run(); \x7d, [a] /* once */);".toList

/-- A callback with a comment behind its dependency list. -/
def commentedCallback : Text :=
  "useCallback(() => run(a), [a] // once\n);".toList

/-- A comment behind the array becomes a part of the recorded dependencies, without its last
character. -/
theorem dependencies_commented :
    (∃ array : ArrayArgument commentedList 9, array.inner = "a".toList) ∧
      (findEffects commentedList).map (·.1.dependencies?) = [some "a] /* once *".toList] ∧
      (∃ array : ArrayArgument commentedCallback 11, array.inner = "a".toList) ∧
      (replaceHooks (occurrences otherHookOpening commentedCallback).reverse
        commentedCallback).journal.warnings =
        [.untrackedHook .callback "a] // onc".toList] := by
  refine ⟨⟨⟨43, ⟨10, 26⟩, ⟨27, 42⟩, [], 28, 31, ?_, ?_, ?_, ?_, ?_, ?_, ?_⟩, ?_⟩, ?_,
    ⟨⟨39, ⟨12, 24⟩, ⟨25, 38⟩, [], 26, 29, ?_, ?_, ?_, ?_, ?_, ?_, ?_⟩, ?_⟩, ?_⟩
  all_goals decide +kernel

end Recast
