import Recast.Proofs.Component.ClassConversion
import Recast.Proofs.Component.Replacement
import Recast.Proofs.Component.ReturnSplit
import Recast.Proofs.Text.Gap
import Recast.Proofs.Text.Lines

/-!
# Sources without markup

A conversion only fails on markup. Nothing that a conversion makes of a body without `<` has one:
taking hooks out (`extractHooks_unmarked`), splitting at the return (`splitReturn_unmarked`) and
moving a block of code (`mem_of_mem_codeBlock`) only put pieces of the body together, with words of
their own that have none. So all components of a source without `<` are converted
(`convertComponents_of_unmarked`).
-/

namespace Recast

open Outcome

/-! ## Characters of what is put together -/

theorem mem_of_mem_replaceFrom {t : Text} {c : Char} : ∀ {edits : List Edit} {last : Nat},
    c ∈ replaceFrom t last edits → c ∈ t ∨ ∃ edit ∈ edits, c ∈ edit.text
  | [], _, h => .inl (List.mem_of_mem_drop h)
  | edit :: edits, last, h => by
    rw [replaceFrom, List.mem_append, List.mem_append] at h
    rcases h with (h | h) | h
    · exact .inl (mem_of_mem_slice h)
    · exact .inr ⟨edit, by simp, h⟩
    · rcases mem_of_mem_replaceFrom h with h | ⟨other, hm, h⟩
      · exact .inl h
      · exact .inr ⟨other, by simp [hm], h⟩

theorem mem_of_mem_removeSpans {t : Text} {spans : List Span} {c : Char}
    (h : c ∈ removeSpans t spans) : c ∈ t := by
  rcases mem_of_mem_replaceFrom h with h | ⟨edit, hm, h⟩
  · exact h
  · rw [List.mem_mergeSort] at hm
    obtain ⟨span, -, rfl⟩ := List.mem_map.1 hm
    simp at h

theorem mem_of_mem_renameParameter {old new body : Text} {c : Char}
    (h : c ∈ renameParameter old new body) : c ∈ body ∨ c ∈ new := by
  rw [renameParameter] at h
  split at h
  · exact .inl h
  · rcases mem_of_mem_replaceFrom h with h | ⟨edit, hm, h⟩
    · exact .inl h
    · have proposed := mem_of_mem_dropOverlaps hm
      rw [List.mem_mergeSort] at proposed
      obtain ⟨found, -, made⟩ := List.mem_filterMap.1 proposed
      obtain ⟨-, same⟩ := Option.ite_none_left_eq_some.1 made
      obtain rfl := Option.some.inj same
      exact .inr h

theorem mem_of_mem_splitOn {mark c : Char} :
    ∀ {t piece : Text}, piece ∈ splitOn mark t → c ∈ piece → c ∈ t
  | [], piece, h, hc => by
    obtain rfl : piece = [] := by simpa [splitOn] using h
    exact hc
  | d :: t, piece, h, hc => by
    obtain ⟨first, rest, pieces⟩ := List.exists_cons_of_ne_nil (splitOn_ne_nil mark t)
    have inner : ∀ piece ∈ first :: rest, c ∈ piece → c ∈ t := fun piece hm =>
      mem_of_mem_splitOn (by rw [pieces]; exact hm)
    rw [splitOn, pieces] at h
    split at h
    · rcases List.mem_cons.1 h with rfl | h
      · simp at hc
      · exact List.mem_cons_of_mem d (inner piece h hc)
    · rcases List.mem_cons.1 h with rfl | h
      · rcases List.mem_cons.1 hc with rfl | hc
        · exact List.mem_cons_self
        · exact List.mem_cons_of_mem d (inner first (by simp) hc)
      · exact List.mem_cons_of_mem d (inner piece (by simp [h]) hc)

theorem mem_of_mem_joinWith {separator : Text} {c : Char} : ∀ {pieces : List Text},
    c ∈ joinWith separator pieces → c ∈ separator ∨ ∃ piece ∈ pieces, c ∈ piece
  | [piece], h => .inr ⟨piece, by simp, h⟩
  | piece :: next :: pieces, h => by
    rw [joinWith, List.mem_append, List.mem_append] at h
    · rcases h with (h | h) | h
      · exact .inr ⟨piece, by simp, h⟩
      · exact .inl h
      · rcases mem_of_mem_joinWith h with h | ⟨other, hm, h⟩
        · exact .inl h
        · exact .inr ⟨other, List.mem_cons_of_mem piece hm, h⟩
    · simp

/-- Moving a block of code brings in line ends at most. -/
theorem mem_of_mem_codeBlock {t : Text} {c : Char} (h : c ∈ codeBlock t) : c = '\n' ∨ c ∈ t := by
  have inside : ∀ {c}, c ∈ trimLineEnds t → c ∈ t := by
    intro c hc
    rw [trimLineEnds, dropEndWhile, List.mem_reverse] at hc
    exact mem_of_mem_dropWhile (List.mem_reverse.1 (mem_of_mem_dropWhile hc))
  have line : ∀ l ∈ (lines (trimLineEnds t)).map emptyIfIndent, c ∈ l → c ∈ t := by
    intro l hl hc
    obtain ⟨written, hm, rfl⟩ := List.mem_map.1 hl
    rw [emptyIfIndent] at hc
    split at hc
    · simp at hc
    · exact inside (mem_of_mem_splitOn hm hc)
  have dedented := mem_of_mem_trim h
  rw [dedent] at dedented
  split at dedented
  · rcases mem_of_mem_joinWith dedented with hc | ⟨l, hl, hc⟩
    · exact .inl (List.mem_singleton.1 hc)
    · exact .inr (line l hl hc)
  · rcases mem_of_mem_joinWith dedented with hc | ⟨l, hl, hc⟩
    · exact .inl (List.mem_singleton.1 hc)
    · obtain ⟨full, hm, rfl⟩ := List.mem_map.1 hl
      exact .inr (line full hm (List.mem_of_mem_drop hc))

theorem mem_of_mem_splitTopLevel {isSeparator : Char → Bool} {t piece : Text} {c : Char}
    (h : piece ∈ splitTopLevel isSeparator t) (hc : c ∈ piece) : c ∈ t := by
  rw [splitTopLevel, piecesOf] at h
  obtain ⟨hm, -⟩ := List.mem_filter.1 h
  obtain ⟨span, -, rfl⟩ := List.mem_map.1 hm
  exact mem_of_mem_slice (mem_of_mem_trim hc)

/-! ## Hooks -/

theorem mem_of_dependencyList? {arguments : List Text} {list : Text}
    (h : dependencyList? arguments = some list)
    {c : Char} (hc : c ∈ list) : ∃ argument ∈ arguments, c ∈ argument := by
  rw [dependencyList?.eq_def] at h
  split at h
  · rename_i second _
    obtain ⟨-, same⟩ := Option.ite_none_right_eq_some.1 h
    obtain rfl := Option.some.inj same
    exact ⟨second, by simp,
      List.mem_of_mem_drop ((List.dropLast_sublist _).mem (mem_of_mem_trim hc))⟩
  · simp at h

theorem mem_of_effectCallback? {t rest : Text} (h : effectCallback? t = some rest) {c : Char}
    (hc : c ∈ rest) : c ∈ t := by
  simp only [effectCallback?, Option.bind_eq_bind, Option.bind_eq_some_iff, Option.some.injEq] at h
  obtain ⟨params, opened, close, closed, arrow, pointed, rfl⟩ := h
  have callback : c ∈ params := by
    have : c ∈ close :=
      mem_of_mem_trimStart (by rw [eq_append_of_dropHead? pointed]; simp [mem_of_mem_trimStart hc])
    exact mem_of_mem_trimStart (by rw [eq_append_of_dropHead? closed]; simp [this])
  split at opened
  · rename_i after isAsync
    have : c ∈ after :=
      mem_of_mem_trimStart (by rw [eq_append_of_dropHead? opened]; simp [callback])
    rw [eq_append_of_dropHead? isAsync]
    simp [this]
  · rw [eq_append_of_dropHead? opened]
    simp [callback]

/-- What replaces a hook has markup in an argument only. -/
theorem replaceHook_unmarked {arguments : List Text} (h : ∀ argument ∈ arguments, '<' ∉ argument)
    (hook : OtherHook)
    (preceding : Text) :
    (replaceHook hook arguments preceding).Ensures fun code? => ∀ code ∈ code?, '<' ∉ code := by
  have list : '<' ∉ (dependencyList? arguments).getD [] := by
    cases found : dependencyList? arguments with
    | none => simp
    | some list =>
      intro hc
      obtain ⟨argument, hm, hc⟩ := mem_of_dependencyList? found hc
      exact h argument hm hc
  intro code? made code hcode
  cases hook with
  | ref =>
    have given : '<' ∉ arguments.headD "null".toList := by
      cases arguments with
      | nil => decide
      | cons first rest => exact h first (by simp)
    obtain rfl := Except.ok.inj made
    obtain rfl := Option.mem_some_iff.1 hcode
    simp only [List.mem_append, not_or]
    exact ⟨⟨by decide, given⟩, by decide⟩
  | callback =>
    cases arguments with
    | nil =>
      obtain rfl := Except.ok.inj made
      simp at hcode
    | cons first rest =>
      obtain rfl := Except.ok.inj made
      obtain rfl := Option.mem_some_iff.1 hcode
      simp only [List.mem_append, not_or]
      exact ⟨⟨⟨⟨by decide, h first (by simp)⟩, by decide⟩, list⟩, by decide⟩
  | memo =>
    cases arguments with
    | nil =>
      obtain rfl := Except.ok.inj made
      simp at hcode
    | cons first rest =>
      have bare : '<' ∉ first := h first (by simp)
      obtain rfl := Except.ok.inj made
      obtain rfl := Option.mem_some_iff.1 hcode
      simp only [List.mem_append, not_or]
      refine ⟨⟨⟨?_, by decide⟩, list⟩, by decide⟩
      split
      · rename_i body found
        split
        · simp only [List.mem_append, not_or]
          exact ⟨⟨by decide, bare⟩, by decide⟩
        · simp only [List.mem_append, not_or]
          exact ⟨⟨by decide, fun hc => bare (mem_of_effectCallback? found (mem_of_mem_trim hc))⟩,
            by decide⟩
      · simp only [List.mem_append, not_or]
        exact ⟨⟨by decide, bare⟩, by decide⟩

theorem callArguments?_unmarked {body : Text} (h : '<' ∉ body) {opening stop : Nat}
    {arguments : List Text}
    (found : callArguments? body opening = some (arguments, stop)) :
    ∀ argument ∈ arguments, '<' ∉ argument := by
  obtain ⟨stop, -, same⟩ := Option.map_eq_some_iff.1 found
  obtain ⟨rfl, -⟩ := Prod.mk.inj same
  exact fun argument hm hc => h (mem_of_mem_slice (mem_of_mem_splitTopLevel hm hc))

theorem replaceHooks_unmarked : ∀ {found : List (Occurrence OtherHook)} {body : Text}, '<' ∉ body →
    (replaceHooks found body).Ensures fun replaced => '<' ∉ replaced
  | [], _, h => ensures_pure h
  | occurrence :: found, body, h => by
    rw [replaceHooks]
    split
    · exact replaceHooks_unmarked h
    · rename_i arguments stop call
      refine (replaceHook_unmarked (callArguments?_unmarked h call) occurrence.value _).bind
        fun code? hcode => ?_
      cases code? with
      | none => exact replaceHooks_unmarked h
      | some code =>
        refine replaceHooks_unmarked ?_
        simp only [List.mem_append, not_or]
        exact ⟨⟨fun hc => h (List.mem_of_mem_take hc), hcode code rfl⟩,
          fun hc => h (List.mem_of_mem_drop hc)⟩

theorem extractHooks_unmarked (options : Options) {body : Text} (h : '<' ∉ body) :
    (extractHooks options body).Ensures fun extraction => '<' ∉ extraction.body := by
  rw [extractHooks]
  refine ensures_bind fun _ => ensures_bind fun _ => ?_
  exact (replaceHooks_unmarked fun hc => h (mem_of_mem_removeSpans hc)).bind fun replaced kept =>
    ensures_pure kept

/-! ## The return -/

/-- The split of a body without markup. -/
theorem splitReturn_unmarked {body : Text} (h : '<' ∉ body) :
    ∃ before returned?, splitReturn body = .ok (before, returned?) ∧ '<' ∉ before ∧
      ∀ returned ∈ returned?, '<' ∉ returned := by
  cases last : (topLevelMatches body returnWord 0).getLast? with
  | none => exact ⟨body, none, by rw [splitReturn, last], h, by simp⟩
  | some statement =>
    have before : '<' ∉ body.take statement.start := fun hc => h (List.mem_of_mem_take hc)
    have value : ∀ start, ∃ value, returnedAt body start = .ok value ∧ '<' ∉ value := by
      intro start
      have element : (body.drop start).head? ≠ some '<' := fun head =>
        h (List.mem_of_mem_drop (List.mem_of_mem_head? head))
      rw [returnedAt, if_neg element]
      split
      · refine ⟨_, rfl, ?_⟩
        split <;> exact fun hc => h (mem_of_mem_slice (mem_of_mem_trim hc))
      · exact ⟨_, rfl, fun hc => h (mem_of_mem_slice (mem_of_mem_trim hc))⟩
    obtain ⟨value, found, bare⟩ :=
      value (body.length - (trimStart (body.drop statement.stop)).length)
    refine ⟨body.take statement.start, some value,
      by rw [splitReturn_eq last, found]; rfl, before, ?_⟩
    rintro _ ⟨⟩
    exact bare

/-! ## Components -/

theorem Definition.code_unmarked {definition : Definition} (h : '<' ∉ definition.body) :
    '<' ∉ definition.code := by
  rw [Definition.code]
  split
  · intro hc
    rcases mem_of_mem_renameParameter hc with hc | hc
    · exact h hc
    · revert hc
      decide
  · exact h

theorem recastReturn_unmarked (name : Text) {returned? : Option Text}
    (h : ∀ returned ∈ returned?, '<' ∉ returned) :
    ∃ value, (recastReturn name returned?).result = .ok value := by
  cases returned? with
  | none => exact ⟨_, rfl⟩
  | some returned =>
    have bare := h returned rfl
    have first : returned.head? ≠ some '<' := fun head => bare (List.mem_of_mem_head? head)
    rw [recastReturn, if_neg first, recastExpression_eq_pure bare, pure_bind, if_pos rfl]
    exact ⟨_, rfl⟩

/-- A block without markup is converted. -/
theorem convertFunctional_unmarked (options : Options) {definition : Definition}
    (block : definition.concise = false)
    (h : '<' ∉ definition.body) :
    ∃ text, (convertFunctional options definition).result = .ok text := by
  obtain ⟨replaced, extracted⟩ := extractHooks_result options definition.code
  have kept := extractHooks_unmarked options (Definition.code_unmarked h) _ extracted
  obtain ⟨before, returned?, split, hb, hr⟩ := splitReturn_unmarked kept
  obtain ⟨value, returned⟩ := recastReturn_unmarked definition.name hr
  have moved : '<' ∉ codeBlock before := fun hc => by
    rcases mem_of_mem_codeBlock hc with hc | hc
    · revert hc
      decide
    · exact hb hc
  refine ⟨_, (convertFunctional_eq_ok block).2 ⟨codeBlock before, value,
    ⟨_, before, returned?, extracted, split, returned, ?_⟩, rfl⟩⟩
  rw [recastEmbedded_eq_pure moved]
  rfl

theorem arrowBody?_unmarked {source : Text} (h : '<' ∉ source) (start : Nat) :
    ∃ found, arrowBody? source start = .ok found ∧
      ∀ body concise stop, found = some (body, concise, stop) → concise = false ∧ '<' ∉ body := by
  rw [arrowBody?]
  split
  · rename_i head
    exact absurd (List.mem_of_mem_drop (List.mem_of_mem_head? head)) h
  · refine ⟨_, rfl, fun body concise stop made => ?_⟩
    obtain ⟨_, -, ⟨⟩⟩ := Option.map_eq_some_iff.1 made
    exact ⟨rfl, fun hc => h (mem_of_mem_slice hc)⟩
  · refine ⟨_, rfl, fun body concise stop made => ?_⟩
    obtain ⟨_, -, made⟩ := Option.bind_eq_some_iff.1 made
    obtain ⟨head, -⟩ := Option.ite_none_right_eq_some.1 made
    exact absurd (mem_of_mem_slice (mem_of_mem_trim (List.mem_of_mem_head? head))) h
  · exact ⟨none, rfl, by simp⟩

theorem arrowDefinition?_unmarked {source : Text} (h : '<' ∉ source)
    (head : Occurrence DefinitionHead) :
    ∃ found, arrowDefinition? source head = .ok found ∧
      ∀ definition, found = some definition → definition.concise = false ∧
        '<' ∉ definition.body := by
  rw [arrowDefinition?]
  split
  · exact ⟨none, rfl, by simp⟩
  · rename_i params start _
    obtain ⟨found, read, bare⟩ := arrowBody?_unmarked h start
    rw [read]
    refine ⟨_, rfl, fun definition made => ?_⟩
    obtain ⟨⟨body, concise, stop⟩, rfl, rfl⟩ := Option.map_eq_some_iff.1 made
    exact bare body concise stop rfl

theorem functionDefinition?_unmarked {source : Text} (h : '<' ∉ source)
    {head : Occurrence DefinitionHead}
    {definition : Definition} (found : functionDefinition? source head = some definition) :
    definition.concise = false ∧ '<' ∉ definition.body := by
  simp only [functionDefinition?, Option.bind_eq_bind, Option.bind_eq_some_iff, Option.some.injEq]
    at found
  obtain ⟨_, -, _, -, _, -, rfl⟩ := found
  exact ⟨rfl, fun hc => h (mem_of_mem_slice hc)⟩

theorem mem_of_mem_dropNested {definition : Definition} :
    ∀ {definitions : List Definition} {last : Nat},
    definition ∈ dropNested last definitions → definition ∈ definitions
  | [], _, h => h
  | first :: definitions, last, h => by
    rw [dropNested] at h
    split at h
    · exact List.mem_cons_of_mem _ (mem_of_mem_dropNested h)
    · rcases List.mem_cons.1 h with rfl | h
      · exact List.mem_cons_self
      · exact List.mem_cons_of_mem _ (mem_of_mem_dropNested h)

/-- The definitions of a source without markup are found, and all are blocks without markup. -/
theorem findDefinitions_unmarked {source : Text} (h : '<' ∉ source) :
    ∃ definitions, findDefinitions source = .ok definitions ∧
      ∀ definition ∈ definitions, definition.concise = false ∧ '<' ∉ definition.body := by
  obtain ⟨arrows, read⟩ := mapM_eq_ok (occurrences arrowComponent source) fun head _ =>
    (arrowDefinition?_unmarked h head).imp fun _ found => found.1
  rw [findDefinitions, read]
  refine ⟨_, rfl, fun definition hm => ?_⟩
  have hm := mem_of_mem_dropNested hm
  rw [List.mem_mergeSort, List.mem_append] at hm
  rcases hm with hm | hm
  · obtain ⟨head, -, found⟩ :=
      mem_of_mapM_eq_ok read (some definition) (List.reduceOption_mem_iff.1 hm)
    obtain ⟨made, same, bare⟩ := arrowDefinition?_unmarked h head
    rw [found] at same
    exact bare definition (Except.ok.inj same).symm
  · obtain ⟨head, -, found⟩ := List.mem_filterMap.1 hm
    exact functionDefinition?_unmarked h found

/-- All components of a source without markup are converted. -/
theorem convertComponents_of_unmarked (options : Options) {source : Text} (h : '<' ∉ source) :
    ∃ text, (convertComponents options source).result = .ok text := by
  obtain ⟨definitions, found, bare⟩ := findDefinitions_unmarked h
  obtain ⟨texts, written⟩ := mapM_eq_ok definitions fun definition hm =>
    convertFunctional_unmarked options (bare definition hm).1 (bare definition hm).2
  have converted := convertFunctionals_result options found
  rw [written] at converted
  obtain ⟨_, -, replaced⟩ := convertClasses_result options
    (weave (gapsFrom source 0 (definitions.map Definition.span)) texts)
  exact ⟨_, bind_result_eq_ok.2 ⟨_, converted, replaced⟩⟩

end Recast
