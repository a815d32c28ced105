import Recast.Proofs.Component.Method
import Recast.Proofs.Component.MovedCode
import Recast.Proofs.Scope.LiteralsKept

/-!
# Template literals of a component

The code before the returned value moves into the method as a block of lines: it loses the
indentation that its lines share, and gets that of the method. Neither step knows where a literal
begins. A template literal without substitutions (`isPlainTemplate`) is still one behind the first
step (`isPlainTemplate_dedented`) and stands where it did (`StandsIn.codeBlock`), qualifying copies
it (`StandsIn.infix_qualify`), and the second step changes its later lines once more. It comes out
as it was just if each of them is empty, or not blank and the code has the indentation of the method
already (`template_kept_iff`).
-/

namespace Recast

/-! ## Template literals without substitutions -/

/-- Whether the text behind the opening tick of a template goes to its closing tick and has no
substitution; the first character is `escaped` by a backslash before it. -/
def closesTemplate : Bool → Text → Bool
  | _, [] => false
  | true, _ :: cs => closesTemplate false cs
  | false, c :: cs =>
    if c = '\\' then closesTemplate true cs
    else if c = '`' then cs.isEmpty
    else !(c == '$' && cs.head? == some '{') && closesTemplate false cs

/-- A complete template literal without substitutions. -/
def isPlainTemplate (t : Text) : Bool :=
  t.head? == some '`' && closesTemplate false (t.drop 1)

theorem getLast?_of_closesTemplate :
    ∀ {t : Text} {escaped : Bool}, closesTemplate escaped t → t.getLast? = some '`'
  | [], true, h => by cases h
  | [], false, h => by cases h
  | c :: cs, true, h => by
    have last : cs.getLast? = some '`' := getLast?_of_closesTemplate h
    rw [List.getLast?_cons, last]
    rfl
  | c :: cs, false, h => by
    rw [closesTemplate] at h
    split at h
    · rw [List.getLast?_cons, getLast?_of_closesTemplate h]
      rfl
    · split at h
      · rename_i tick
        rw [List.isEmpty_iff.1 h, tick]
        rfl
      · rw [Bool.and_eq_true] at h
        rw [List.getLast?_cons, getLast?_of_closesTemplate h.2]
        rfl

theorem ticked_of_isPlainTemplate {t : Text} (h : isPlainTemplate t) : Ticked t := by
  rw [isPlainTemplate, Bool.and_eq_true, beq_iff_eq] at h
  obtain ⟨rest, rfl⟩ := List.head?_eq_some_iff.1 h.1
  refine ⟨h.1, ?_⟩
  rw [List.getLast?_cons, getLast?_of_closesTemplate (t := rest) h.2]
  rfl

/-- A line end is an ordinary character of a template, also behind a backslash. -/
theorem closesTemplate_append_lineEnd (rest : Text) : ∀ (line : Text) (escaped : Bool),
    closesTemplate escaped (line ++ '\n' :: rest) =
      (closesTemplate escaped (line ++ ['\n', '`']) && closesTemplate false rest)
  | [], true => by simp [closesTemplate]
  | [], false => by simp [closesTemplate]
  | c :: cs, true => closesTemplate_append_lineEnd rest cs false
  | c :: cs, false => by
    have heads : (cs ++ '\n' :: rest).head? = (cs ++ ['\n', '`']).head? := by
      rw [List.head?_append, List.head?_append]
      rfl
    rw [List.cons_append, List.cons_append, closesTemplate, closesTemplate, heads]
    split
    · exact closesTemplate_append_lineEnd rest cs true
    · split
      · cases cs <;> rfl
      · rw [closesTemplate_append_lineEnd rest cs false, Bool.and_assoc]

theorem closesTemplate_indentation (rest : Text) :
    ∀ {indentation : Text}, (∀ c ∈ indentation, isIndent c) →
    closesTemplate false (indentation ++ rest) = closesTemplate false rest
  | [], _ => rfl
  | c :: cs, h => by
    have ih := closesTemplate_indentation rest fun c hc => h c (List.mem_cons_of_mem _ hc)
    have blank := h c List.mem_cons_self
    rw [isIndent, Bool.or_eq_true, beq_iff_eq, beq_iff_eq] at blank
    rw [List.cons_append, ← ih]
    rcases blank with rfl | rfl <;> simp [closesTemplate]

/-- Indentation before a line does not matter to a template. -/
theorem closesTemplate_shiftLine {width : Nat} {line : Text} (fits : Fits isIndent width line)
    (rest : Text) :
    closesTemplate false (shiftLine isIndent width [] line ++ rest) =
      closesTemplate false (line ++ rest) := by
  obtain ⟨gap, indents, whole⟩ := fits.loses
  nth_rewrite 2 [whole]
  rw [List.append_assoc, closesTemplate_indentation _ indents]

theorem closesTemplate_unlines {width : Nat} :
    ∀ {later : List Text} (first : Text) (escaped : Bool),
    (∀ line ∈ later, Fits isIndent width line) →
    closesTemplate escaped (unlines (first :: later.map (shiftLine isIndent width []))) =
      closesTemplate escaped (unlines (first :: later))
  | [], _, _, _ => rfl
  | next :: later, first, escaped, fits => by
    have ih := closesTemplate_unlines next false fun line hl =>
      fits line (List.mem_cons_of_mem _ hl)
    have whole : ∀ (line : Text) (ls : List Text), unlines (line :: ls) =
        line ++ unlines ([] :: ls) := by
      intro line ls
      have joined := unlines_append line [] ls []
      rwa [List.append_nil] at joined
    rw [List.map_cons, unlines_cons_cons, unlines_cons_cons, closesTemplate_append_lineEnd,
      whole (shiftLine _ _ _ _), closesTemplate_shiftLine (fits next List.mem_cons_self), ← whole,
      ih, ← closesTemplate_append_lineEnd]

/-- A template literal of code is one in its block. -/
theorem isPlainTemplate_dedented {code literal : Text} (template : isPlainTemplate literal)
    (held : literal <:+: code) : isPlainTemplate (dedented code literal) := by
  have ticked := ticked_of_isPlainTemplate template
  have fits : ∀ line ∈ (lines literal).drop 1,
      Fits isIndent (margin (trimLineEnds code)).length line :=
    fun _ later => Fits.later (ticked.infix_trimLineEnds held) (fits_margin _) later
  obtain ⟨first, rest, split⟩ := exists_lines_of_head ticked.head
  rw [split] at fits
  have opened : ∀ later : List Text, unlines (('`' :: first) :: later) =
      '`' :: unlines (first :: later) :=
    fun later => unlines_append ['`'] first later []
  have whole : literal = '`' :: unlines (first :: rest) := by
    rw [← opened, ← split, unlines_lines]
  have moved : dedented code literal = '`' :: unlines
      (first :: rest.map (shiftLine isIndent (margin (trimLineEnds code)).length [])) := by
    rw [← opened, dedented, moveLater, split]
    rfl
  rw [moved]
  rw [whole] at template
  exact (closesTemplate_unlines first false fits).trans template

/-! ## Literals in code -/

/-- The scan stands in the static text of a template, or between a backslash in it and the character
that it hides. -/
def TemplateAt (t : Text) (stop : Nat) : Bool → Nat → Prop
  | false, pos => StaticAt t stop pos
  | true, pos =>
    ∃ backslash, pos = backslash + 1 ∧ StaticAt t stop backslash ∧ t[backslash]? = some '\\'

/-- In a template without substitutions all is inert up to the closing tick. -/
theorem TemplateAt.inert {t back : Text} {stop : Nat} :
    ∀ {rest : Text} {escaped : Bool} {pos : Nat},
    TemplateAt t stop escaped pos → t.drop pos = rest ++ back → closesTemplate escaped rest →
      pos + rest.length ≤ stop →
      ∀ p, pos ≤ p → p < pos + rest.length → Inert t p
  | [], true, _, _, _, closes, _ => by cases closes
  | [], false, _, _, _, closes, _ => by cases closes
  | c :: cs, true, pos, ⟨backslash, same, here, char⟩, ahead, closes, fits => by
    subst same
    intro p after before
    rw [List.length_cons] at fits before
    have inside : backslash + 1 < stop := by omega
    rcases Nat.eq_or_lt_of_le after with rfl | after
    · exact .escaped here inside char
    · have next : TemplateAt t stop false (backslash + 2) := StaticAt.escape here inside char
      exact next.inert (MaskState.drop_succ ahead) closes (by omega) p after (by omega)
  | c :: cs, false, pos, here, ahead, closes, fits => by
    intro p after before
    rw [List.length_cons] at fits before
    have inside : pos < stop := by omega
    rcases Nat.eq_or_lt_of_le after with rfl | after
    · exact .static here inside
    have char : t[pos]? = some c := by
      rw [← List.head?_drop, ahead]
      rfl
    -- from the next offset on, in the state that the character leads to
    have later : ∀ escaped, TemplateAt t stop escaped (pos + 1) → closesTemplate escaped cs →
        Inert t p :=
      fun _ next closes =>
        next.inert (MaskState.drop_succ ahead) closes (by omega) p after (by omega)
    rw [closesTemplate] at closes
    split at closes
    · rename_i escape
      exact later true ⟨pos, rfl, here, escape ▸ char⟩ closes
    · rename_i escape
      split at closes
      · obtain rfl := List.isEmpty_iff.1 closes
        rw [List.length_nil] at before
        omega
      · rename_i tick
        rw [Bool.and_eq_true, Bool.not_eq_true'] at closes
        have static : slice t pos (pos + 2) ≠ ['$', '{'] := by
          intro opens
          obtain ⟨inner, split⟩ := exists_drop_eq_substitution opens
          rw [ahead] at split
          cases cs with
          | nil => cases closes.2
          | cons d ds =>
            obtain ⟨rfl, more⟩ := List.cons.inj split
            obtain ⟨rfl, -⟩ := List.cons.inj more
            cases closes.1
        exact later false (StaticAt.char here inside char escape tick static) closes.2

/-- A template literal that stands in code is copied when references are qualified. -/
theorem StandsIn.infix_qualify {state : List Text} {props : List (Text × Text)}
    {literal code : Text}
    (words : ∀ name ∈ state ++ props.map (·.1), isWord name) (template : isPlainTemplate literal)
    (stands : StandsIn literal code) : literal <:+: qualify state props code := by
  obtain ⟨front, back, stop, rfl, here, fits⟩ := stands
  rw [isPlainTemplate, Bool.and_eq_true, beq_iff_eq] at template
  obtain ⟨rest, rfl⟩ := List.head?_eq_some_iff.1 template.1
  have ahead : (front ++ ('`' :: rest ++ back)).drop front.length = '`' :: (rest ++ back) :=
    List.drop_left
  have char : (front ++ ('`' :: rest ++ back))[front.length]? = some '`' := by
    rw [← List.head?_drop, ahead]; rfl
  rw [List.length_cons] at fits
  refine Recast.infix_qualify words fun p after before => ?_
  rcases Nat.eq_or_lt_of_le after with rfl | after
  · refine ⟨'`', ?_, rfl⟩
    rw [← char]
    refine here.shown (by omega) ?_
    rw [commentEndAt?, ahead]
    rfl
  · rw [List.length_cons] at before
    have static : TemplateAt _ stop false (front.length + 1) :=
      StaticAt.opening here (by omega) char
    exact (static.inert (MaskState.drop_succ ahead) template.2 (by omega) p after (by omega)).hidden

/-! ## The method -/

/-- A piece of code between ticks in the method: the lines behind its first one are indented. -/
def indented (piece : Text) : Text :=
  moveLater (shiftLine isBlank 0 (List.replicate 4 ' ')) piece

theorem Ticked.infix_initializer {piece preamble : Text} (ticked : Ticked piece)
    (held : piece <:+: preamble)
    (value : Text) : indented piece <:+: unlines (initializer preamble value) := by
  have filled : preamble.isEmpty = false := by
    rw [List.isEmpty_eq_false_iff]
    rintro rfl
    rw [List.infix_nil.1 held] at ticked
    cases ticked.head
  have moved : indented piece <:+: unlines (indent 4 preamble) := by
    rw [indent_eq]
    exact moveLater_isInfix (by decide) _ ticked held fun _ _ _ => Nat.zero_le _
  have lines := unlines_isInfix ["  initializeUI(): UINode \x7b".toList] (indent 4 preamble)
    ([] :: ["    return ".toList ++ value ++ ";".toList, "  \x7d".toList])
  refine moved.trans ?_
  rw [initializer, filled]
  simpa using lines

/-- A template literal in the method is that of the code just if each line behind its first one is
empty, or not blank and the code has the indentation of the method. -/
theorem indented_dedented_eq_self {code literal : Text} (ticked : Ticked literal)
    (held : literal <:+: code) :
    indented (dedented code literal) = literal ↔
      ∀ line ∈ (lines literal).drop 1, line = [] ∨
        isBlankText line = false ∧ margin (trimLineEnds code) = List.replicate 4 ' ' := by
  have dedents : ∀ line, '\n' ∉ line →
      '\n' ∉ shiftLine isIndent (margin (trimLineEnds code)).length [] line :=
    fun _ h => not_mem_shiftLine List.not_mem_nil h
  have indents : ∀ line, '\n' ∉ line → '\n' ∉ shiftLine isBlank 0 (List.replicate 4 ' ') line :=
    fun _ h => not_mem_shiftLine (by decide) h
  have both : ∀ line, '\n' ∉ line → '\n' ∉ (shiftLine isBlank 0 (List.replicate 4 ' ') ∘
      shiftLine isIndent (margin (trimLineEnds code)).length []) line :=
    fun line h => indents _ (dedents line h)
  rw [indented, dedented, moveLater_moveLater dedents, moveLater_eq_self both]
  refine forall₂_congr fun line later => shiftLine_shiftLine_eq_self fun filled => ?_
  obtain ⟨more, member⟩ := exists_mem_lines_of_later (ticked.infix_trimLineEnds held) later
  have before := margin_isPrefix member (by simp [filled])
  rwa [takeWhile_append_of_filled filled] at before

/-- Code in which no element is found is lowered to its block. -/
theorem Definition.Lowers.eq_codeBlock {options : Options} {definition : Definition}
    {before preamble value : Text}
    {returned? : Option Text} (lowers : definition.Lowers options preamble value)
    (returned : definition.Returned options before returned?)
    (unmarked : embeddedElements [] 0 0 (codeBlock before) = []) : preamble = codeBlock before := by
  obtain ⟨_, _, returned', -, embedded⟩ := lowers
  obtain ⟨rfl, -⟩ := returned.unique returned'
  rw [recastEmbedded, unmarked] at embedded
  exact (Except.ok.inj embedded).symm

/-- A template literal of the code before the returned value loses the indentation of the code with
its later lines. If it stands in the code and no element is found there, or if it stands in the code
as lowered, the method has it with its later lines indented. This is the literal as written just if
each later line is empty, or not blank and the code has the indentation of the method already. -/
theorem template_kept_iff {options : Options} {definition : Definition}
    {before preamble value text literal : Text} {returned? : Option Text}
    (returned : definition.Returned options before returned?)
    (lowers : definition.Lowers options preamble value)
    (converted : (convertFunctional options definition).result = .ok text)
    (template : isPlainTemplate literal) (held : literal <:+: before) :
    dedented before literal <:+: codeBlock before ∧
      (embeddedElements [] 0 0 (codeBlock before) = [] → preamble = codeBlock before) ∧
      (∃ above below, text =
        unlines (above ++ initializer (definition.written preamble) (definition.written value) ++
          below)) ∧
      (StandsIn literal before ∧ embeddedElements [] 0 0 (codeBlock before) = [] ∨
          StandsIn (dedented before literal) preamble →
        indented (dedented before literal) <:+:
          unlines (initializer (definition.written preamble) (definition.written value))) ∧
      (indented (dedented before literal) = literal ↔
        ∀ line ∈ (lines literal).drop 1, line = [] ∨
          isBlankText line = false ∧ margin (trimLineEnds before) = List.replicate 4 ' ') := by
  have ticked := ticked_of_isPlainTemplate template
  obtain ⟨framed, block⟩ := ticked.infix_codeBlock held
  obtain ⟨_, _, lowers', rendered⟩ := exists_initializer converted
  obtain ⟨rfl, rfl⟩ := lowers.unique lowers'
  have unmarked := lowers.eq_codeBlock returned
  refine ⟨block, unmarked, rendered, fun stands => ?_, indented_dedented_eq_self ticked held⟩
  have lowered : StandsIn (dedented before literal) preamble := by
    rcases stands with ⟨source, none⟩ | lowered
    · rw [unmarked none]
      exact source.codeBlock ticked
    · exact lowered
  have copied := lowered.infix_qualify definition.isWord_of_mem_names
    (isPlainTemplate_dedented template held)
  exact framed.infix_initializer copied _

/-- A component whose code has a template literal of two lines. -/
def twoLineTemplate : Definition where
  name := "App".toList
  exported := []
  params := []
  variableType? := none
  body := "\n  use(`a\n  b`);\n  return text;\n".toList
  concise := false
  start := 0
  stop := 51

theorem extracted_twoLineTemplate : (extractHooks Options.standard twoLineTemplate.code).result =
    .ok ⟨[], [], twoLineTemplate.code, [], [], []⟩ := by
  decide +kernel

theorem split_twoLineTemplate :
    splitReturn twoLineTemplate.code =
      .ok ("\n  use(`a\n  b`);\n  ".toList, some "text".toList) := by
  decide +kernel

theorem codeBlock_twoLineTemplate :
    codeBlock "\n  use(`a\n  b`);\n  ".toList = "use(`a\nb`);".toList := by
  decide +kernel

theorem unmarked_twoLineTemplate : '<' ∉ codeBlock "\n  use(`a\n  b`);\n  ".toList := by
  rw [codeBlock_twoLineTemplate]
  decide

theorem methodCode_twoLineTemplate :
    twoLineTemplate.MethodCode Options.standard "use(`a\nb`);".toList "text".toList := by
  have code := Definition.methodCode_of_unmarked extracted_twoLineTemplate split_twoLineTemplate
    unmarked_twoLineTemplate (by decide)
  rwa [codeBlock_twoLineTemplate] at code

theorem convertFunctional_twoLineTemplate :
    (convertFunctional Options.standard twoLineTemplate).result =
      .ok (twoLineTemplate.classParts Options.standard "use(`a\nb`);".toList
        "text".toList).render :=
  (convertFunctional_eq_ok rfl).2 ⟨_, _, methodCode_twoLineTemplate, rfl⟩

theorem standsIn_twoLineTemplate :
    StandsIn "`a\n  b`".toList "\n  use(`a\n  b`);\n  ".toList := by
  have line : CodeAt "\n  use(`a\n  b`);\n  ".toList 19 3 :=
    .mark (.mark (.mark .start (by decide) rfl rfl rfl) (by decide) rfl rfl rfl)
      (by decide) rfl rfl rfl
  have call : CodeAt "\n  use(`a\n  b`);\n  ".toList 19 7 :=
    .mark (.mark (.mark (.mark line (by decide) rfl rfl rfl) (by decide) rfl rfl rfl) (by decide)
      rfl rfl rfl) (by decide) rfl rfl rfl
  exact ⟨"\n  use(".toList, ");\n  ".toList, 19, rfl, call, by decide⟩

theorem template_kept_twoLineTemplate :
    (convertFunctional Options.standard twoLineTemplate).result =
        .ok (twoLineTemplate.classParts Options.standard "use(`a\nb`);".toList
          "text".toList).render ∧
      indented (dedented "\n  use(`a\n  b`);\n  ".toList "`a\n  b`".toList) <:+:
        unlines (initializer (twoLineTemplate.written "use(`a\nb`);".toList)
          (twoLineTemplate.written "text".toList)) ∧
      indented (dedented "\n  use(`a\n  b`);\n  ".toList "`a\n  b`".toList) ≠
        "`a\n  b`".toList := by
  have returned : twoLineTemplate.Returned Options.standard "\n  use(`a\n  b`);\n  ".toList
      (some "text".toList) :=
    .block rfl extracted_twoLineTemplate split_twoLineTemplate
  have held : "`a\n  b`".toList <:+: "\n  use(`a\n  b`);\n  ".toList :=
    ⟨"\n  use(".toList, ");\n  ".toList, rfl⟩
  obtain ⟨-, -, -, method, kept⟩ :=
    template_kept_iff returned (methodCode_twoLineTemplate.lowers rfl)
    convertFunctional_twoLineTemplate (by decide) held
  have unmarked := embeddedElements_eq_nil _ [] 0 0 unmarked_twoLineTemplate
  have stands := method (.inl ⟨standsIn_twoLineTemplate, unmarked⟩)
  refine ⟨convertFunctional_twoLineTemplate, stands, fun same => ?_⟩
  exact absurd (kept.1 same) (by decide +kernel)

/-- The code of the component has the literal with two spaces on its second line, and its method has
it nowhere. -/
theorem method_twoLineTemplate :
    splitReturn twoLineTemplate.body = .ok ("\n  use(`a\n  b`);\n  ".toList, some "text".toList) ∧
      isPlainTemplate "`a\n  b`".toList ∧ "`a\n  b`".toList <:+: "\n  use(`a\n  b`);\n  ".toList ∧
      ∃ text, (convertFunctional Options.standard twoLineTemplate).result = .ok text ∧
        ∃ above below, text =
          unlines (above ++ initializer "use(`a\nb`);".toList "text".toList ++ below) ∧
        ¬ "`a\n  b`".toList <:+: unlines (initializer "use(`a\nb`);".toList "text".toList) := by
  refine ⟨split_twoLineTemplate, by decide, ⟨"\n  use(".toList, ");\n  ".toList, rfl⟩, _,
    convertFunctional_twoLineTemplate, ?_⟩
  obtain ⟨_, _, lowers, above, below, rendered⟩ :=
    exists_initializer convertFunctional_twoLineTemplate
  obtain ⟨rfl, rfl⟩ := lowers.unique (methodCode_twoLineTemplate.lowers rfl)
  have unchanged : ∀ code, twoLineTemplate.written code =
      walk (references [] []) (bindingScopes (mask code)) [] 0 (mask code) code := by
    intro code
    have names : twoLineTemplate.stateNames = [] := by decide +kernel
    have plain : propAliases twoLineTemplate.params = [] := by decide
    rw [Definition.written, names, plain]
    exact qualify_eq_walk (by decide) code
  have preamble : twoLineTemplate.written "use(`a\nb`);".toList = "use(`a\nb`);".toList :=
    (unchanged _).trans (by decide +kernel)
  have value : twoLineTemplate.written "text".toList = "text".toList :=
    (unchanged _).trans (by decide +kernel)
  rw [preamble, value] at rendered
  exact ⟨above, below, rendered, by decide +kernel⟩

end Recast
