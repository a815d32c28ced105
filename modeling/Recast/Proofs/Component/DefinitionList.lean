import Recast.Proofs.Component.WrittenDefinition
import Recast.Proofs.Text.Lines
import Recast.Proofs.Text.StableSort

/-!
# Definitions one after another

A head starts a line with a word, so inside a definition, whose later lines are indented, no other
head is found (`HeadsLine.silentIn`). Only a type annotation may have lines that start with a word;
heads of functions found there end before the equals sign (`functionComponent_within`), and what
they start lies inside the definition.

So a definition in front of a text is found first, and behind it the search finds what it finds in
that text alone, whatever the text is (`findDefinitions_print_append`). By induction, of a list of
definitions exactly these are found.
-/

namespace Recast

/-! ## Indented lines -/

/-- No line after the first starts with a name character. -/
def Indented (t : Text) : Prop :=
  ∀ front c rest, t = front ++ '\n' :: c :: rest → isNameChar c = false

theorem Indented.of_line {t : Text} (h : '\n' ∉ t) : Indented t := by
  intro front c rest split
  exact absurd (by simp [split]) h

theorem Indented.of_blanks {t : Text} (h : isBlankText t) : Indented t := by
  intro front c rest split
  exact not_isNameChar_of_isBlank (List.all_eq_true.1 h c (by simp [split]))

theorem Indented.append {a b : Text} (ha : Indented a) (hb : Indented b)
    (seam : '\n' ∈ a → ∀ c, b.head? = some c → isNameChar c = false) : Indented (a ++ b) := by
  intro front c rest split
  rcases List.append_eq_append_iff.1 split with ⟨more, rfl, same⟩ | ⟨more, rfl, same⟩
  · exact hb more c rest same
  · rcases more with _ | ⟨d, _ | ⟨e, more⟩⟩
    · exact hb [] c rest same.symm
    · obtain ⟨rfl, rfl⟩ := List.cons.inj same
      exact seam (by simp) c rfl
    · obtain ⟨rfl, tail⟩ := List.cons.inj same
      obtain ⟨rfl, -⟩ := List.cons.inj tail
      exact ha front c more rfl

/-- Text on one line can stand in front. -/
theorem Indented.line_append {a b : Text} (ha : '\n' ∉ a) (hb : Indented b) : Indented (a ++ b) :=
  (Indented.of_line ha).append hb fun h => absurd h ha

theorem BlockCode.isIndented (code : BlockCode) : Indented code.text := by
  intro front c rest split
  by_cases newline : c = '\n'
  · rw [newline]
    decide
  obtain ⟨first, others, same⟩ := List.exists_cons_of_ne_nil (splitOn_ne_nil '\n' rest)
  obtain ⟨line, lines', before⟩ := List.exists_cons_of_ne_nil (splitOn_ne_nil '\n' front)
  have all : lines code.text = (line :: lines') ++ (c :: first) :: others := by
    rw [lines, split, splitOn_append_cons, before, splitOn, if_neg newline, same]
  rcases code.indented (c :: first) (by simp [all]) c rfl with blank | rfl
  · exact not_isNameChar_of_isBlank blank
  · decide

theorem Word.line (word : Word) : '\n' ∉ word.text :=
  fun h => Bool.noConfusion (isNameChar_of_isIdentifier word.valid _ h)

theorem WrittenParams.line (params : WrittenParams) : '\n' ∉ params.print := by
  cases params with
  | list code => simp [WrittenParams.print, code.line]
  | one word => exact word.line

theorem BlockCode.isIndented_append (code : BlockCode) {t : Text} (h : Indented t) :
    Indented (code.text ++ '}' :: t) := by
  refine code.isIndented.append (h.line_append (by decide : '\n' ∉ ['}'])) ?_
  rintro - c ⟨⟩
  decide

theorem WrittenBody.isIndented_append (body : WrittenBody) {t : Text} (h : Indented t) :
    Indented (body.print ++ ';' :: t) := by
  have ends : Indented (';' :: t) := h.line_append (by decide : '\n' ∉ [';'])
  cases body with
  | block code =>
    have block := (code.isIndented_append ends).line_append (by decide : '\n' ∉ ['{'])
    simpa [WrittenBody.print] using block
  | bracketed markup => exact ends.line_append (by simp [WrittenBody.print, markup.line])
  | element markup => exact ends.line_append markup.line

/-- Behind the head of an arrow function the lines are indented. -/
theorem isIndented_printArrow (params : WrittenParams) (body : WrittenBody) {gap : Text}
    (h : Indented gap) : Indented (printArrow params body ++ ';' :: gap) := by
  have arrow := (body.isIndented_append h).line_append (by decide : '\n' ∉ " => ".toList)
  have whole := arrow.line_append params.line
  simpa only [printArrow, List.append_assoc] using whole

/-- Behind the head of a function the lines are indented. -/
theorem isIndented_printFunction (params : ParamCode) (body : BlockCode) {gap : Text}
    (h : Indented gap) : Indented (printFunction params body ++ gap) := by
  have block := (body.isIndented_append h).line_append (by decide : '\n' ∉ ") \x7b".toList)
  have whole := (block.line_append params.line).line_append (by decide : '\n' ∉ ['('])
  simpa [printFunction] using whole

/-! ## Where heads are found -/

/-- The recogniser finds something only where a line starts with a name character. -/
def HeadsLine {α : Type} (recognise : Recogniser α) : Prop :=
  ∀ {behind ahead : Text} {found : α × Nat}, recognise behind ahead = some found →
    startsLine behind ∧ ahead.head?.any isNameChar

theorem arrowComponent_headsLine : HeadsLine arrowComponent := by
  intro behind ahead found h
  refine ⟨(arrowComponent_eq_some.1 h).1, ?_⟩
  cases ahead with
  | nil =>
    obtain ⟨-, _, _, _, _, _, _, keyword, -⟩ := arrowComponent_eq_some.1 h
    cases keyword
  | cons c cs =>
    have letters : ∀ c ∈ ['e', 'c', 'l', 'v'], isNameChar c := by decide
    exact letters c (arrowComponent_head h)

theorem functionComponent_headsLine : HeadsLine functionComponent := by
  intro behind ahead found h
  refine ⟨(functionComponent_eq_some.1 h).1, ?_⟩
  cases ahead with
  | nil =>
    obtain ⟨-, _, _, _, keyword, -⟩ := functionComponent_eq_some.1 h
    cases keyword
  | cons c cs =>
    have letters : ∀ c ∈ ['e', 'f'], isNameChar c := by decide
    exact letters c (functionComponent_head h)

section Search

variable {α : Type} {recognise : Recogniser α}

theorem HeadsLine.eq_none (heads : HeadsLine recognise) {behind : Text}
    (line : startsLine behind = false) (ahead : Text) : recognise behind ahead = none := by
  rw [Option.eq_none_iff_forall_ne_some]
  intro found success
  simp [(heads success).1] at line

/-- In indented lines nothing is found, if nothing is found at their start. -/
theorem HeadsLine.silentIn (heads : HeadsLine recognise) {behind piece rest : Text}
    (indented : Indented piece)
    (first : recognise behind (piece ++ rest) = none) : SilentIn recognise behind piece rest := by
  intro passed ahead split nonempty
  rw [Option.eq_none_iff_forall_ne_some]
  intro found success
  obtain ⟨line, word⟩ := heads success
  rcases List.eq_nil_or_concat passed with rfl | ⟨front, d, rfl⟩
  · rw [List.nil_append] at split
    simp [← split, first] at success
  · obtain ⟨c, cs, rfl⟩ := List.exists_cons_of_ne_nil nonempty
    obtain rfl : d = '\n' := by simpa [startsLine] using line
    have other : isNameChar c = false := indented front c cs (by simpa using split)
    have here : isNameChar c = true := word
    exact Bool.noConfusion (here.symm.trans other)

/-- Behind a head and the indented lines after it the search finds what it finds in the rest
alone. -/
theorem occurrencesFrom_indented (heads : HeadsLine recognise)
    (looks : LooksBehindForLine recognise) {front tail rest : Text}
    (first : recognise front.reverse (tail ++ rest) = none) (indented : Indented tail)
    (ends : startsLine (front ++ tail).reverse ∨ rest = []) :
    occurrencesFrom recognise front.reverse front.length 0 (tail ++ rest) =
      (occurrences recognise rest).map (Occurrence.shift (front ++ tail).length) := by
  rw [occurrencesFrom_silent rest _ (heads.silentIn indented first), ← List.reverse_append,
    ← List.length_append]
  rcases ends with line | rfl
  · have starts : startsLine [] = startsLine (front ++ tail).reverse := line.symm
    have shifted :=
      occurrencesFrom_shift looks (front ++ tail).length rest starts (Aligned.none _ 0)
    rwa [Nat.zero_add] at shifted
  · have none : ∀ behind, recognise behind [] = none := by
      intro behind
      rw [Option.eq_none_iff_forall_ne_some]
      intro found success
      exact Bool.noConfusion (heads success).2
    rw [occurrences, occurrencesFrom, occurrencesFrom, none, none]
    rfl

end Search

/-- Up to the equals sign of a constant, no head of a function that starts goes past that sign. -/
theorem functionComponent_within (lead rest : Text) :
    ∃ before, (∀ found ∈ before, found.start < (lead ++ ['=']).length) ∧
      occurrences functionComponent (lead ++ ['='] ++ rest) =
        before ++ occurrencesFrom functionComponent (lead ++ ['=']).reverse (lead ++ ['=']).length 0
          rest := by
  have search := @occurrencesFrom_within _ functionComponent
    (fun found => found.start < (lead ++ ['=']).length) rest
    (lead ++ ['=']) [] 0 0 (Nat.zero_le _)
  rw [List.append_nil, Nat.zero_add] at search
  refine search fun passed ahead split nonempty value size success => ⟨?_, ?_⟩
  · obtain ⟨params, ⟨words, same, plain⟩, rfl⟩ := functionComponent_needs success
    have equals : '=' ∈ ahead := by
      have last := congrArg List.getLast? split
      rw [List.getLast?_concat, List.getLast?_append_of_ne_nil _ nonempty] at last
      exact List.mem_of_getLast? last.symm
    rw [same, List.length_append, Nat.add_sub_cancel]
    by_contra long
    -- The piece would lie in the words of the head, which have no equals sign.
    have covered : ahead <+: words :=
      List.prefix_of_prefix_length_le (List.prefix_append ahead rest)
        (same ▸ List.prefix_append words _) (by omega)
    exact absurd (plain '=' (covered.subset equals)) (by decide)
  · have positive := List.length_pos_of_ne_nil nonempty
    rw [split, List.length_append]
    dsimp only
    omega

/-! ## A definition in front -/

theorem dropNested_append {last : Nat} {others : List Definition} :
    ∀ {nested : List Definition}, (∀ other ∈ nested, other.start < last) →
      dropNested last (nested ++ others) = dropNested last others
  | [], _ => rfl
  | definition :: nested, h => by
    rw [List.cons_append, dropNested, if_pos (h definition (by simp))]
    exact dropNested_append fun other hm => h other (List.mem_cons_of_mem _ hm)

/-- Where the heads in front of a text start one definition, and others inside it only, that
definition comes first, and the definitions of the text follow. -/
theorem definitionsFrom_front {front rest : Text}
    {ahead ahead' arrows functions : List (Occurrence DefinitionHead)}
    {found : List (Option Definition)} {definition : Definition} {nested : List Definition}
    (read : ahead.mapM (arrowDefinition? (front ++ rest)) = .ok found)
    (all : found.reduceOption ++ ahead'.filterMap (functionDefinition? (front ++ rest)) =
      definition :: nested)
    (start : definition.start = 0) (stop : definition.stop ≤ front.length)
    (inside : ∀ other ∈ definition :: nested, other.start < definition.stop) :
    definitionsFrom (front ++ rest) (ahead ++ arrows.map (Occurrence.shift front.length))
        (ahead' ++ functions.map (Occurrence.shift front.length)) =
      (shiftResult front.length (List.map (Definition.shift front.length))
        (definitionsFrom rest arrows functions)).map
        (definition :: ·) := by
  rw [definitionsFrom, definitionsFrom, List.mapM_append, read,
    mapM_shiftResult (arrowDefinition?_append front rest), List.filterMap_append,
    filterMap_functionDefinition?_append]
  cases arrows.mapM (arrowDefinition? rest) with
  | error fault => rfl
  | ok others =>
    have behind :
        ∀ other ∈ (others.reduceOption ++ functions.filterMap (functionDefinition? rest)).map
        (Definition.shift front.length), front.length ≤ other.start := by
      intro other hm
      obtain ⟨_, -, rfl⟩ := List.mem_map.1 hm
      exact Nat.le_add_left _ _
    simp only [shiftResult, Except.map, bind, Except.bind, pure, Except.pure,
      List.reduceOption_append, reduceOption_map]
    rw [List.map_append] at behind
    rw [mergeSort_of_lt (fun other hm => (inside other (all ▸ hm)).trans_le stop) behind, all,
      mergeSort_cons_of_le (by simp [start]), ← List.map_append, mergeSort_shift, List.cons_append,
      dropNested, if_neg (Nat.not_lt_zero _), dropNested_append, dropNested_shift_of_le stop]
    intro other hm
    exact inside other (List.mem_cons_of_mem _ (List.mem_mergeSort.1 hm))

/-! ### Arrow functions -/

section Arrow

variable (exported : Bool) (name : CapitalName) (type? : Option TypeText) (params : WrittenParams)
  (body : WrittenBody)
  {gap rest : Text}

theorem exists_arrowHead : ∃ lead, arrowHead exported name type? = lead ++ ['='] ++ [' '] := by
  refine ⟨exportText exported ++
    ("const ".toList ++ (name.text ++ (annotationText type? ++ [' ']))), ?_⟩
  rw [arrowHead]
  simp

theorem print_arrow_append :
    (WrittenDefinition.arrow exported name type? params body).print ++ gap =
    arrowHead exported name type? ++ (printArrow params body ++ ';' :: gap) := by
  simp only [WrittenDefinition.print, List.append_assoc, List.singleton_append]

/-- The head of an arrow function is the only one of its kind up to the text behind the
definition. -/
theorem arrowOccurrences_arrow (blank : isBlankText gap)
    (ends :
      startsLine (arrowHead exported name type? ++ (printArrow params body ++ ';' :: gap)).reverse ∨
        rest = []) :
    occurrences arrowComponent
      (arrowHead exported name type? ++ (printArrow params body ++ ';' :: gap) ++ rest) =
      [⟨0, (arrowHead exported name type?).length,
        ⟨exportText exported, name.text, type?.map TypeText.annotation⟩⟩] ++
        (occurrences arrowComponent rest).map
          (Occurrence.shift
            (arrowHead exported name type? ++ (printArrow params body ++ ';' :: gap)).length) := by
  have opening : printArrow params body ++ ';' :: gap ++ rest =
      params.print ++ (" => ".toList ++ (body.print ++ ';' :: (gap ++ rest))) := by
    simp only [printArrow, List.append_assoc, List.cons_append]
  have head : arrowComponent []
      (arrowHead exported name type? ++ (printArrow params body ++ ';' :: gap ++ rest)) = _ :=
    arrowComponent_written exported name type? rfl (opening ▸ params.first _)
      (opening ▸ params.arrowOpening?_eq _)
  obtain ⟨lead, split⟩ := exists_arrowHead exported name type?
  have inner : startsLine (arrowHead exported name type?).reverse = false := by
    rw [split, List.reverse_append]
    rfl
  rw [List.append_assoc, occurrences, occurrencesFrom_found 0 (by rw [split]; simp) head,
    List.append_nil, Nat.zero_add,
    occurrencesFrom_indented arrowComponent_headsLine arrowComponent_looksBehind
      (arrowComponent_headsLine.eq_none inner _)
      (isIndented_printArrow params body (Indented.of_blanks blank)) ends]
  rfl

/-- Heads of functions are found up to the text behind an arrow function only inside its head. -/
theorem functionOccurrences_arrow (blank : isBlankText gap)
    (ends :
      startsLine (arrowHead exported name type? ++ (printArrow params body ++ ';' :: gap)).reverse ∨
        rest = []) :
    ∃ before, (∀ found ∈ before, found.start < (arrowHead exported name type?).length) ∧
      occurrences functionComponent
        (arrowHead exported name type? ++ (printArrow params body ++ ';' :: gap) ++ rest) =
        before ++ (occurrences functionComponent rest).map
          (Occurrence.shift
            (arrowHead exported name type? ++ (printArrow params body ++ ';' :: gap)).length) := by
  have tail : Indented ([' '] ++ (printArrow params body ++ ';' :: gap)) :=
    (isIndented_printArrow params body (Indented.of_blanks blank)).line_append (by decide)
  obtain ⟨lead, split⟩ := exists_arrowHead exported name type?
  obtain ⟨before, starts, search⟩ :=
    functionComponent_within lead ([' '] ++ (printArrow params body ++ ';' :: gap) ++ rest)
  refine ⟨before, fun found hm => ?_, ?_⟩
  · rw [split, List.length_append]
    exact Nat.lt_add_right _ (starts found hm)
  · rw [split, List.append_assoc (lead ++ ['='])] at ends ⊢
    rw [List.append_assoc (lead ++ ['=']), search,
      occurrencesFrom_indented functionComponent_headsLine functionComponent_looksBehind
        (functionComponent_headsLine.eq_none (by rw [List.reverse_append]; rfl) _) tail ends]

/-- An arrow function in front of a text is found first, and behind it what is found in the text
alone. -/
theorem findDefinitions_arrow_append (blank : isBlankText gap)
    (ends : startsLine ((WrittenDefinition.arrow exported name type? params body).print ++
      gap).reverse ∨ rest = []) :
    findDefinitions ((WrittenDefinition.arrow exported name type? params body).print ++ gap ++
      rest) =
      (shiftResult ((WrittenDefinition.arrow exported name type? params body).print ++ gap).length
        (List.map
          (Definition.shift ((WrittenDefinition.arrow exported name type? params body).print ++
            gap).length))
        (findDefinitions rest)).map
          ((WrittenDefinition.arrow exported name type? params body).definition :: ·) := by
  have read := arrowDefinition?_written exported name type? params body (gap ++ rest)
  have stop : (arrowHead exported name type?).length <
      (WrittenDefinition.arrow exported name type? params body).definition.stop := by
    simp only [WrittenDefinition.definition, WrittenDefinition.print, List.length_append,
      List.length_singleton]
    omega
  have length : (WrittenDefinition.arrow exported name type? params body).definition.stop ≤
      ((WrittenDefinition.arrow exported name type? params body).print ++ gap).length := by
    rw [List.length_append]
    exact Nat.le_add_right _ _
  rw [← List.append_assoc] at read
  rw [print_arrow_append] at ends read length ⊢
  obtain ⟨before, starts, functions⟩ :=
    functionOccurrences_arrow exported name type? params body blank ends
  rw [findDefinitions_eq, findDefinitions_eq rest,
    arrowOccurrences_arrow exported name type? params body blank ends, functions]
  refine definitionsFrom_front (by rw [List.mapM_cons, read]; rfl) rfl rfl length fun other hm => ?_
  rcases List.mem_cons.1 hm with rfl | hm
  · exact Nat.zero_lt_of_lt stop
  · obtain ⟨found, hf, same⟩ := List.mem_filterMap.1 hm
    rw [(functionDefinition?_bounds same).1]
    exact (starts found hf).trans stop

end Arrow

/-! ### Functions -/

section Function

variable (exported : ExportForm) (name : CapitalName) (params : ParamCode) (body : BlockCode)
  {gap rest : Text}

theorem functionHead_inner : startsLine (functionHead exported name).reverse = false := by
  obtain ⟨d, ds, cons, -⟩ := (trimmed_of_isIdentifier name.valid).first
  obtain ⟨front, c, split⟩ := (List.eq_nil_or_concat name.text).resolve_left (by simp [cons])
  have word : isNameChar c := isNameChar_of_isIdentifier name.valid c (by simp [split])
  rw [functionHead, split]
  simp only [List.concat_eq_append, ← List.append_assoc, List.reverse_concat, startsLine]
  rw [beq_eq_false_iff_ne]
  rintro rfl
  exact Bool.noConfusion word

theorem functionHead_line : '\n' ∉ functionHead exported name := by
  have keywords : '\n' ∉ exported.text ++ "function ".toList := by cases exported <;> decide
  rw [functionHead, ← List.append_assoc]
  exact fun h => (List.mem_append.1 h).elim keywords name.line

/-- The head of a function is the only one of its kind up to the text behind the definition. -/
theorem functionOccurrences_function (blank : isBlankText gap)
    (ends : startsLine (functionHead exported name ++ (printFunction params body ++ gap)).reverse ∨
      rest = []) :
    occurrences functionComponent
      (functionHead exported name ++ (printFunction params body ++ gap) ++ rest) =
      [⟨0, (functionHead exported name).length, ⟨exported.text, name.text, none⟩⟩] ++
        (occurrences functionComponent rest).map
          (Occurrence.shift
            (functionHead exported name ++ (printFunction params body ++ gap)).length) := by
  have head : functionComponent []
      (functionHead exported name ++ (printFunction params body ++ gap ++ rest)) = _ :=
    functionComponent_written exported name rfl _
  have nonempty : functionHead exported name ≠ [] := by simp [functionHead]
  rw [List.append_assoc, occurrences, occurrencesFrom_found 0 nonempty head, List.append_nil,
    Nat.zero_add, occurrencesFrom_indented functionComponent_headsLine functionComponent_looksBehind
      (functionComponent_headsLine.eq_none (functionHead_inner exported name) _)
      (isIndented_printFunction params body (Indented.of_blanks blank)) ends]
  rfl

/-- No head of an arrow function is found up to the text behind a function. -/
theorem arrowOccurrences_function (blank : isBlankText gap)
    (ends : startsLine (functionHead exported name ++ (printFunction params body ++ gap)).reverse ∨
      rest = []) :
    occurrences arrowComponent
      (functionHead exported name ++ (printFunction params body ++ gap) ++ rest) =
      (occurrences arrowComponent rest).map
        (Occurrence.shift
          (functionHead exported name ++ (printFunction params body ++ gap)).length) := by
  have indented := (isIndented_printFunction params body (Indented.of_blanks blank)).line_append
    (functionHead_line exported name)
  have first : arrowComponent []
      (functionHead exported name ++ (printFunction params body ++ gap) ++ rest) = none := by
    rw [Option.eq_none_iff_forall_ne_some]
    intro found success
    obtain ⟨-, _, _, _, _, _, _, keyword, -⟩ := arrowComponent_eq_some.1 success
    rw [List.append_assoc, afterExport_functionHead] at keyword
    cases keyword
  exact @occurrencesFrom_indented _ arrowComponent arrowComponent_headsLine
    arrowComponent_looksBehind [] _ rest first indented
    ends

/-- A function in front of a text is found first, and behind it what is found in the text alone. -/
theorem findDefinitions_function_append (blank : isBlankText gap)
    (ends : startsLine ((WrittenDefinition.function exported name params body).print ++
      gap).reverse ∨ rest = []) :
    findDefinitions ((WrittenDefinition.function exported name params body).print ++ gap ++ rest) =
      (shiftResult ((WrittenDefinition.function exported name params body).print ++ gap).length
        (List.map
          (Definition.shift ((WrittenDefinition.function exported name params body).print ++
            gap).length))
        (findDefinitions rest)).map
          ((WrittenDefinition.function exported name params body).definition :: ·) := by
  have read := functionDefinition?_written exported name params body (gap ++ rest)
  have length : (WrittenDefinition.function exported name params body).definition.stop ≤
      ((WrittenDefinition.function exported name params body).print ++ gap).length := by
    rw [List.length_append]
    exact Nat.le_add_right _ _
  have print : (WrittenDefinition.function exported name params body).print ++ gap =
      functionHead exported name ++ (printFunction params body ++ gap) :=
    List.append_assoc _ _ _
  rw [← List.append_assoc] at read
  rw [print] at ends read length ⊢
  rw [findDefinitions_eq, findDefinitions_eq rest,
    functionOccurrences_function exported name params body blank ends,
    arrowOccurrences_function exported name params body blank ends]
  rw [← List.nil_append (List.map _ (occurrences arrowComponent rest))]
  refine definitionsFrom_front rfl (by rw [List.filterMap_cons, read]; rfl) rfl length
    fun other hm => ?_
  obtain rfl := List.mem_singleton.1 hm
  exact Nat.zero_lt_of_lt (functionDefinition?_bounds read).2.1

end Function

/-- A definition in front of a text is found first, and behind it what is found in the text
alone. -/
theorem findDefinitions_print_append (written : WrittenDefinition) {gap rest : Text}
    (blank : isBlankText gap) (ends : startsLine (written.print ++ gap).reverse ∨ rest = []) :
    findDefinitions (written.print ++ gap ++ rest) =
      (shiftResult (written.print ++ gap).length
        (List.map (Definition.shift (written.print ++ gap).length))
        (findDefinitions rest)).map (written.definition :: ·) := by
  cases written with
  | arrow exported name type? params body =>
    exact findDefinitions_arrow_append exported name type? params body blank ends
  | function exported name params body =>
    exact findDefinitions_function_append exported name params body blank ends

/-! ## Sources -/

/-- Blank text up to the end of a line. -/
structure LineGap extends Blanks where
  ends : text.getLast? = some '\n'

/-- Definitions one after another, each at the start of a line. -/
inductive WrittenSource where
  | empty
  | last (written : WrittenDefinition) (after : Blanks)
  | more (written : WrittenDefinition) (gap : LineGap) (others : WrittenSource)

/-- The source text. -/
def WrittenSource.print : WrittenSource → Text
  | .empty => []
  | .last written after => written.print ++ after.text
  | .more written gap others => written.print ++ gap.text ++ others.print

/-- The definitions as written. -/
def WrittenSource.written : WrittenSource → List WrittenDefinition
  | .empty => []
  | .last written _ => [written]
  | .more written _ others => written :: others.written

/-- The definitions as they are read, each at its place. -/
def WrittenSource.definitions : WrittenSource → List Definition
  | .empty => []
  | .last written _ => [written.definition]
  | .more written gap others =>
    written.definition :: others.definitions.map
      (Definition.shift (written.print ++ gap.text).length)

theorem LineGap.startsLine_append (gap : LineGap) (t : Text) :
    startsLine (t ++ gap.text).reverse := by
  obtain ⟨front, split⟩ := List.getLast?_eq_some_iff.1 gap.ends
  rw [split, ← List.append_assoc, List.reverse_concat]
  rfl

theorem findDefinitions_nil : findDefinitions [] = .ok [] := by
  have sorted : ([] : List Definition).mergeSort (fun a b => decide (a.start ≤ b.start)) = [] :=
    List.mergeSort_nil
  change Except.ok
    (dropNested 0 (([] : List Definition).mergeSort fun a b => decide (a.start ≤ b.start))) = _
  rw [sorted]
  rfl

theorem WrittenDefinition.slice_definition (written : WrittenDefinition) (rest : Text) :
    slice (written.print ++ rest) written.definition.start written.definition.stop =
      written.print := by
  cases written <;> rw [WrittenDefinition.definition, slice, List.take_left, List.drop_zero]

/-- The definitions of a source lie where they are written. -/
theorem WrittenSource.slice_definitions : ∀ source : WrittenSource,
    source.definitions.map (fun found => slice source.print found.start found.stop) =
      source.written.map WrittenDefinition.print
  | .empty => rfl
  | .last written after => by
    simp only [definitions, WrittenSource.print, WrittenSource.written, List.map_cons, List.map_nil,
      written.slice_definition]
  | .more written gap others => by
    have ih := slice_definitions others
    have moved : ∀ found : Definition,
        slice (written.print ++ gap.text ++ others.print)
          (found.shift (written.print ++ gap.text).length).start
          (found.shift (written.print ++ gap.text).length).stop =
            slice others.print found.start found.stop :=
      fun found => slice_append_shift _ _ _ _
    have first := written.slice_definition (gap.text ++ others.print)
    rw [← List.append_assoc] at first
    simp only [definitions, WrittenSource.print, WrittenSource.written, List.map_cons, List.map_map,
      Function.comp_def, moved, first, ih]

/-- Of definitions one after another exactly these are found, in their order: each with its name,
its export keywords, its parameters without blanks around them, its annotation, its body and whether
that is an element, at the place where it is written, with the semicolon of an arrow function. -/
theorem findDefinitions_written (source : WrittenSource) :
    findDefinitions source.print = .ok source.definitions ∧
      source.definitions.map (fun found => slice source.print found.start found.stop) =
        source.written.map WrittenDefinition.print := by
  refine ⟨?_, source.slice_definitions⟩
  -- Each definition is found in front of the others, whatever these are.
  induction source with
  | empty => exact findDefinitions_nil
  | last written after =>
    have found := findDefinitions_print_append written after.blank (.inr rfl)
    rw [List.append_nil, findDefinitions_nil] at found
    exact found
  | more written gap others ih =>
    have found : findDefinitions (written.print ++ gap.text ++ others.print) = _ :=
      findDefinitions_print_append written gap.blank (.inl (gap.startsLine_append written.print))
    rw [ih] at found
    exact found

end Recast
