import Recast.Proofs.Component.Method
import Recast.Proofs.Markup.WholeElement
import Recast.Proofs.Scope.Rewriting

/-!
# Elements that are left as written

A component may return an element of a tag that is not known. Its markup does not become calls, and
the element goes into the method as written (`recastMarkup_unknown`). There its text is qualified
like any code: what is rewritten are not only the brace expressions in it, but all words of the
element that are not in a string, a comment or the static text of a template, in the sense that
these have in code.

`SourceElement` is such an element, with any attributes, and its pieces are the tag, the name of
each attribute and its value. Each piece is kept just if every word of it that reads as a reference
is local (`unknown_element_kept_iff`), so a name is lost where an attribute or the tag has the name
of a state variable or prop.
-/

namespace Recast

/-! ## Elements in a source -/

/-- The value of an attribute: a string in double quotes, or any code in braces. -/
inductive SourceValue where
  | quoted (value : QuotedValue)
  | braced (code : Text)

/-- An attribute with the blanks before it. -/
structure SourceAttribute where
  lead : Text
  name : TagName
  value : SourceValue
  separated : lead ≠ [] ∧ isBlankText lead

/-- The value in its quotes or braces. -/
def SourceValue.print : SourceValue → Text
  | .quoted value => '"' :: value.text ++ ['"']
  | .braced code => '{' :: code ++ ['}']

/-- The name of an attribute and its value, as they stand in a tag. -/
def SourceAttribute.pieces (given : SourceAttribute) : List Text :=
  [given.lead ++ given.name.text ++ ['='], given.value.print]

/-- What follows the name of a tag: attributes, and whatever comes behind them. -/
def tagPieces (attributes : List SourceAttribute) (rest : Text) : List Text :=
  attributes.flatMap SourceAttribute.pieces ++ [rest]

/-- An element with attributes. The name of its tag is whole, and the element ends with the text. -/
structure SourceElement where
  tag : TagName
  attributes : List SourceAttribute
  rest : Text
  ends : ∀ c, (tagPieces attributes rest).flatten.head? = some c → isTagNameChar c = false
  closed : IsElement ('<' :: (tag.text ++ (tagPieces attributes rest).flatten))

namespace SourceElement

/-- The tag, and the names and values of the attributes, in order, and the rest of the element. -/
def pieces (element : SourceElement) : List Text :=
  ('<' :: element.tag.text) :: tagPieces element.attributes element.rest

/-- The element as written. -/
def print (element : SourceElement) : Text :=
  element.pieces.flatten

theorem isElement_print (element : SourceElement) : IsElement element.print :=
  element.closed

theorem tagNameAt_print (element : SourceElement) :
    tagNameAt element.print 0 = element.tag.text := by
  have ends := element.ends
  obtain ⟨c, cs, name, start⟩ := element.tag.eq_cons
  have chars : ∀ d ∈ cs, isTagNameChar d := by
    have valid := element.tag.valid
    rw [name, isTagName, Bool.and_eq_true, List.all_eq_true] at valid
    exact valid.2
  have here : tagNameAt element.print 0 =
      tagName (element.tag.text ++ (tagPieces element.attributes element.rest).flatten) := rfl
  rw [here, name, List.cons_append, tagName, if_pos start, List.takeWhile_append_of_pos chars]
  cases rest : (tagPieces element.attributes element.rest).flatten with
  | nil => simp
  | cons d ds =>
    rw [rest] at ends
    simp [ends d rfl]

end SourceElement

/-! ## Its pieces -/

theorem pastWord_of_isTagNameChar {t : Text} (h : ∀ c, t.head? = some c → isTagNameChar c = false) :
    PastWord t := by
  intro c hc
  have other := h c hc
  simp only [isTagNameChar, Bool.or_eq_false_iff] at other
  exact other.1.1.1

theorem SourceValue.pastWord_print (value : SourceValue) :
    value.print ≠ [] ∧ PastWord value.print.reverse := by
  cases value with
  | quoted value =>
    refine ⟨by simp [SourceValue.print], ?_⟩
    rw [SourceValue.print, List.reverse_append]
    rintro c ⟨⟩
    decide
  | braced code =>
    refine ⟨by simp [SourceValue.print], ?_⟩
    rw [SourceValue.print, List.reverse_append]
    rintro c ⟨⟩
    decide

/-- No word is cut between a name and its value, or behind a value. -/
theorem parted_tagPieces (rest : Text) :
    ∀ attributes : List SourceAttribute, Parted (tagPieces attributes rest)
  | [] => ⟨.inr (by rintro c ⟨⟩), trivial⟩
  | given :: attributes => by
    refine ⟨.inl ⟨by simp, ?_⟩, .inl given.value.pastWord_print, parted_tagPieces rest attributes⟩
    rw [List.reverse_append]
    rintro c ⟨⟩
    decide

theorem SourceElement.parted (element : SourceElement) : Parted element.pieces :=
  ⟨.inr (pastWord_of_isTagNameChar element.ends), parted_tagPieces element.rest element.attributes⟩

/-! ## Kept pieces -/

/-- What is written for a piece of a component's code in its place, and that it is the piece itself
just if every word of it that reads as a reference is local. -/
def Definition.KeepsSettled (definition : Definition) (code behind piece ahead shown out : Text) :
    Prop :=
  Rewritten (definition.writes code) behind piece ahead shown out ∧
    (out = shown ↔ SettledBetween definition.methodReferences (bindingScopes (mask code)) behind
      piece ahead)

/-- An element of an unknown tag is returned as written. -/
theorem recastReturn_unknown (name : Text) {element : SourceElement}
    (unknown : tagRule? element.tag.text = none) :
    (recastReturn name (some element.print)).result = .ok element.print := by
  have starts : element.print.head? = some '<' := rfl
  rw [recastReturn, if_pos starts,
    recastMarkup_unknown element.isElement_print (element.tagNameAt_print ▸ unknown)]
  rfl

/-- A component that returns an element of an unknown tag has it in its method piece by piece: the
tag, the names of its attributes and their values, in order. Each is kept just if every word of it
that reads as a reference is local. -/
theorem unknown_element_kept_iff {options : Options} {definition : Definition} {text before : Text}
    {element : SourceElement}
    (unknown : tagRule? element.tag.text = none)
    (returned : definition.Returned options before (some element.print))
    (converted : (convertFunctional options definition).result = .ok text) :
    ∃ preamble outs, (recastEmbedded (codeBlock before)).result = .ok preamble ∧
      (∃ above below, text =
        unlines (above ++ initializer (definition.written preamble) outs.flatten ++ below)) ∧
      InPlace (definition.KeepsSettled element.print) [] (mask element.print) element.pieces
        outs := by
  obtain ⟨preamble, value, ⟨_, _, returned', recast, embedded⟩, above, below, written⟩ :=
    exists_initializer converted
  obtain ⟨rfl, rfl⟩ := returned.unique returned'
  obtain rfl := Except.ok.inj ((recastReturn_unknown definition.name unknown).symm.trans recast)
  have rewritten := rewritten_qualify definition.isWord_of_mem_methodReferences element.print
  obtain ⟨outs, same, all⟩ := rewritten.inPlace (mask_shows element.print) element.parted
  refine ⟨preamble, outs, embedded, ⟨above, below, ?_⟩, all.imp fun piece => ?_⟩
  · rw [written, ← same]
    rfl
  · exact ⟨piece, piece.eq_iff_settledBetween definition.isWord_of_mem_methodReferences⟩

/-- An element of an unknown tag with an attribute. -/
def chart : SourceElement where
  tag := ⟨"Chart".toList, by decide⟩
  attributes :=
    [⟨" ".toList, ⟨"count".toList, by decide⟩, .quoted ⟨"total".toList, by decide⟩, by decide⟩]
  rest := " />".toList
  ends := by
    rintro c ⟨⟩
    decide
  closed := by decide +kernel

/-- A component with a prop of the attribute's name that returns the element. -/
def countedChart : Definition where
  name := "App".toList
  exported := []
  params := "\x7b count \x7d".toList
  variableType? := none
  body := "\n  return <Chart count=\"total\" />;\n".toList
  concise := false
  start := 0
  stop := 62

theorem returned_countedChart :
    countedChart.Returned Options.standard "\n  ".toList (some chart.print) := by
  have extracted : (extractHooks Options.standard countedChart.code).result =
      .ok ⟨[], [], countedChart.body, [], [], []⟩ := by
    decide +kernel
  exact .block rfl extracted (by decide +kernel)

theorem tagRule?_chart : tagRule? chart.tag.text = none := by
  decide

theorem convertFunctional_countedChart :
    (convertFunctional Options.standard countedChart).result =
      .ok (countedChart.classParts Options.standard [] chart.print).render := by
  have empty : (recastEmbedded (codeBlock "\n  ".toList)).result = .ok [] := by
    have none : codeBlock "\n  ".toList = [] := by decide +kernel
    rw [none, recastEmbedded_eq_pure (by simp)]
    rfl
  have code : countedChart.MethodCode Options.standard [] chart.print := by
    cases returned_countedChart with
    | block _ extracted split =>
      exact ⟨_, _, _, extracted, split, recastReturn_unknown _ tagRule?_chart, empty⟩
  exact (convertFunctional_eq_ok rfl).2 ⟨[], chart.print, code, rfl⟩

theorem names_countedChart :
    countedChart.states = [] ∧
      propAliases countedChart.params = [("count".toList, "count".toList)] := by
  decide +kernel

theorem methodReferences_countedChart :
    countedChart.methodReferences = [("count".toList, "this.props.count".toList)] := by
  rw [Definition.methodReferences, Definition.stateNames, names_countedChart.1,
    names_countedChart.2]
  rfl

theorem unknown_element_kept_countedChart :
    tagRule? chart.tag.text = none ∧
      countedChart.Returned Options.standard "\n  ".toList (some chart.print) ∧
      (convertFunctional Options.standard countedChart).result =
        .ok (countedChart.classParts Options.standard [] chart.print).render ∧
      ∃ tag name value rest,
        (∃ above below, (countedChart.classParts Options.standard [] chart.print).render =
          unlines (above ++ initializer (countedChart.written []) [tag, name, value,
            rest].flatten ++ below)) ∧
        tag = "<Chart".toList ∧ name ≠ " count=".toList ∧ value = "\"total\"".toList := by
  refine ⟨tagRule?_chart, returned_countedChart, convertFunctional_countedChart, ?_⟩
  obtain ⟨preamble, outs, embedded, written, all⟩ :=
    unknown_element_kept_iff tagRule?_chart returned_countedChart convertFunctional_countedChart
  have none : codeBlock "\n  ".toList = [] := by decide +kernel
  rw [none, recastEmbedded_eq_pure (by simp)] at embedded
  obtain rfl : [] = preamble := Except.ok.inj embedded
  have pieces : chart.pieces = ["<Chart".toList, " count=".toList, "\"total\"".toList,
      " />".toList] := rfl
  rw [pieces] at all
  obtain ⟨tag, _, rfl, first, all⟩ := all.exists_cons
  obtain ⟨name, _, rfl, second, all⟩ := all.exists_cons
  obtain ⟨value, _, rfl, third, all⟩ := all.exists_cons
  obtain ⟨rest, _, rfl, -, -, rfl⟩ := all.exists_cons
  rw [Definition.KeepsSettled, methodReferences_countedChart] at first second third
  refine ⟨tag, name, value, rest, written, ?_, ?_, ?_⟩
  · exact first.2.2 (by decide +kernel)
  · exact fun same => absurd (second.2.1 same) (by decide +kernel)
  · exact third.2.2 (by decide +kernel)

/-- The attribute has lost its name in the method. -/
theorem value_countedChart :
    (convertFunctional Options.standard countedChart).result =
        .ok (countedChart.classParts Options.standard [] chart.print).render ∧
      chart.print = "<Chart count=\"total\" />".toList ∧
      (countedChart.classParts Options.standard [] chart.print).value =
        "<Chart this.props.count=\"total\" />".toList := by
  have walked : countedChart.qualified chart.print =
      "<Chart this.props.count=\"total\" />".toList := by
    rw [Definition.qualified, qualify_eq_walk Definition.isWord_of_mem_references,
      names_countedChart.1, names_countedChart.2]
    decide +kernel
  exact ⟨convertFunctional_countedChart, rfl, walked⟩

end Recast
