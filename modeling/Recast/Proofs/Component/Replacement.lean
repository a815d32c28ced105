import Recast.Proofs.Component.ComponentRecord
import Recast.Proofs.Component.ComponentSpan
import Recast.Proofs.Component.HookExtraction
import Recast.Source.Conversion

/-!
# Only components are replaced

Both passes over a source replace the spans of components and copy the text between them
(`convertFunctionals_result`, `convertClasses_result`). Each replaced span leaves one record, those
of functional components before those of classes (`convertComponents_keeps_gaps`).
-/

namespace Recast

open Outcome

/-! ## A pass over the things found in a text -/

section Pass

variable {α : Type} (span : α → Span) (written : α → Outcome Text)

/-- The edits that put what is written for a thing in the place of its span. -/
def editsFor (found : List α) : Outcome (List Edit) :=
  collect (found.map fun a => do
    let text ← written a
    return ⟨span a, text⟩)

variable {span written}

theorem editsFor_cons (a : α) (found : List α) :
    editsFor span written (a :: found) = (do
      let text ← written a
      let edits ← editsFor span written found
      return ⟨span a, text⟩ :: edits) := by
  rw [editsFor, List.map_cons, collect_cons]
  simp only [bind_assoc, pure_bind]
  rfl

/-- The edits are at the spans of what was found, with what is written, unless writing fails. -/
theorem editsFor_parts : ∀ found : List α,
    (editsFor span written found).result.map
      (fun edits => (edits.map Edit.span, edits.map Edit.text)) =
      (found.mapM fun a => (written a).result).map fun texts => (found.map span, texts)
  | [] => rfl
  | a :: found => by
    have rest := editsFor_parts found
    rw [editsFor_cons, List.mapM_cons]
    cases text : (written a).result with
    | error fault => simp [bind, andThen, text, Except.map, Except.bind]
    | ok text' =>
      rw [bind_of_ok text]
      cases edits : (editsFor span written found).result with
      | error fault =>
        cases texts : (found.mapM fun a => (written a).result) with
        | error other => simpa [edits, texts, bind, andThen, Except.map, Except.bind] using rest
        | ok texts' => simp [edits, texts, Except.map] at rest
      | ok edits' =>
        cases texts : (found.mapM fun a => (written a).result) with
        | error other => simp [edits, texts, Except.map] at rest
        | ok texts' =>
          simp only [edits, texts, Except.map, Except.ok.injEq, Prod.mk.injEq] at rest
          rw [bind_of_ok edits]
          change Except.ok (span a :: edits'.map Edit.span, text' :: edits'.map Edit.text) = _
          rw [rest.1, rest.2]
          rfl

/-- Replacing weaves what is written into the gaps between the spans. -/
theorem editsFor_weaves (t : Text) (found : List α) :
    (editsFor span written found).result.map (replaceSpans t) =
      (found.mapM fun a => (written a).result).map (weave (gapsFrom t 0 (found.map span))) := by
  have whole : replaceSpans t = fun edits =>
      weave (gapsFrom t 0 (edits.map Edit.span)) (edits.map Edit.text) :=
    funext (replaceSpans_eq_weave t)
  calc (editsFor span written found).result.map (replaceSpans t)
      = ((editsFor span written found).result.map
        fun edits => (edits.map Edit.span, edits.map Edit.text)).map
          fun parts => weave (gapsFrom t 0 parts.1) parts.2 := by
        rw [whole]
        cases (editsFor span written found).result <;> rfl
    _ = ((found.mapM fun a => (written a).result).map fun texts => (found.map span, texts)).map
          fun parts => weave (gapsFrom t 0 parts.1) parts.2 := by rw [editsFor_parts]
    _ = _ := by cases (found.mapM fun a => (written a).result) <;> rfl

/-- Things that are each recorded once are recorded in order. -/
theorem editsFor_records {name : α → Text} {isClass : Bool}
    (once : ∀ a, (written a).RecordsOnce (name a) isClass) : ∀ {found : List α} {edits : List Edit},
    (editsFor span written found).result = .ok edits →
      (editsFor span written found).journal.components.map label = found.map fun a =>
        (name a, isClass)
  | [], _, _ => rfl
  | a :: found, edits, h => by
    rw [editsFor_cons] at h ⊢
    obtain ⟨text, first, h⟩ := bind_result_eq_ok.1 h
    obtain ⟨others, rest, -⟩ := bind_result_eq_ok.1 h
    have one : (written a).journal.components.map label = _ := once a
    rw [first] at one
    rw [bind_of_ok first, bind_of_ok rest]
    change
      (Journal.components
        ((written a).journal ++ ((editsFor span written found).journal ++ []))).map label = _
    rw [List.append_nil, components_append, List.map_append, one, editsFor_records once rest]
    rfl

end Pass

/-! ## The two passes -/

theorem convertFunctionals_eq {source : Text} {definitions : List Definition} (options : Options)
    (h : findDefinitions source = .ok definitions) :
    convertFunctionals options source =
      replaceSpans source <$> editsFor Definition.span (convertFunctional options) definitions := by
  rw [convertFunctionals, h]
  rfl

/-- The class pass on one class component of a source. -/
def FoundClass.converted (options : Options) (source : Text) (found : FoundClass) : Outcome Text :=
  convertClass options found.1.value found.2.1
    (slice source (found.2.2.start + 1) (found.2.2.stop - 1))

theorem convertClasses_eq (options : Options) (source : Text) :
    convertClasses options source =
      replaceSpans source <$> editsFor FoundClass.span (FoundClass.converted options source)
        (findClasses source) :=
  rfl

/-- The class pass writes a text for every class component. -/
theorem converted_result (options : Options) (source : Text) (found : FoundClass) :
    ∃ text, (found.converted options source).result = .ok text := by
  rw [FoundClass.converted, convertClass]
  refine exists_bind_result ⟨_, rfl⟩ fun _ => exists_bind_result ⟨_, rfl⟩ fun _ => ?_
  refine exists_bind_result (collect_result fun x hx => ?_) fun _ => ⟨_, rfl⟩
  obtain ⟨method, -, rfl⟩ := List.mem_map.1 hx
  exact ⟨_, rfl⟩

theorem converted_recordsOnce (options : Options) (source : Text) (found : FoundClass) :
    (found.converted options source).RecordsOnce found.1.value.name true :=
  convertClass_recordsOnce options found.1.value found.2.1 _

theorem mapM_eq_ok {α β ε : Type} {f : α → Except ε β} :
    ∀ l : List α, (∀ a ∈ l, ∃ b, f a = .ok b) → ∃ bs, l.mapM f = .ok bs
  | [], _ => ⟨[], rfl⟩
  | a :: l, h => by
    obtain ⟨b, first⟩ := h a (by simp)
    obtain ⟨bs, rest⟩ := mapM_eq_ok l fun other hm => h other (by simp [hm])
    exact ⟨b :: bs, by rw [List.mapM_cons, first, rest]; rfl⟩

/-- The functional pass weaves the classes of the definitions into the text between them. -/
theorem convertFunctionals_result {source : Text} {definitions : List Definition}
    (options : Options) (h : findDefinitions source = .ok definitions) :
    (convertFunctionals options source).result =
      (definitions.mapM fun definition => (convertFunctional options definition).result).map
        (weave (gapsFrom source 0 (definitions.map Definition.span))) := by
  rw [convertFunctionals_eq options h, map_result]
  exact editsFor_weaves source definitions

/-- The class pass weaves what it writes into the text between the class components, and never
fails. -/
theorem convertClasses_result (options : Options) (source : Text) :
    ∃ texts, ((findClasses source).mapM fun found => (found.converted options source).result) =
      .ok texts ∧
      (convertClasses options source).result =
        .ok (weave (gapsFrom source 0 ((findClasses source).map FoundClass.span)) texts) := by
  obtain ⟨texts, written⟩ :=
    mapM_eq_ok (findClasses source) fun found _ => converted_result options source found
  refine ⟨texts, written, ?_⟩
  rw [convertClasses_eq, map_result]
  exact (editsFor_weaves source (findClasses source)).trans (congrArg _ written)

theorem convertFunctionals_records {source converted : Text} {definitions : List Definition}
    {options : Options}
    (h : findDefinitions source = .ok definitions)
    (done : (convertFunctionals options source).result = .ok converted) :
    (convertFunctionals options source).journal.components.map label =
      definitions.map fun definition => (definition.name, false) := by
  rw [convertFunctionals_eq options h] at done ⊢
  obtain ⟨edits, collected, -⟩ := map_result_eq_ok.1 done
  rw [map_journal]
  exact editsFor_records (convertFunctional_recordsOnce options) collected

theorem convertClasses_records (options : Options) (source : Text) :
    (convertClasses options source).journal.components.map label =
      (findClasses source).map fun found => (found.1.value.name, true) := by
  obtain ⟨texts, -, done⟩ := convertClasses_result options source
  rw [convertClasses_eq] at done ⊢
  obtain ⟨edits, collected, -⟩ := map_result_eq_ok.1 done
  rw [map_journal]
  exact editsFor_records (converted_recordsOnce options source) collected

/-- The definitions of a source stand in order, the functional pass replaces each by its class and
keeps the text between them, and the class pass does the same to the text that this gives. What is
recorded is one component for each span that is replaced, functional components first. -/
theorem convertComponents_keeps_gaps {source : Text} {definitions : List Definition}
    (options : Options) (h : findDefinitions source = .ok definitions) :
    let spans := definitions.map Definition.span
    OrderedFrom source.length 0 spans ∧
    weave (gapsFrom source 0 spans) (spans.map (·.of source)) = source ∧
    (convertFunctionals options source).result =
      (definitions.mapM fun definition => (convertFunctional options definition).result).map
        (weave (gapsFrom source 0 spans)) ∧
    ∀ converted, (convertFunctionals options source).result = .ok converted →
      let classes := findClasses converted
      let spans := classes.map FoundClass.span
      OrderedFrom converted.length 0 spans ∧
      weave (gapsFrom converted 0 spans) (spans.map (·.of converted)) = converted ∧
      (∃ texts, (classes.mapM fun found => (found.converted options converted).result) = .ok texts ∧
        (convertComponents options source).result =
          .ok (weave (gapsFrom converted 0 spans) texts)) ∧
      (convertComponents options source).journal.components.map label =
        definitions.map (fun definition => (definition.name, false))
          ++ classes.map fun found => (found.1.value.name, true) := by
  have ordered := findDefinitions_ordered h
  refine ⟨ordered, weave_gapsFrom ordered, convertFunctionals_result options h,
    fun converted done => ?_⟩
  have classes := findClasses_ordered converted
  obtain ⟨texts, written, replaced⟩ := convertClasses_result options converted
  have both : convertComponents options source =
      ⟨(convertFunctionals options source).journal ++ (convertClasses options converted).journal,
        (convertClasses options converted).result⟩ := bind_of_ok done _
  refine ⟨classes, weave_gapsFrom classes, ⟨texts, written, by rw [both, replaced]⟩, ?_⟩
  rw [both, components_append, List.map_append, convertFunctionals_records h done,
    convertClasses_records]

/-- A source with two functional components and text around them. -/
def pageSource : Text :=
  "// page\nconst Row = () => \x7b return 1; \x7d;\n\n".toList
    ++ "export function Page(props) \x7b return props.a; \x7d\nrun(Page);\n".toList

/-- The definitions of `pageSource`. -/
def pageDefinitions : List Definition :=
  [{ name := "Row".toList, exported := [], params := [], variableType? := none,
     body := " return 1; ".toList, concise := false, start := 8, stop := 40 },
   { name := "Page".toList, exported := "export ".toList, params := "props".toList,
     variableType? := none, body := " return props.a; ".toList, concise := false, start := 42,
     stop := 89 }]

theorem findDefinitions_pageSource : findDefinitions pageSource = .ok pageDefinitions := by
  have arrows : (occurrences arrowComponent pageSource).mapM (arrowDefinition? pageSource) =
      .ok [pageDefinitions.head?] := by decide +kernel
  have functions : (occurrences functionComponent pageSource).filterMap
      (functionDefinition? pageSource) =
      pageDefinitions.tail := by decide +kernel
  rw [findDefinitions, arrows, functions]
  change Except.ok (dropNested 0 (List.mergeSort pageDefinitions _)) = _
  rw [List.mergeSort_of_pairwise (by decide)]
  decide

/-- The text around the components of `pageSource` is kept. -/
theorem convertComponents_keeps_gaps_page :
    findDefinitions pageSource = .ok pageDefinitions ∧
      (convertFunctionals Options.standard pageSource).result =
        (pageDefinitions.mapM
          fun definition => (convertFunctional Options.standard definition).result).map
          (weave ["// page\n".toList, "\n\n".toList, "\nrun(Page);\n".toList]) := by
  obtain ⟨-, -, kept, -⟩ := convertComponents_keeps_gaps Options.standard findDefinitions_pageSource
  have gaps : gapsFrom pageSource 0 (pageDefinitions.map Definition.span) =
      ["// page\n".toList, "\n\n".toList, "\nrun(Page);\n".toList] := by decide +kernel
  rw [gaps] at kept
  exact ⟨findDefinitions_pageSource, kept⟩

end Recast
