import Recast.Markup.Content
import Recast.Markup.ListCall
import Recast.Markup.Property
import Recast.Markup.Vocabulary
import Recast.Text.Edit

/-!
# Markup becomes calls

An element of a known tag becomes one constructor call, with its attributes as properties and its
children in order (`recastElement`, `recastChildren`). An element of an unknown tag, and one without
its closing tag, stays as written with a warning. Expressions keep their code: a rendered list
becomes a dynamic list (`recastExpression`), and any other element in code is replaced in place
(`recastEmbedded`). `recastMarkup` is the way in for a whole markup text.
-/

namespace Recast

/-- The start of the last closing tag before the end of a text. -/
def lastClosingTag (pos found : Nat) : Text → Nat
  | [] => found
  | c :: cs => lastClosingTag (pos + 1) (if c = '<' && cs.head? = some '/' then pos else found) cs

/-- The complete elements in the code from `pos` on that is not in strings or comments; a fault ends
the list. -/
def embeddedElements (behind : Text) (pos resume : Nat) : Text → List (Except MarkupFault Span)
  | [] => []
  | c :: cs =>
    if pos < resume then embeddedElements (c :: behind) (pos + 1) resume cs
    else if isQuote c then embeddedElements (c :: behind) (pos + 1) (literalEnd c (pos + 1) 0 cs) cs
    else if c = '<' && opensMarkup behind cs then
      match elementEnd pos c cs with
      | .error fault => [.error fault]
      | .ok (some stop) => .ok ⟨pos, stop⟩ :: embeddedElements (c :: behind) (pos + 1) stop cs
      | .ok none => embeddedElements (c :: behind) (pos + 1) resume cs
    else
      embeddedElements (c :: behind) (pos + 1) ((commentEnd? pos c cs).getD resume) cs

/-- The texts of children as one value: none, the one alone, or a list of them. -/
def childrenValue : List Text → Text
  | [] => []
  | [child] => child
  | children => "[".toList ++ joinComma children ++ "]".toList

/-- The part of a call that holds the children. -/
def childrenPart (children : Text) : Text :=
  if children.isEmpty then [] else "children: ".toList ++ children

/-- A comment, if there is one, before a call. -/
def annotated : Option Text → Text → Text
  | some comment, call => comment ++ " ".toList ++ call
  | none, call => call

/-- The call of a dynamic list. -/
def dynamicList (call : ListCall) (rendered : Text) : Text :=
  "DynamicList(\x7b data: ".toList ++ call.collection ++ ", renderItem: (".toList ++ call.params
    ++ ") => ".toList ++ rendered ++ " \x7d)".toList

/-- An opening tag and what it encloses, as read off an element. -/
structure ElementParts where
  name : Text
  attributes : Text
  /-- Where the text between the tags stands after the `<`; there is none if the closing tag is
  missing. -/
  children? : Option Span
  deriving DecidableEq, Repr

/-- The parts of the element `<rest`. -/
def elementParts (rest : Text) : Except MarkupFault ElementParts := do
  let element := '<' :: rest
  let name := tagName rest
  let tag ← tagEndAt element 0
  let attributes := slice rest name.length (tag.stop - (if tag.selfClosing then 3 else 2))
  if tag.selfClosing then return ⟨name, attributes, some ⟨0, 0⟩⟩
  let found ← elementEndAt element 0
  return ⟨name, attributes, found.map fun stop =>
    ⟨tag.stop - 1, lastClosingTag 0 0 (element.take stop) - 1⟩⟩

mutual

/-- A markup text as a value: several siblings become a list. -/
def recastMarkup (markup : Text) : Outcome Text :=
  let text := trim markup
  if text.isEmpty then return "\"\"".toList
  else if !text.contains '<' then Outcome.ofExcept (textValue text)
  else do
    let children ← recastChildren text
    return if children.isEmpty then "\"\"".toList else children
termination_by 6 * markup.length + 2
decreasing_by
  have := length_trim_le markup
  omega

/-- Children as one value; empty if there is none. -/
def recastChildren (children : Text) : Outcome Text :=
  match tokens children 0 with
  | .error fault => Outcome.fail fault
  | .ok found => do
    let units ← Outcome.collect
      ((childSpans children.length 0 0 found).map fun span => recastUnit (trim (span.of children)))
    return childrenValue units.reduceOption
termination_by 6 * children.length + 1
decreasing_by
  have := length_slice_le children span.start span.stop
  have := length_trim_le (span.of children)
  simp only [Span.of] at *
  omega

/-- One unit of children: an element, an expression or a text. A blank or commented expression has
no value. -/
def recastUnit (unit : Text) : Outcome (Option Text) :=
  match unit with
  | [] => return none
  | c :: rest =>
    if c = '<' then some <$> recastElement rest
    else if c = '{' && rest.getLast? = some '}' then
      let inner := trim rest.dropLast
      if isSilent inner then return none else some <$> recastExpression inner
    else return some (quote (trim (collapseBlanks unit)))
termination_by 6 * unit.length
decreasing_by
  · simp only [List.length_cons]
    omega
  · have := length_trim_le rest.dropLast
    simp only [List.length_dropLast] at this
    simp only [List.length_cons]
    omega

/-- The call of a known tag with the given properties and children. A text element with markup in it
becomes a container, and a pressable wraps plain content in a text. -/
def recastCall (tag : Text) (kind : TagKind) (properties children : Text) : Outcome Text :=
  match kind with
  | .image => return constructorCall kind.constructor [properties]
  | .container => do
    let inner ← recastChildren children
    return constructorCall kind.constructor [properties, childrenPart inner]
  | .text =>
    match splitChildren children with
    | .error fault => Outcome.fail fault
    | .ok units =>
      if units.any isMarkupUnit then do
        Outcome.warn (.nestedMarkup tag)
        let inner ← recastChildren children
        return constructorCall TagKind.container.constructor [properties, childrenPart inner]
      else do
        let value ← Outcome.ofExcept (textValue children)
        return constructorCall kind.constructor ["text: ".toList ++ value, properties]
  | .pressable =>
    match splitChildren children with
    | .error fault => Outcome.fail fault
    | .ok units =>
      if units.any isMarkupUnit then do
        let inner ← recastChildren children
        return constructorCall kind.constructor [properties, childrenPart inner]
      else if units.isEmpty then return constructorCall kind.constructor [properties]
      else do
        let value ← Outcome.ofExcept (textValue children)
        let label := constructorCall TagKind.text.constructor ["text: ".toList ++ value]
        return constructorCall kind.constructor [properties, childrenPart label]
termination_by 6 * children.length + 2

/-- The element `<rest`. -/
def recastElement (rest : Text) : Outcome Text :=
  match elementParts rest with
  | .error fault => Outcome.fail fault
  | .ok parts =>
    match parts.children?, tagRule? parts.name with
    | none, _ => do
      Outcome.warn (.unmatchedTag parts.name)
      return '<' :: rest
    | some _, none => do
      Outcome.warn (.unsupportedElement parts.name)
      return '<' :: rest
    | some span, some rule => do
      Outcome.warn? rule.warning?
      let properties ← recastAttributes parts.attributes
      Outcome.note (.madeCall parts.name rule.kind.constructor)
      let call ← recastCall parts.name rule.kind properties (span.of rest)
      return annotated rule.comment? call
termination_by 6 * rest.length + 3
decreasing_by
  have := length_slice_le rest span.start span.stop
  simp only [Span.of]
  omega

/-- An expression with the markup in it replaced. -/
def recastExpression (expression : Text) : Outcome Text :=
  match _ : listCall? expression with
  | .error fault => Outcome.fail fault
  | .ok none => recastEmbedded expression
  | .ok (some call) => do
    Outcome.warn .mappedArray
    let rendered ← recastMarkup call.item
    let before ← recastEmbedded call.before
    let after ← recastEmbedded call.after
    return before ++ dynamicList call rendered ++ after
termination_by 6 * expression.length + 5
decreasing_by
  · omega
  · have := listCall?_bounds (by assumption)
    omega
  · have := listCall?_bounds (by assumption)
    omega
  · have := listCall?_bounds (by assumption)
    omega

/-- Code with every complete element in it replaced. -/
def recastEmbedded (code : Text) : Outcome Text := do
  let edits ← Outcome.collect ((embeddedElements [] 0 0 code).map fun
    | .error fault => Outcome.fail fault
    | .ok span => do
      let call ← recastElement ((span.of code).drop 1)
      return (⟨span, call⟩ : Edit))
  return replaceSpans code edits
termination_by 6 * code.length + 4
decreasing_by
  have := length_slice_le code span.start span.stop
  have := (List.drop_sublist 1 (span.of code)).length_le
  simp only [Span.of] at *
  omega

end

end Recast
