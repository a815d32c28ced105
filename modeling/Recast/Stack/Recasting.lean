import Recast.Stack.Attempt
import Recast.Stack.Search

/-!
# Markup becomes calls on a limited stack

The same steps as without a limit, each with room for `limit` calls: one call is open while the next
one runs, so a step that is called has room for one call less. A step for which there is no room
fails at once.
-/

namespace Recast

open Attempt

mutual

/-- A markup text as a value. -/
def recastMarkupWithin : Nat → Text → Attempt Text
  | 0, _ => fail .overflow
  | limit + 1, markup =>
    let text := trim markup
    if text.isEmpty then return "\"\"".toList
    else if !text.contains '<' then ask limit [.tokens text 0 none] fun _ => textValue text
    else do
      let children ← recastChildrenWithin limit text
      return if children.isEmpty then "\"\"".toList else children

/-- Children as one value. -/
def recastChildrenWithin : Nat → Text → Attempt Text
  | 0, _ => fail .overflow
  | limit + 1, children => do
    let found ← ask limit (if isBlankText children then [] else [.tokens children 0 none])
      fun _ => tokens children 0
    let units ← collect ((childSpans children.length 0 0 found).map fun span =>
      recastUnitWithin limit (trim (span.of children)))
    return childrenValue units.reduceOption

/-- One unit of children; nothing is called for a blank one. -/
def recastUnitWithin : Nat → Text → Attempt (Option Text)
  | _, [] => return none
  | 0, _ :: _ => fail .overflow
  | limit + 1, c :: rest =>
    if c = '<' then some <$> recastElementWithin limit rest
    else if c = '{' && rest.getLast? = some '}' then
      let inner := trim rest.dropLast
      if isSilent inner then return none else some <$> recastExpressionWithin limit inner
    else return some (quote (trim (collapseBlanks (c :: rest))))

/-- The call of a known tag with the given properties and children. -/
def recastCallWithin : Nat → (tag : Text) → TagKind → (properties children : Text) → Attempt Text
  | 0, _, _, _, _ => fail .overflow
  | _ + 1, _, .image, properties, _ =>
    return constructorCall TagKind.image.constructor [properties]
  | limit + 1, _, .container, properties, children => do
    let inner ← recastChildrenWithin limit children
    return constructorCall TagKind.container.constructor [properties, childrenPart inner]
  | limit + 1, tag, .text, properties, children => do
    let units ← ask limit [.tokens children 0 none] fun _ => splitChildren children
    ask limit (unitScans units) fun _ => .ok ()
    if units.any isMarkupUnit then do
      ofOutcome (Outcome.warn (.nestedMarkup tag))
      recastCallWithin limit tag .container properties children
    else do
      let value ← ask limit [.tokens children 0 none] fun _ => textValue children
      return constructorCall TagKind.text.constructor ["text: ".toList ++ value, properties]
  | limit + 1, _, .pressable, properties, children => do
    let units ← ask limit [.tokens children 0 none] fun _ => splitChildren children
    ask limit (unitScans units) fun _ => .ok ()
    if units.any isMarkupUnit then do
      let inner ← recastChildrenWithin limit children
      return constructorCall TagKind.pressable.constructor [properties, childrenPart inner]
    else if units.isEmpty then
      return constructorCall TagKind.pressable.constructor [properties]
    else do
      let value ← ask limit [.tokens children 0 none] fun _ => textValue children
      let label := constructorCall TagKind.text.constructor ["text: ".toList ++ value]
      return constructorCall TagKind.pressable.constructor [properties, childrenPart label]

/-- The element `<rest`. -/
def recastElementWithin : Nat → Text → Attempt Text
  | 0, _ => fail .overflow
  | limit + 1, rest => do
    let parts ← ask limit (partScans rest) fun _ => elementParts rest
    match parts.children?, tagRule? parts.name with
    | none, _ => do
      ofOutcome (Outcome.warn (.unmatchedTag parts.name))
      return '<' :: rest
    | some _, none => do
      ofOutcome (Outcome.warn (.unsupportedElement parts.name))
      return '<' :: rest
    | some span, some rule => do
      ofOutcome (Outcome.warn? rule.warning?)
      ask limit (attributeScans parts.attributes) fun _ => .ok ()
      let properties ← ofOutcome (recastAttributes parts.attributes)
      ofOutcome (Outcome.note (.madeCall parts.name rule.kind.constructor))
      let call ← recastCallWithin limit parts.name rule.kind properties (span.of rest)
      return annotated rule.comment? call

/-- An expression with the markup in it replaced. -/
def recastExpressionWithin : Nat → Text → Attempt Text
  | 0, _ => fail .overflow
  | limit + 1, expression => do
    match ← recastListWithin limit expression with
    | some list => return list
    | none => recastEmbeddedWithin limit expression

/-- The dynamic list that an expression becomes, if it is a rendered list. -/
def recastListWithin : Nat → Text → Attempt (Option Text)
  | 0, _ => fail .overflow
  | limit + 1, expression => do
    match ← ask limit (listScans expression) fun _ => listCall? expression with
    | none => return none
    | some call => do
      ofOutcome (Outcome.warn .mappedArray)
      let rendered ← recastMarkupWithin limit call.item
      let before ← recastEmbeddedWithin limit call.before
      let after ← recastEmbeddedWithin limit call.after
      return some (before ++ dynamicList call rendered ++ after)

/-- Code with every complete element in it replaced. -/
def recastEmbeddedWithin : Nat → Text → Attempt Text
  | 0, _ => fail .overflow
  | limit + 1, code => do
    let found := embeddedScans code [] 0 0 [] code
    let edits ← collect (found.1.map fun (scans, element) => do
      let span ← ask limit scans fun _ => element
      let call ← recastElementWithin limit ((span.of code).drop 1)
      return (⟨span, call⟩ : Edit))
    ask limit found.2 fun _ => .ok (replaceSpans code edits)

end

end Recast
