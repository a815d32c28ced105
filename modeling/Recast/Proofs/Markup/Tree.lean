import Recast.Markup.Recasting
import Recast.Proofs.Scan.Passage

/-!
# Markup trees

A markup tree is an element with its attributes and children; its parts carry the proofs of their
own shape, so that every tree is one that can be written. `Element.print` writes it as text. Text
between children is a `TextRun`, and an empty run stands where there is no text: no two runs of text
are next to each other.

`Element.recast` is what becomes of a tree, by recursion over it: a known tag becomes one
constructor call with its properties and children in order, an unknown tag stays as written and is
worth a warning.
-/

namespace Recast

/-! ## Parts -/

/-- Whether the whole text is the name of a tag or of an attribute. -/
def isTagName : Text → Bool
  | c :: cs => isNameStart c && cs.all isTagNameChar
  | [] => false

/-- The name of a tag or of an attribute. -/
structure TagName where
  text : Text
  valid : isTagName text

/-- Text between tags and expressions; empty where there is none. -/
structure TextRun where
  text : Text
  valid : ∀ c ∈ text, c ≠ '<' ∧ c ≠ '{'

/-- The code of a brace expression: no quote, no `<`, no `/`, and its braces close one another. -/
structure BraceCode where
  text : Text
  plain : ∀ c ∈ text, isPlainCode c
  closed : closesFrom .curly 0 text

/-- The content of a double-quoted attribute value. -/
structure QuotedValue where
  text : Text
  valid : ∀ c ∈ text, c ≠ '"' ∧ c ≠ '\\'

/-- The value of an attribute as written. -/
inductive WrittenValue where
  | quoted (value : QuotedValue)
  | braced (code : BraceCode)

/-- An attribute as written. -/
structure WrittenAttribute where
  name : TagName
  value : WrittenValue

/-- The opening tag of a fragment, or of an element with a name. -/
inductive OpeningTag where
  | fragment
  | named (name : TagName) (attributes : List WrittenAttribute)

/-! ## Trees -/

mutual

/-- An element, with children between its tags or closed by its only tag. -/
inductive Element where
  | paired (tag : OpeningTag) (children : Children)
  | selfClosing (name : TagName) (attributes : List WrittenAttribute)

/-- The children of an element, with the text before each one and after the last. -/
inductive Children where
  | last (gap : TextRun)
  | element (gap : TextRun) (child : Element) (rest : Children)
  | expression (gap : TextRun) (code : BraceCode) (rest : Children)

end

/-- The name of an opening tag; empty for a fragment. -/
def OpeningTag.name : OpeningTag → Text
  | .fragment => []
  | .named name _ => name.text

/-- The attributes of an opening tag. -/
def OpeningTag.attributes : OpeningTag → List WrittenAttribute
  | .fragment => []
  | .named _ attributes => attributes

/-! ## Printing -/

/-- The code in its braces. -/
def BraceCode.print (code : BraceCode) : Text :=
  '{' :: code.text ++ ['}']

/-- The value in its quotes or braces. -/
def WrittenValue.print : WrittenValue → Text
  | .quoted value => '"' :: value.text ++ ['"']
  | .braced code => code.print

/-- The attribute with a space before it. -/
def WrittenAttribute.print (given : WrittenAttribute) : Text :=
  ' ' :: given.name.text ++ '=' :: given.value.print

/-- The attributes of a tag in order. -/
def printAttributes (attributes : List WrittenAttribute) : Text :=
  attributes.flatMap WrittenAttribute.print

/-- The opening tag as text. -/
def OpeningTag.print (tag : OpeningTag) : Text :=
  '<' :: (tag.name ++ printAttributes tag.attributes ++ ['>'])

/-- The closing tag of a name as text. -/
def closingTag (name : Text) : Text :=
  '<' :: '/' :: (name ++ ['>'])

mutual

/-- The element as text. -/
def Element.print : Element → Text
  | .paired tag children => tag.print ++ children.print ++ closingTag tag.name
  | .selfClosing name attributes =>
    '<' :: (name.text ++ printAttributes attributes ++ [' ', '/', '>'])

/-- The children as text. -/
def Children.print : Children → Text
  | .last gap => gap.text
  | .element gap child rest => gap.text ++ child.print ++ rest.print
  | .expression gap code rest => gap.text ++ code.print ++ rest.print

end

/-! ## What becomes of a tree -/

/-- The attribute that is read off its written form. -/
def WrittenAttribute.attribute (given : WrittenAttribute) : Attribute :=
  match given.value with
  | .quoted value => .string given.name.text value.text
  | .braced code => .expression given.name.text (trim code.text)

/-- The property list of attributes. -/
def recastWritten (attributes : List WrittenAttribute) : Outcome Text := do
  let properties ← Outcome.collect (attributes.map fun given => recastAttribute given.attribute)
  return propertyList properties.flatten

/-- The value of a run of text; a blank run has none. -/
def TextRun.values (gap : TextRun) : List Text :=
  if isBlankText gap.text then [] else [quote (trim (collapseBlanks (trim gap.text)))]

/-- The value of an expression; a blank one has none. -/
def BraceCode.values (code : BraceCode) : List Text :=
  if isBlankText code.text then [] else [trim code.text]

/-- The pieces of content that a run of text is. -/
def TextRun.pieces (gap : TextRun) : List ContentPiece :=
  if gap.text.isEmpty then [] else [.literal gap.text]

/-- The pieces of text content; elements count as nothing. -/
def Children.pieces : Children → List ContentPiece
  | .last gap => gap.pieces
  | .element gap _ rest => gap.pieces ++ rest.pieces
  | .expression gap code rest => gap.pieces ++ code.values.map .expression ++ rest.pieces

/-- Whether one of the children is an element. -/
def Children.hasElement : Children → Bool
  | .last _ => false
  | .element _ _ _ => true
  | .expression _ _ rest => rest.hasElement

/-- Whether the children are only blanks. -/
def Children.isBlank : Children → Bool
  | .last gap => isBlankText gap.text
  | _ => false

/-- The call for a known tag, from its properties, its children and the values of its children. -/
def callFor (tag : Text) (kind : TagKind) (properties : Text) (children : Children)
    (values : Outcome (List Text)) : Outcome Text :=
  match kind with
  | .image => return constructorCall kind.constructor [properties]
  | .container => do
    return constructorCall kind.constructor [properties, childrenPart (childrenValue (← values))]
  | .text =>
    if children.hasElement then do
      Outcome.warn (.nestedMarkup tag)
      return constructorCall TagKind.container.constructor
        [properties, childrenPart (childrenValue (← values))]
    else
      return constructorCall kind.constructor
        ["text: ".toList ++ contentValue children.pieces, properties]
  | .pressable =>
    if children.hasElement then do
      return constructorCall kind.constructor [properties, childrenPart (childrenValue (← values))]
    else if children.isBlank then return constructorCall kind.constructor [properties]
    else
      let label :=
        constructorCall TagKind.text.constructor ["text: ".toList ++ contentValue children.pieces]
      return constructorCall kind.constructor [properties, childrenPart label]

/-- What becomes of an element, from its text, its tag and attributes, and its children with their
values. -/
def recastTag (written tag : Text) (attributes : List WrittenAttribute) (children : Children)
    (values : Outcome (List Text)) : Outcome Text :=
  match tagRule? tag with
  | none => do
    Outcome.warn (.unsupportedElement tag)
    return written
  | some rule => do
    Outcome.warn? rule.warning?
    let properties ← recastWritten attributes
    Outcome.note (.madeCall tag rule.kind.constructor)
    return annotated rule.comment? (← callFor tag rule.kind properties children values)

mutual

/-- What becomes of an element. -/
def Element.recast : Element → Outcome Text
  | .paired tag children =>
    recastTag (Element.paired tag children).print tag.name tag.attributes children children.recast
  | .selfClosing name attributes =>
    recastTag (Element.selfClosing name attributes).print name.text attributes
      (.last ⟨[], by simp⟩) (return [])

/-- The values of children in order. -/
def Children.recast : Children → Outcome (List Text)
  | .last gap => return gap.values
  | .element gap child rest => do
    let value ← child.recast
    let values ← rest.recast
    return gap.values ++ value :: values
  | .expression gap code rest => do
    let values ← rest.recast
    return gap.values ++ code.values ++ values

end

end Recast
