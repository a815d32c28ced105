import Recast.Journal.Outcome
import Recast.Markup.Attribute
import Recast.Markup.Style

/-!
# Properties of a call

`recastAttributes` writes the attributes of a tag as the properties of a constructor call. Their
order is fixed: class placeholders, the style, the press handler, then the rest as written. A class
and a key are worth a warning.
-/

namespace Recast

/-- What becomes of an attribute with a known name. -/
inductive AttributeRule where
  /-- A placeholder comment takes its place. -/
  | placeholder
  /-- It is the style of the call. -/
  | style
  /-- It handles a press. -/
  | press
  /-- It goes on under another name. -/
  | rename (target : Text)
  /-- It is left out. -/
  | drop
  deriving DecidableEq, Repr

/-- The attributes with a rule of their own. -/
def attributeRules : List (Text × AttributeRule) :=
  [("className".toList, .placeholder),
   ("class".toList, .placeholder),
   ("style".toList, .style),
   ("onClick".toList, .press),
   ("onMouseEnter".toList, .rename "onEnter".toList),
   ("onMouseLeave".toList, .rename "onExit".toList),
   ("src".toList, .rename "source".toList),
   ("alt".toList, .rename "accessibilityLabel".toList),
   ("key".toList, .drop)]

/-- The rule for an attribute name. -/
def attributeRule? (name : Text) : Option AttributeRule :=
  attributeRules.lookup name

/-- The places of a property list in order. -/
inductive Slot where
  | placeholder
  | style
  | press
  | rest
  deriving DecidableEq, Repr

/-- A property and its place. -/
structure Property where
  slot : Slot
  text : Text
  deriving DecidableEq, Repr

/-- A property with a key. -/
def keyed (slot : Slot) (key value : Text) : List Property :=
  [⟨slot, key ++ ": ".toList ++ value⟩]

/-- The comment that stands for a class attribute. -/
def classPlaceholder (value : Text) : Text :=
  "/* TODO: Convert className \"".toList ++ value ++ "\" to Horizon style */".toList

/-- The value of a style attribute: a style object for a string. -/
def styleValue : Attribute → Text
  | .string _ css => styleObject css
  | given => given.code

/-- The property of an attribute with a name. -/
def recastNamed (name : Text) (given : Attribute) : Outcome (List Property) :=
  match attributeRule? name with
  | none => return keyed .rest name given.code
  | some .placeholder => do
    Outcome.warn (.classAttribute given.value)
    return [⟨.placeholder, classPlaceholder given.value⟩]
  | some .style => return keyed .style "style".toList (styleValue given)
  | some .press => return keyed .press "onPress".toList given.code
  | some (.rename target) => return keyed .rest target given.code
  | some .drop => do
    Outcome.warn (.keyAttribute given.value)
    Outcome.note (.droppedAttribute name)
    return []

/-- The property of an attribute, if it has one. -/
def recastAttribute (given : Attribute) : Outcome (List Property) :=
  match given with
  | .spread value => return [⟨.rest, "...".toList ++ value⟩]
  | .string name _ => recastNamed name given
  | .expression name _ => recastNamed name given
  | .boolean name => recastNamed name given

/-- The texts of the properties in one place. -/
def inSlot (slot : Slot) (properties : List Property) : List Text :=
  (properties.filter (·.slot = slot)).map (·.text)

/-- The property list in its order. -/
def propertyList (properties : List Property) : Text :=
  joinComma (inSlot .placeholder properties ++ inSlot .style properties ++ inSlot .press properties
    ++ inSlot .rest properties)

/-- The attributes of a tag as a property list. -/
def recastAttributes (t : Text) : Outcome Text := do
  let properties ← Outcome.collect ((readAttributes t).map recastAttribute)
  return propertyList properties.flatten

end Recast
