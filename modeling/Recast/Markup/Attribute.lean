import Recast.Scan.Extent
import Recast.Text.Quoted

/-!
# Attributes as written

`readAttributes` reads the text between a tag's name and its end: string, brace and bare attributes
and spreads. It never fails; what it cannot read it passes over, and an open brace ends the list.
-/

namespace Recast

/-- An attribute of a tag. -/
inductive Attribute where
  | string (name value : Text)
  | expression (name value : Text)
  | boolean (name : Text)
  | spread (value : Text)
  deriving DecidableEq, Repr

/-- The value as written, without its quotes or braces. -/
def Attribute.value : Attribute → Text
  | .string _ value => value
  | .expression _ value => value
  | .boolean _ => "true".toList
  | .spread value => value

/-- The value in code. -/
def Attribute.code : Attribute → Text
  | .string _ value => quote value
  | given => given.value

/-- Whether a character belongs to an attribute value without quotes. -/
def isBareValueChar (c : Char) : Bool :=
  !isBlank c && c != '/' && c != '>'

/-- The attribute `name` whose value starts at `pos` with the text `t`, and the offset where reading
goes on. -/
def valuedAttribute (name : Text) (pos : Nat) : Text → Attribute × Nat
  | [] => (.string name [], pos)
  | c :: cs =>
    if c = '"' || c = '\'' then
      let stop := literalEnd c (pos + 1) 0 cs
      (.string name (cs.take (stop - 1 - (pos + 1))), stop)
    else if c = '{' then
      match bracketEnd .curly 0 ['{'] (pos + 1) 0 cs with
      | some stop => (.expression name (trim (cs.take (stop - 1 - (pos + 1)))), stop)
      | none => (.expression name (trim cs), pos + 1 + cs.length)
    else
      let value := (c :: cs).takeWhile isBareValueChar
      (.string name value, pos + value.length)

/-- The attribute `name` when the text `t` at `pos` follows the name, and the offset where reading
goes on. -/
def namedAttribute (name : Text) (pos : Nat) (t : Text) : Attribute × Nat :=
  match trimStart t with
  | '=' :: rest => valuedAttribute name (pos + t.length - (trimStart rest).length) (trimStart rest)
  | rest => (.boolean name, pos + t.length - rest.length)

/-- The spread in a brace at the place of an attribute, if it is one. -/
def spreadIn (inner : Text) : List Attribute :=
  match dropHead? "...".toList (trim inner) with
  | some value => [.spread (trim value)]
  | none => []

/-- The attributes from `pos` on. -/
def attributesFrom (pos resume : Nat) : Text → List Attribute
  | [] => []
  | c :: cs =>
    if pos < resume then attributesFrom (pos + 1) resume cs
    else if c = '{' then
      match bracketEnd .curly 0 ['{'] (pos + 1) 0 cs with
      | some stop => spreadIn (cs.take (stop - 1 - (pos + 1))) ++ attributesFrom (pos + 1) stop cs
      | none => []
    else if isNameStart c then
      let name := tagName (c :: cs)
      let (given, stop) := namedAttribute name (pos + name.length) ((c :: cs).drop name.length)
      given :: attributesFrom (pos + 1) stop cs
    else attributesFrom (pos + 1) resume cs

/-- The attributes of a tag in order. -/
def readAttributes (t : Text) : List Attribute :=
  attributesFrom 0 0 t

end Recast
