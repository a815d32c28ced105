import Recast.Scope.Binding
import Recast.Scope.Mask

/-!
# Qualified references

`qualify` turns the references to props, state variables and state setters in a body into accesses
of the instance. Only code is looked at (`mask`), names that are bound locally stay (`isBound`), and
so do member names, object keys and the names of declarations. `renameParameter` renames the root of
member accesses under the same rules.
-/

namespace Recast

/-- An occurrence of a name in code, with what stands around it; the text before is read
backwards. -/
structure Mention where
  name : Text
  behind : Text
  ahead : Text

/-- Whether the name is a member after a dot; three dots are a spread. -/
def Mention.isMember (mention : Mention) : Bool :=
  mention.behind.head? = some '.' && !startsWith mention.behind "...".toList

/-- The keywords whose next name is being declared. -/
def declaringKeywords : List Text :=
  ["const".toList, "let".toList, "var".toList, "function".toList, "class".toList]

/-- Whether the name is being declared. -/
def Mention.isDeclared (mention : Mention) : Bool :=
  mention.behind.head?.any isBlank
    && declaringKeywords.any fun keyword =>
      match dropHead? keyword.reverse (trimStart mention.behind) with
      | some before => !(before.head?.any isWordChar)
      | none => false

/-- Whether the name stands first in an entry of a list or object. -/
def Mention.startsEntry (mention : Mention) : Bool :=
  match (trimStart mention.behind).head? with
  | some c => c == '{' || c == ','
  | none => false

/-- Whether the name is the key of an entry. -/
def Mention.isKey (mention : Mention) : Bool :=
  mention.startsEntry && (trimStart mention.ahead).head? = some ':'

/-- The bracket that is open at the end of a text, which is read backwards. -/
def openBracket? (depth : Nat) : Text → Option Char
  | [] => none
  | c :: before =>
    if isCloser c then openBracket? (depth + 1) before
    else if isOpener c then
      if depth = 0 then some c else openBracket? (depth - 1) before
    else openBracket? depth before

/-- Whether the name is an object entry that stands for its own key. -/
def Mention.isShorthand (mention : Mention) : Bool :=
  mention.startsEntry
    && (match (trimStart mention.ahead).head? with
      | some c => c == '}' || c == ','
      | none => false)
    && openBracket? 0 mention.behind = some '{'

/-! ## Recognisers -/

/-- The first of the names that stands here in full. -/
def nameAmong (names : List Text) : Recogniser Mention := fun behind ahead =>
  if startsFree behind then
    names.findSome? fun name => do
      let rest ← dropHead? name ahead
      if rest.head?.any isNameChar then none else some (⟨name, behind, rest⟩, name.length)
  else none

/-- The props object before a dot; the dot belongs to it. -/
def propsRoot : Recogniser Mention := fun behind ahead => do
  if !startsFree behind then none
  let rest ← dropHead? "props.".toList ahead
  some (covers ⟨"props".toList, behind, rest⟩ ahead rest)

/-- The name of a setter before a call. -/
def setterCall : Recogniser Mention := fun behind ahead => do
  if !startsFree behind then none
  let rest ← dropHead? "set".toList ahead
  if !rest.head?.any isCapital then none
  let after := rest.dropWhile isNameChar
  if (trimStart after).head? = some '(' then
    some (covers ⟨ahead.takeWhile isNameChar, behind, after⟩ ahead after)
  else none

/-- A name that is the root of a member access. -/
def memberRoot (name : Text) : Recogniser Mention := fun behind ahead => do
  if !startsFree behind then none
  let rest ← dropHead? name ahead
  let next := trimStart rest
  if ((dropHead? ['?'] next).getD next).head? =
    some '.' then some (⟨name, behind, rest⟩, name.length)
  else none

/-! ## Edits -/

/-- The global functions that look like setters. -/
def globalSetters : List Text :=
  ["setTimeout".toList, "setInterval".toList, "setImmediate".toList]

/-- What a body refers to: for each name the code that replaces it. -/
abbrev References := List (Text × Text)

/-- The references to state variables and to props under their local names; a state variable
wins. -/
def references (state : List Text) (props : List (Text × Text)) : References :=
  state.map (fun name => (name, "this.".toList ++ name))
    ++ props.map fun (localName, key) => (localName, "this.props.".toList ++ key)

/-- The names longest first. -/
def longestFirst (names : List Text) : List Text :=
  names.mergeSort fun a b => decide (b.length ≤ a.length)

/-- The edits of `props.` in code. -/
def propsEdits (code : Text) (scopes : List BindingScope) : List Edit :=
  (occurrences propsRoot code).filterMap fun found =>
    if found.value.isMember || isBound scopes found.value.name found.start then none
    else some ⟨⟨found.start, found.stop⟩, "this.props.".toList⟩

/-- The edits of referenced names in code. -/
def nameEdits (refs : References) (code : Text) (scopes : List BindingScope) : List Edit :=
  if refs.isEmpty then []
  else
    (occurrences (nameAmong (longestFirst (refs.map (·.1)))) code).filterMap fun found =>
      let mention := found.value
      if mention.isMember || mention.isDeclared || mention.isKey
          || isBound scopes mention.name found.start then none
      else
        let access := (refs.lookup mention.name).getD []
        some ⟨⟨found.start, found.stop⟩,
          if mention.isShorthand then mention.name ++ ": ".toList ++ access else access⟩

/-- The edits of setter calls in code. -/
def setterEdits (code : Text) (scopes : List BindingScope) : List Edit :=
  (occurrences setterCall code).filterMap fun found =>
    let mention := found.value
    if globalSetters.contains mention.name || mention.isMember || mention.isDeclared
        || isBound scopes mention.name found.start then none
    else some ⟨⟨found.start, found.stop⟩, "this.".toList ++ mention.name⟩

/-- The edits that qualify a body. -/
def qualifyEdits (state : List Text) (props : List (Text × Text)) (body : Text) : List Edit :=
  let code := mask body
  let scopes := bindingScopes code
  propsEdits code scopes ++ nameEdits (references state props) code scopes ++
    setterEdits code scopes

/-- The body with its references to props, state and setters made accesses of the instance. -/
def qualify (state : List Text) (props : List (Text × Text)) (body : Text) : Text :=
  applyEdits body (qualifyEdits state props body)

/-- The body with the root of member accesses renamed. -/
def renameParameter (old new body : Text) : Text :=
  if old = new then body
  else
    let code := mask body
    let scopes := bindingScopes code
    applyEdits body ((occurrences (memberRoot old) code).filterMap fun found =>
      if found.value.isMember || isBound scopes old found.start then none
      else some ⟨⟨found.start, found.stop⟩, new⟩)

end Recast
