import Recast.Component.Signature
import Recast.Text.Occurrence

/-!
# The shape of class components

What the header and body of a class say about its props and state: the first type argument
(`firstTypeArgument`), the prop names of an object type (`classProps`) and the entries of the
initial state (`classState`).
-/

namespace Recast

/-- The text before the first comma outside brackets, angle brackets included. -/
def firstArgumentFrom (depth : Int) : Text → Option Text
  | [] => none
  | c :: cs =>
    if isOpener c || c = '<' then (firstArgumentFrom (depth + 1) cs).map (c :: ·)
    else if isCloser c || c = '>' then (firstArgumentFrom (depth - 1) cs).map (c :: ·)
    else if c = ',' && depth = 0 then some []
    else (firstArgumentFrom depth cs).map (c :: ·)

/-- The first argument of a list of type arguments. -/
def firstTypeArgument (arguments : Text) : Option Text :=
  if arguments.isEmpty then none
  else some (trim ((firstArgumentFrom 0 arguments).getD arguments))

/-- A comma or a semicolon. -/
def isMemberSeparator (c : Char) : Bool :=
  c == ',' || c == ';'

/-- The key of a member of an object type. -/
def memberKey (member : Text) : Text :=
  dropEndWhile (· == '?') (trim ((cutAt? ':' member).map (·.1) |>.getD member))

/-- The props of a class: the keys of an object type, or one entry for a named type. -/
def classProps (propsType : Text) : List Text :=
  let propsType := trim propsType
  match propsType with
  | [] => []
  | c :: rest =>
    if c = '{' then
      let inner :=
        match bracketEndAt? propsType 0 with
        | some stop => slice propsType 1 (stop - 1)
        | none => rest
      firstOccurrences (((splitTopLevel isMemberSeparator inner).map memberKey).filter (!·.isEmpty))
    else ["Props (".toList ++ propsType ++ ")".toList]

/-- The start of an initial state, up to its opening brace: `state =` or `this.state =`. -/
def stateInit : Recogniser Unit := fun behind ahead => do
  if !startsUnqualified behind then none
  let rest := (dropHead? "this.".toList ahead).getD ahead
  let rest ← dropHead? "state".toList rest
  let rest ← dropHead? ['='] (trimStart rest)
  let rest := trimStart rest
  if rest.head? = some '{' then some (covers () ahead rest) else none

/-- One entry of an initial state with the type of its value. -/
def stateEntry (entry : Text) : Text :=
  match cutAt? ':' entry with
  | some (name, value) => trim name ++ " (".toList ++ (literalType value).text ++ ")".toList
  | none => entry ++ " (any)".toList

/-- The entries of every initial state in a class body. -/
def classState (body : Text) : List Text :=
  (occurrences stateInit body).flatMap fun found =>
    match bracketEndAt? body found.stop with
    | some stop => (splitTopLevel isComma (slice body (found.stop + 1) (stop - 1))).map stateEntry
    | none => []

end Recast
