import Recast.Component.ClassShape
import Recast.Component.Definition

/-!
# Class components

A class component gets a new base class, and its render method a new name; the markup in it stays as
written, and a warning says so. `convertClasses` does this for every class component of a source.
-/

namespace Recast

/-- The head of a class component: the export keywords and the name. -/
def classHead : Recogniser DefinitionHead := fun behind ahead => do
  if !startsLine behind then none
  let declared := afterExport ahead
  let (name, rest) ← capitalName? (← afterWord? "class".toList declared)
  let base ← afterWord? "extends".toList (← afterBlanks? rest)
  let base := dropModule base
  let rest ← dropHead? "Component".toList ((dropHead? "Pure".toList base).getD base)
  if wordEnds rest then some (covers ⟨textBefore ahead declared, name, none⟩ ahead rest) else none

/-- The offset past the `>` that closes the type arguments from `pos` on; brackets are passed
over. -/
def angleEndFrom (depth : Int) (pos resume : Nat) : Text → Option Nat
  | [] => none
  | c :: cs =>
    if pos < resume then angleEndFrom depth (pos + 1) resume cs
    else
      match Bracket.ofOpener? c with
      | some kind =>
        match bracketEnd kind 0 [c] (pos + 1) 0 cs with
        | some stop => angleEndFrom depth (pos + 1) stop cs
        | none => none
      | none =>
        if c = '<' then angleEndFrom (depth + 1) (pos + 1) resume cs
        else if c = '>' then
          if depth = 1 then some (pos + 1) else angleEndFrom (depth - 1) (pos + 1) resume cs
        else angleEndFrom depth (pos + 1) resume cs

/-- The offset of the first character from `pos` on that is not blank. -/
def afterBlanks (t : Text) (pos : Nat) : Nat :=
  t.length - (trimStart (t.drop pos)).length

/-- The type arguments after the base class, and the span of the body with its braces. -/
def classBody? (source : Text) (pos : Nat) : Option (Text × Span) := do
  let start := afterBlanks source pos
  let (arguments, brace) ←
    if (source.drop start).head? = some '<' then
      (angleEndFrom 0 start 0 (source.drop start)).map fun stop =>
        (slice source (start + 1) (stop - 1), afterBlanks source stop)
    else some ([], start)
  if (source.drop brace).head? = some '{' then
    (bracketEndAt? source brace).map fun stop => (arguments, ⟨brace, stop⟩)
  else none

/-- The lifecycle methods and the methods that take their place. -/
def lifecycleMethods : List (Text × Text) :=
  [("componentDidMount".toList, "start".toList),
   ("componentDidUpdate".toList, "start".toList),
   ("componentWillUnmount".toList, "dispose".toList),
   ("shouldComponentUpdate".toList, "start".toList)]

/-- The head of a lifecycle method, with the method that takes its place. -/
def lifecycleMethod : Recogniser (Text × Text) := fun behind ahead => do
  if !startsLine behind then none
  let method := ahead.dropWhile isIndent
  let method := (afterWord? "async".toList method).getD method
  lifecycleMethods.findSome? fun (name, target) => do
    let rest ← dropHead? name method
    let rest ← dropHead? ['('] (trimStart rest)
    some (covers (name, target) ahead rest)

/-- The head of a render method up to its brace, with its indentation. -/
def renderHead : Recogniser Text := fun behind ahead => do
  if !startsLine behind then none
  let rest ← dropHead? "render".toList (ahead.dropWhile isIndent)
  let rest ← dropHead? ['('] (trimStart rest)
  let rest ← dropHead? [')'] (trimStart rest)
  let rest ← fromBrace? rest
  some (covers (ahead.takeWhile isIndent) ahead (rest.drop 1))

/-- A class body with its first render method renamed. -/
def renameRender (body : Text) : Text :=
  replaceSpans body (((occurrences renderHead body).take 1).map fun found =>
    ⟨⟨found.start, found.stop⟩, found.value ++ "initializeUI(): UINode \x7b".toList⟩)

/-- A class component with its new base class. -/
def convertClass (options : Options) (head : DefinitionHead) (arguments body : Text) :
    Outcome Text := do
  let name := head.name
  Outcome.note (.startedClass name)
  Outcome.warn (.classComponent name)
  let methods := (occurrences lifecycleMethod body).map (·.value)
  let _ ← Outcome.collect (methods.map fun (method, target) =>
    Outcome.warn (.lifecycleMethod method name target))
  Outcome.note (.recorded
    { name
      props := ((firstTypeArgument arguments).map classProps).getD []
      state := classState body
      effects :=
        methods.map (fun (method, target) => method ++ " (move to ".toList ++ target ++ ")".toList)
        ++ describeEffects options body
      isClass := true })
  Outcome.warn (.renderKept name)
  return head.exported ++ "class ".toList ++ name ++ " extends UIComponent \x7b".toList
    ++ renameRender body ++ "\x7d".toList

/-- The class components among the heads, with their spans; one that starts inside an earlier one
does not count. -/
def classesFrom (source : Text) : Nat → List (Occurrence DefinitionHead) →
    List (Occurrence DefinitionHead × Text × Span)
  | _, [] => []
  | last, head :: rest =>
    if head.start < last then classesFrom source last rest
    else
      match classBody? source head.stop with
      | some (arguments, body) => (head, arguments, body) :: classesFrom source body.stop rest
      | none => classesFrom source last rest

/-- The source with every class component converted. -/
def convertClasses (options : Options) (source : Text) : Outcome Text := do
  let edits ← Outcome.collect
    ((classesFrom source 0 (occurrences classHead source)).map fun (head, arguments, body) => do
      let text ← convertClass options head.value arguments
          (slice source (body.start + 1) (body.stop - 1))
      return (⟨⟨head.start, body.stop⟩, text⟩ : Edit))
  return replaceSpans source edits

end Recast
