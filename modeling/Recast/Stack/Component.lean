import Recast.Stack.Recasting

/-!
# Components on a limited stack

The conversion of components with room for `limit` calls that call each other. The functions that
lead to these calls do not call each other and are not counted.
-/

namespace Recast

open Attempt

/-! ## Hooks -/

/-- Replaces the calls of the other hooks, given from the last to the first. -/
def replaceHooksWithin (limit : Nat) : List (Occurrence OtherHook) → Text → Attempt Text
  | [], body => return body
  | found :: rest, body => do
    match ← ask limit (argumentScans body (found.stop - 1))
        fun _ => .ok (callArguments? body (found.stop - 1)) with
    | none => replaceHooksWithin limit rest body
    | some (arguments, stop) => do
      let preceding := body.take found.start
      match ← ofOutcome (replaceHook found.value arguments preceding) with
      | none => replaceHooksWithin limit rest body
      | some code => replaceHooksWithin limit rest (preceding ++ code ++ body.drop stop)

/-- Takes the hooks out of the body of a component. -/
def extractHooksWithin (limit : Nat) (options : Options) (body : Text) :
    Attempt HookExtraction := do
  let style := options.stateStyle
  let states ← ask limit (stateScans body) fun _ => .ok (findState body)
  let _ ← ofOutcome (Outcome.collect (states.map fun (state, _) => do
    Outcome.warn (.stateField style state.name state.type state.setter)
    Outcome.note (.extractedState state.describe)))
  let effects ← ask limit (effectScans body) fun _ => .ok (findEffects body)
  let _ ← ofOutcome (Outcome.collect (effects.map fun _ => Outcome.warn .effect))
  let rest := removeSpans body (states.map (·.2) ++ effects.map (·.2))
  let replaced ← replaceHooksWithin limit (occurrences otherHookOpening rest).reverse rest
  return {
    fields := states.map fun (state, _) => stateField style state
    accessors := states.map fun (state, _) => stateAccessor style state
    body := replaced
    state := states.map (·.1)
    effects := effects.map (·.1)
    lifecycle := effects.map fun (effect, _) => effectComment effect }

/-! ## Functional components -/

/-- The returned value with its markup made calls. -/
def recastReturnWithin (limit : Nat) (name : Text) (returned? : Option Text) : Attempt Text :=
  match returned? with
  | none => ofOutcome (recastReturn name none)
  | some returned =>
    if returned.head? = some '<' then recastMarkupWithin limit returned
    else do
      let value ← recastExpressionWithin limit returned
      if value = returned then ofOutcome (Outcome.warn (.returnKept name))
      return value

/-- The hooks of a body and what it returns. -/
def openBodyWithin (limit : Nat) (options : Options) (concise : Bool) (body : Text) :
    Attempt (HookExtraction × List Text × Text × Option Text) :=
  if concise then return (⟨[], [], [], [], [], []⟩, [], [], some body)
  else do
    let effects ← ask limit (effectScans body) fun _ => .ok (describeEffects options body)
    let extraction ← extractHooksWithin limit options body
    let (preamble, returned?) ← ask limit (returnScans extraction.body)
      fun _ => splitReturn extraction.body
    return (extraction, effects, preamble, returned?)

/-- The names that are replaced in a body, each of which is looked up. -/
def replacedNames (refs : References) (body : Text) : List Text :=
  (occurrences (nameAmong (longestFirst (refs.map (·.1)))) (mask body)).map (·.value.name)

/-- Qualifies the references of a body. -/
def qualifyWithin (limit : Nat) (state : List Text) (props : List (Text × Text)) (body : Text) :
    Attempt Text := do
  ask limit (qualifyScans body) fun _ => .ok ()
  lookUp (replacedNames (references state props) body) (references state props)
  return qualify state props body

/-- Renames the props parameter in a body. -/
def renamePropsWithin (limit : Nat) (params body : Text) : Attempt Text :=
  match parameterName? params with
  | none => return body
  | some parameter =>
    ask limit (if parameter = "props".toList then [] else qualifyScans body)
      fun _ => .ok (renameParameter parameter "props".toList body)

/-- A functional component as a class. -/
def convertFunctionalWithin (limit : Nat) (options : Options) (definition : Definition) :
    Attempt Text := do
  let name := definition.name
  ofOutcome (Outcome.note (.startedFunctional name))
  ofOutcome (Outcome.warn (.functionalComponent name))
  let body ← renamePropsWithin limit definition.params definition.body
  ask limit (bindingScans definition.params) fun _ => .ok ()
  let (type, interface?) := propsType definition
  let (extraction, effects, preamble, returned?) ←
    openBodyWithin limit options definition.concise body
  let value ← recastReturnWithin limit name returned?
  let preamble ← recastEmbeddedWithin limit (codeBlock preamble)
  let names := extraction.state.map (·.name)
  let aliases := propAliases definition.params
  let preamble ← qualifyWithin limit names aliases preamble
  let value ← qualifyWithin limit names aliases value
  ofOutcome (Outcome.note (.recorded
    { name
      props := propNames definition.params body
      state := extraction.state.map (·.describe)
      effects
      isClass := false }))
  return ClassParts.render
    { name
      isDefaultExport := mentions "default".toList definition.exported
      propsType := type
      interface?
      fields := extraction.fields
      accessors := extraction.accessors
      preamble
      value
      lifecycle := extraction.lifecycle }

/-- The source with every functional component as a class. -/
def convertFunctionalsWithin (limit : Nat) (options : Options) (source : Text) :
    Attempt Text := do
  let definitions ← ask limit (definitionScans source) fun _ => findDefinitions source
  let edits ← collect (definitions.map fun definition => do
    let text ← convertFunctionalWithin limit options definition
    return (⟨⟨definition.start, definition.stop⟩, text⟩ : Edit))
  return replaceSpans source edits

/-! ## Class components -/

/-- A class component with its new base class. -/
def convertClassWithin (limit : Nat) (options : Options) (head : DefinitionHead)
    (arguments body : Text) : Attempt Text := do
  let name := head.name
  ofOutcome (Outcome.note (.startedClass name))
  ofOutcome (Outcome.warn (.classComponent name))
  let methods := (occurrences lifecycleMethod body).map (·.value)
  let _ ← ofOutcome (Outcome.collect (methods.map fun (method, target) =>
    Outcome.warn (.lifecycleMethod method name target)))
  ask limit (classScans arguments body) fun _ => .ok ()
  ofOutcome (Outcome.note (.recorded
    { name
      props := ((firstTypeArgument arguments).map classProps).getD []
      state := classState body
      effects := methods.map
          (fun (method, target) => method ++ " (move to ".toList ++ target ++ ")".toList)
        ++ describeEffects options body
      isClass := true }))
  ofOutcome (Outcome.warn (.renderKept name))
  return head.exported ++ "class ".toList ++ name ++ " extends UIComponent \x7b".toList
    ++ renameRender body ++ "\x7d".toList

/-- The edits of the class components among the heads. -/
def classEditsWithin (limit : Nat) (options : Options) (source : Text) :
    Nat → List (Occurrence DefinitionHead) → Attempt (List Edit)
  | _, [] => return []
  | last, head :: heads =>
    if head.start < last then classEditsWithin limit options source last heads
    else do
      match ← ask limit (classBodyScans source head.stop)
          fun _ => .ok (classBody? source head.stop) with
      | none => classEditsWithin limit options source last heads
      | some (arguments, body) => do
        let text ← convertClassWithin limit options head.value arguments
          (slice source (body.start + 1) (body.stop - 1))
        let edits ← classEditsWithin limit options source body.stop heads
        return ⟨⟨head.start, body.stop⟩, text⟩ :: edits

/-- The source with every class component converted. -/
def convertClassesWithin (limit : Nat) (options : Options) (source : Text) : Attempt Text := do
  let edits ← classEditsWithin limit options source 0 (occurrences classHead source)
  return replaceSpans source edits

/-- The source with all components converted. -/
def convertComponentsWithin (limit : Nat) (options : Options) (source : Text) :
    Attempt Text := do
  let functionals ← convertFunctionalsWithin limit options source
  convertClassesWithin limit options functionals

end Recast
