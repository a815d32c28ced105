import Recast.Component.ClassShape
import Recast.Component.Definition
import Recast.Markup.Recasting
import Recast.Scope.Qualify

/-!
# Functional components become classes

`convertFunctional` writes a functional component as a class: its state as fields with accessors,
its effects as comments in the `start` method, and the returned markup as the result of
`initializeUI`. Code keeps its order: the code before the last `return` comes first (`splitReturn`),
and references are qualified in both.
-/

namespace Recast

/-! ## Props -/

/-- The type arguments of a type that names a functional component type. -/
def functionTypeArguments? (type : Text) : Option Text := do
  let name := dropModule (trim type)
  let rest ← ["FC".toList, "FunctionComponent".toList, "VFC".toList].findSome? fun kind => do
    let rest ← dropHead? kind name
    dropHead? ['<'] (trimStart rest)
  if rest.getLast? = some '>' then some rest.dropLast else none

/-- The props type that a definition names itself. -/
def explicitPropsType? (definition : Definition) : Option Text :=
  match annotatedPropsType? definition.params with
  | some type => some type
  | none => do
    let arguments ← functionTypeArguments? (← definition.variableType?)
    (firstTypeArgument arguments).filter (!·.isEmpty)

/-- The props type of a definition, and its interface if it has to be written. -/
def propsType (definition : Definition) : Text × Option Text :=
  match explicitPropsType? definition with
  | some type => (type, none)
  | none => (propsTypeName definition.name, some (propsInterface definition.params definition.name))

/-- A prop read from the props object. -/
def propAccess : Recogniser Text := fun behind ahead => do
  if !startsUnqualified behind then none
  let rest := trimStart (← dropHead? "props".toList ahead)
  let rest ← dropHead? ['.'] ((dropHead? ['?'] rest).getD rest)
  let (name, rest) ← word? (trimStart rest)
  some (covers name ahead rest)

/-- The props of a component: those read from a plain parameter in the body, or those declared. -/
def propNames (params body : Text) : List Text :=
  let accessed := (occurrences propAccess body).map (·.value)
  if (parameterName? params).isSome && (propBindings params).isEmpty && !accessed.isEmpty then
    firstOccurrences accessed
  else declaredProps params

/-! ## The returned value -/

/-- The code before the last `return` at the top level, and what is returned. -/
def splitReturn (body : Text) : Except MarkupFault (Text × Option Text) :=
  match (topLevelMatches body returnWord 0).getLast? with
  | none => .ok (body, none)
  | some statement =>
    let before := body.take statement.start
    let start := body.length - (trimStart (body.drop statement.stop)).length
    let toSemicolon :=
      let stop := ((topLevelMatches body semicolon start).head?.map (·.start)).getD body.length
      (before, some (trim (slice body start stop)))
    match (body.drop start).head? with
    | some '(' =>
      .ok (match bracketEndAt? body start with
        | some stop => (before, some (trim (slice body (start + 1) (stop - 1))))
        | none => toSemicolon)
    | some '<' =>
      (elementEndAt body start).map fun
        | some stop => (before, some (slice body start stop))
        | none => toSemicolon
    | _ => .ok toSemicolon

/-- The returned value with its markup made calls. -/
def recastReturn (name : Text) (returned? : Option Text) : Outcome Text :=
  match returned? with
  | none => do
    Outcome.warn (.noReturn name)
    return "View(\x7b\x7d)".toList
  | some returned =>
    if returned.head? = some '<' then recastMarkup returned
    else do
      let value ← recastExpression returned
      if value = returned then Outcome.warn (.returnKept name)
      return value

/-! ## The class -/

/-- What the class of a component is made of. -/
structure ClassParts where
  name : Text
  isDefaultExport : Bool
  propsType : Text
  interface? : Option Text
  fields : List Text
  accessors : List Text
  /-- The code before the returned value. -/
  preamble : Text
  /-- The returned value. -/
  value : Text
  /-- The effects as comments. -/
  lifecycle : List Text

/-- The class as text. -/
def ClassParts.render (parts : ClassParts) : Text :=
  let export_ := if parts.isDefaultExport then "export default ".toList else "export ".toList
  unlines
    ((match parts.interface? with
        | some interface => [interface, []]
        | none => [])
      ++ [export_ ++ "class ".toList ++ parts.name ++ " extends UIComponent \x7b".toList,
        "  private props: ".toList ++ parts.propsType ++ ";".toList]
      ++ parts.fields.map (fun field => "  ".toList ++ field)
      ++ [[],
        "  constructor(props: ".toList ++ parts.propsType ++ ") \x7b".toList,
        "    super();".toList,
        "    this.props = props;".toList,
        "  \x7d".toList]
      ++ parts.accessors.flatMap (fun accessor => [] :: indent 2 accessor)
      ++ [[], "  initializeUI(): UINode \x7b".toList]
      ++ (if parts.preamble.isEmpty then [] else indent 4 parts.preamble ++ [[]])
      ++ ["    return ".toList ++ parts.value ++ ";".toList,
        "  \x7d".toList,
        [],
        "  prestart(): void \x7b".toList,
        "    // TODO: Setup logic before component starts".toList,
        "  \x7d".toList,
        [],
        "  start(): void \x7b".toList,
        "    // TODO: Move useEffect logic here".toList]
      ++ parts.lifecycle.flatMap (indent 4)
      ++ ["  \x7d".toList, "\x7d".toList])

/-- Whether a word occurs in a text. -/
def mentions (word : Text) : Text → Bool
  | [] => word.isEmpty
  | c :: cs => startsWith (c :: cs) word || mentions word cs

/-- The hooks of a body and what it returns; an element as a body has no hooks. -/
def openBody (options : Options) (concise : Bool) (body : Text) :
    Outcome (HookExtraction × List Text × Text × Option Text) :=
  if concise then return (⟨[], [], [], [], [], []⟩, [], [], some body)
  else do
    let extraction ← extractHooks options body
    let (preamble, returned?) ← Outcome.ofExcept (splitReturn extraction.body)
    return (extraction, describeEffects options body, preamble, returned?)

/-- A functional component as a class. -/
def convertFunctional (options : Options) (definition : Definition) : Outcome Text := do
  let name := definition.name
  Outcome.note (.startedFunctional name)
  Outcome.warn (.functionalComponent name)
  let body :=
    match parameterName? definition.params with
    | some parameter => renameParameter parameter "props".toList definition.body
    | none => definition.body
  let (type, interface?) := propsType definition
  let (extraction, effects, preamble, returned?) ← openBody options definition.concise body
  let value ← recastReturn name returned?
  let preamble ← recastEmbedded (codeBlock preamble)
  let names := extraction.state.map (·.name)
  let aliases := propAliases definition.params
  Outcome.note (.recorded
    { name
      props := propNames definition.params body
      state := extraction.state.map (·.describe)
      effects
      isClass := false })
  return ClassParts.render
    { name
      isDefaultExport := mentions "default".toList definition.exported
      propsType := type
      interface?
      fields := extraction.fields
      accessors := extraction.accessors
      preamble := qualify names aliases preamble
      value := qualify names aliases value
      lifecycle := extraction.lifecycle }

/-- The source with every functional component as a class. -/
def convertFunctionals (options : Options) (source : Text) : Outcome Text := do
  let definitions ← Outcome.ofExcept (findDefinitions source)
  let edits ← Outcome.collect (definitions.map fun definition => do
    let text ← convertFunctional options definition
    return (⟨⟨definition.start, definition.stop⟩, text⟩ : Edit))
  return replaceSpans source edits

end Recast
