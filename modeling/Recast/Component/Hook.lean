import Recast.Component.Signature
import Recast.Journal.Outcome
import Recast.Text.Edit
import Recast.Text.Lines
import Recast.Text.Occurrence

/-!
# Hooks

The hooks of a functional component become members of a class. `extractHooks` takes the state
variables and the effects out of a body: a state variable becomes a field with an accessor, an
effect is commented out for a later place, and the calls of the other hooks are replaced where they
stand.
-/

namespace Recast

/-! ## What is found -/

/-- A state variable of a component. -/
structure StateVariable where
  name : Text
  setter : Text
  /-- The type, given or read off the initial value. -/
  type : Text
  initial : Text
  deriving DecidableEq, Repr

/-- The variable with its type in brackets. -/
def StateVariable.describe (state : StateVariable) : Text :=
  state.name ++ " (".toList ++ state.type ++ ")".toList

/-- An effect of a component. -/
structure EffectBlock where
  body : Text
  /-- The text of the dependency list, if there is one. -/
  dependencies? : Option Text
  deriving DecidableEq, Repr

/-- When the effect runs. -/
def EffectBlock.label (effect : EffectBlock) : Text :=
  match effect.dependencies? with
  | none => "every render".toList
  | some dependencies =>
    if isBlankText dependencies then "no deps".toList else trim dependencies

/-! ## Calls in code -/

/-- A keyword that declares a variable, with the blanks after it; the rest of the text is given. -/
def declarationKeyword? (t : Text) : Option Text := do
  let rest ← dropHead? "const".toList t <|> dropHead? "let".toList t <|> dropHead? "var".toList t
  if rest.head?.any isBlank then some (trimStart rest) else none

/-- A name at the start of a text, which may begin with a digit, and the rest. -/
def word? (t : Text) : Option (Text × Text) :=
  let name := t.takeWhile isNameChar
  if name.isEmpty then none else some (name, t.dropWhile isNameChar)

/-- A type argument that ends at the first `>` before an opening bracket, and the text after the
bracket. -/
def typeArgument? : Text → Option (Text × Text)
  | [] => none
  | c :: cs =>
    if c = '(' || c = ')' || c = '=' then none
    else
      match (if c = '>' then dropHead? ['('] (trimStart cs) else none) with
      | some rest => some ([], rest)
      | none => (typeArgument? cs).map fun (argument, rest) => (c :: argument, rest)

/-- The opening bracket of a call, with an optional type argument before it, and the text after the
bracket. -/
def callOpening? (t : Text) : Option (Option Text × Text) :=
  match trimStart t with
  | '<' :: rest => (typeArgument? rest).map fun (argument, after) => (some argument, after)
  | rest => (dropHead? ['('] rest).map fun after => (none, after)

/-- The text without a leading module name. -/
def dropModule (t : Text) : Text :=
  (dropHead? "React.".toList t).getD t

/-- The opening of a state declaration: the variable, its setter and the type argument. -/
def stateOpening : Recogniser (Text × Text × Option Text) := fun _ ahead => do
  let rest ← declarationKeyword? ahead
  let rest ← dropHead? ['['] rest
  let (name, rest) ← word? (trimStart rest)
  let rest ← dropHead? [','] (trimStart rest)
  let (setter, rest) ← word? (trimStart rest)
  let rest ← dropHead? [']'] (trimStart rest)
  let rest ← dropHead? ['='] (trimStart rest)
  let rest ← dropHead? "useState".toList (dropModule (trimStart rest))
  let (argument?, rest) ← callOpening? rest
  some (covers (name, setter, argument?) ahead rest)

/-- The opening of an effect. -/
def effectOpening : Recogniser Unit := fun behind ahead => do
  if !startsUnqualified behind then none
  let rest ← dropHead? "use".toList (dropModule ahead)
  let rest ← dropHead? "Effect".toList ((dropHead? "Layout".toList rest).getD rest)
  let rest ← dropHead? ['('] (trimStart rest)
  some (covers () ahead rest)

/-- The opening of a call of one of the other hooks. -/
def otherHookOpening : Recogniser OtherHook := fun behind ahead => do
  if !startsUnqualified behind then none
  let call := dropModule ahead
  let (hook, rest) ← [OtherHook.callback, .memo, .ref].findSome? fun hook =>
    (dropHead? hook.name call).map fun rest => (hook, rest)
  let (_, rest) ← callOpening? rest
  some (covers hook ahead rest)

/-- The text after the arrow of a callback without parameters. -/
def effectCallback? (t : Text) : Option Text := do
  let rest := match dropHead? "async".toList t with
    | some rest => trimStart rest
    | none => t
  let rest ← dropHead? ['('] rest
  let rest ← dropHead? [')'] (trimStart rest)
  let rest ← dropHead? "=>".toList (trimStart rest)
  some (trimStart rest)

/-- The arguments of the call whose bracket opens at `opening`, and the offset past the call. -/
def callArguments? (t : Text) (opening : Nat) : Option (List Text × Nat) :=
  (bracketEndAt? t opening).map fun stop =>
    (splitTopLevel isComma (slice t (opening + 1) (stop - 1)), stop)

/-- The text of a dependency list, the second argument of a call. -/
def dependencyList? : List Text → Option Text
  | _ :: second :: _ =>
    if second.head? = some '[' then some (trim (second.drop 1).dropLast) else none
  | _ => none

/-! ## Statements -/

/-- The offset before the indentation that comes before `start`. -/
def lineStart (t : Text) (start : Nat) : Nat :=
  start - ((t.take start).reverse.takeWhile isIndent).length

/-- The offset past a statement whose call ends at `stop`: its semicolon and the rest of a blank
line go with it. -/
def statementEnd (t : Text) (stop : Nat) : Nat :=
  let rest := (t.drop stop).dropWhile isIndent
  let rest := ((dropHead? [';'] rest).getD rest).dropWhile isIndent
  let rest := (dropHead? ['\n'] rest).getD rest
  t.length - rest.length

/-- The state variables of a body with the spans of their statements. -/
def findState (body : Text) : List (StateVariable × Span) :=
  (occurrences stateOpening body).filterMap fun found =>
    (bracketEndAt? body (found.stop - 1)).map fun stop =>
      let (name, setter, argument?) := found.value
      let written := trim (slice body found.stop (stop - 1))
      let initial := if written.isEmpty then "null".toList else written
      let type :=
        match argument? with
        | none => (literalType initial).text
        | some argument => if argument.isEmpty then (literalType initial).text else trim argument
      (⟨name, setter, type, initial⟩, ⟨lineStart body found.start, statementEnd body stop⟩)

/-- The body of an effect's callback. -/
def callbackBody? (callback : Text) : Option Text := do
  let rest := trim (← effectCallback? callback)
  if rest.head? = some '{' then
    let stop ← bracketEndAt? rest 0
    some (codeBlock (slice rest 1 (stop - 1)))
  else some rest

/-- The effects of a body with the spans of their statements. -/
def findEffects (body : Text) : List (EffectBlock × Span) :=
  (occurrences effectOpening body).filterMap fun found => do
    let (arguments, stop) ← callArguments? body (found.stop - 1)
    let callback ← arguments.head?
    let effectBody ← callbackBody? callback
    some (⟨effectBody, dependencyList? arguments⟩,
      ⟨lineStart body found.start, statementEnd body stop⟩)

/-- The start of a text that a length cuts off; a negative length counts from the end. -/
def takeSigned (n : Int) (t : Text) : Text :=
  if 0 ≤ n then t.take n.toNat else t.take (t.length - (-n).toNat)

/-- One line for each effect of a body. -/
def describeEffects (options : Options) (body : Text) : List Text :=
  (findEffects body).map fun (effect, _) =>
    "Effect [".toList ++ effect.label ++ "]: ".toList
      ++ takeSigned options.effectSummaryLength ((lines (trim effect.body)).headD []) ++
        "...".toList

/-! ## What replaces them -/

/-- The class field of a state variable. -/
def stateField (style : StateStyle) (state : StateVariable) : Text :=
  "private ".toList ++ state.name ++ ": ".toList
    ++ match style with
      | .binding =>
        "Binding<".toList ++ state.type ++ "> = new Binding(".toList ++ state.initial ++ ");".toList
      | .field => state.type ++ " = ".toList ++ state.initial ++ ";".toList

/-- The accessor of a state variable. -/
def stateAccessor (style : StateStyle) (state : StateVariable) : Text :=
  let mutation :=
    match style with
    | .binding => "this.".toList ++ state.name ++ ".set(newValue);".toList
    | .field => "this.".toList ++ state.name ++ " = newValue;".toList
  "private ".toList ++ state.setter ++ " = (newValue: ".toList ++ state.type ++
    ") => \x7b\n  ".toList
    ++ mutation ++ "\n\x7d;".toList

/-- An effect as comments. -/
def effectComment (effect : EffectBlock) : Text :=
  let dependencies :=
    match effect.dependencies? with
    | none => "none (ran after every render)".toList
    | some list => "[".toList ++ list ++ "]".toList
  unlines
    ("// TODO: Move this useEffect logic into the appropriate lifecycle method".toList
      :: ("// Original useEffect dependencies: ".toList ++ dependencies)
      :: (lines effect.body).map fun line => trimEnd ("// ".toList ++ line))

/-- The name of the declaration that a text consists of: a keyword, a name, an optional type, and an
equals sign. -/
def declaredName? (t : Text) : Option Text := do
  let rest ← declarationKeyword? t
  let (name, rest) ← word? rest
  match trimStart rest with
  | '=' :: after => if isBlankText after then some name else none
  | ':' :: annotated =>
    let (type, after) ← cutAt? '=' annotated
    if !type.isEmpty && isBlankText after then some name else none
  | _ => none

/-- The name of the first declaration in a text that goes on to its end. -/
def enclosingDeclaration? : Text → Option Text
  | [] => none
  | c :: cs =>
    match declaredName? (c :: cs) with
    | some name => some name
    | none => enclosingDeclaration? cs

/-- What replaces the call of a hook with the given arguments, after the code `preceding`. -/
def replaceHook (hook : OtherHook) (arguments : List Text) (preceding : Text) :
    Outcome (Option Text) :=
  match hook, arguments with
  | .ref, _ => do
    Outcome.warn (.referenceHook ((enclosingDeclaration? preceding).getD "ref".toList))
    return some ("\x7b current: ".toList ++ arguments.headD "null".toList
      ++ " \x7d /* TODO: Convert useRef to a Horizon class field */".toList)
  | _, [] => return none
  | .callback, first :: _ => do
    let dependencies := (dependencyList? arguments).getD []
    Outcome.warn (.untrackedHook hook dependencies)
    return some ("(".toList ++ first ++ ") /* Dependencies: [".toList ++ dependencies ++
      "] */".toList)
  | .memo, first :: _ => do
    let dependencies := (dependencyList? arguments).getD []
    Outcome.warn (.untrackedHook hook dependencies)
    let value :=
      match effectCallback? first with
      | some body =>
        if body.head? = some '{' then "(".toList ++ first ++ ")()".toList
        else "(".toList ++ trim body ++ ")".toList
      | none => "(".toList ++ first ++ ")()".toList
    return some (value ++ " /* Memoized, deps: [".toList ++ dependencies ++ "] */".toList)

/-- Replaces the calls of the other hooks, given from the last to the first. -/
def replaceHooks : List (Occurrence OtherHook) → Text → Outcome Text
  | [], body => return body
  | found :: rest, body =>
    match callArguments? body (found.stop - 1) with
    | none => replaceHooks rest body
    | some (arguments, stop) => do
      let preceding := body.take found.start
      match ← replaceHook found.value arguments preceding with
      | none => replaceHooks rest body
      | some code => replaceHooks rest (preceding ++ code ++ body.drop stop)

/-! ## Extraction -/

/-- What the hooks of a body leave. -/
structure HookExtraction where
  /-- The class fields, one per state variable. -/
  fields : List Text
  /-- The accessors, one per state variable. -/
  accessors : List Text
  /-- The body without state variables and effects. -/
  body : Text
  state : List StateVariable
  effects : List EffectBlock
  /-- The effects as comments. -/
  lifecycle : List Text
  deriving DecidableEq, Repr

/-- The text without the spans, which are taken out in order of their start. -/
def removeSpans (t : Text) (spans : List Span) : Text :=
  replaceSpans t ((spans.map fun span => ⟨span, []⟩).mergeSort Edit.le)

/-- Takes the hooks out of the body of a component. -/
def extractHooks (options : Options) (body : Text) : Outcome HookExtraction := do
  let style := options.stateStyle
  let states := findState body
  let effects := findEffects body
  let _ ← Outcome.collect (states.map fun (state, _) => do
    Outcome.warn (.stateField style state.name state.type state.setter)
    Outcome.note (.extractedState state.describe))
  let _ ← Outcome.collect (effects.map fun _ => Outcome.warn .effect)
  let rest := removeSpans body (states.map (·.2) ++ effects.map (·.2))
  let replaced ← replaceHooks (occurrences otherHookOpening rest).reverse rest
  return {
    fields := states.map fun (state, _) => stateField style state
    accessors := states.map fun (state, _) => stateAccessor style state
    body := replaced
    state := states.map (·.1)
    effects := effects.map (·.1)
    lifecycle := effects.map fun (effect, _) => effectComment effect }

end Recast
