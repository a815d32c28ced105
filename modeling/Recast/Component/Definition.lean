import Recast.Component.Hook

/-!
# Definitions of functional components

`findDefinitions` locates the functional components of a source: arrow functions and functions with
a capitalised name that start at the beginning of a line. A definition inside an earlier one does
not count.
-/

namespace Recast

/-- A functional component as written. -/
structure Definition where
  name : Text
  /-- The export keywords with their blanks, or nothing. -/
  exported : Text
  /-- The parameter list without its brackets. -/
  params : Text
  /-- The type annotation of the variable. -/
  variableType? : Option Text
  /-- The inside of a block, or the returned element. -/
  body : Text
  /-- Whether the body is an element and not a block. -/
  concise : Bool
  start : Nat
  stop : Nat
  deriving DecidableEq, Repr

/-! ## Parts of a definition -/

/-- Whether a line starts here. -/
def startsLine (behind : Text) : Bool :=
  match behind with
  | [] => true
  | c :: _ => c == '\n'

/-- The text after the blanks at its start, of which there has to be one. -/
def afterBlanks? (t : Text) : Option Text :=
  if t.head?.any isBlank then some (trimStart t) else none

/-- A word and the blanks after it, of which there has to be one. -/
def afterWord? (word t : Text) : Option Text :=
  (dropHead? word t).bind afterBlanks?

/-- The text after optional export keywords. -/
def afterExport (t : Text) : Text :=
  match afterWord? "export".toList t with
  | some rest => (afterWord? "default".toList rest).getD rest
  | none => t

/-- The text that `t` has before `rest`, when `rest` is its end. -/
def textBefore (t rest : Text) : Text :=
  t.take (t.length - rest.length)

/-- A capitalised name and the text after it. -/
def capitalName? (t : Text) : Option (Text × Text) :=
  if t.head?.any isCapital then some (t.takeWhile isNameChar, t.dropWhile isNameChar) else none

/-- The type annotation before an equals sign, from the text between colon and equals sign: its
blanks go, but of a blank annotation the last character stays. -/
def typeBeforeEquals? (written : Text) : Option Text :=
  if isBlankText written then written.getLast?.map fun c => [c] else some (trim written)

/-- The optional annotation and the equals sign after a variable's name, and the text after them. -/
def annotatedEquals? (t : Text) : Option (Option Text × Text) :=
  match trimStart t with
  | '=' :: rest => some (none, rest)
  | ':' :: rest =>
    match cutAt? '=' rest with
    | some (written, after) => (typeBeforeEquals? written).map fun type => (some type, after)
    | none => none
  | _ => none

/-- Whether a parameter list of an arrow function starts here. -/
def opensArrow (t : Text) : Bool :=
  t.head? = some '('
    || match identifier? t with
      | some name => startsWith (trimStart (t.drop name.length)) "=>".toList
      | none => false

/-- The parameter list that starts a text, after an optional `async`. -/
def arrowOpening? (t : Text) : Option Text :=
  match (afterWord? "async".toList t).filter opensArrow with
  | some rest => some rest
  | none => if opensArrow t then some t else none

/-- The head of a definition: the export keywords, the name and the annotation. -/
structure DefinitionHead where
  exported : Text
  name : Text
  variableType? : Option Text

/-- The head of an arrow component, up to its parameters. -/
def arrowComponent : Recogniser DefinitionHead := fun behind ahead => do
  if !startsLine behind then none
  let declared := afterExport ahead
  let (name, rest) ← capitalName? (← declarationKeyword? declared)
  let (type?, rest) ← annotatedEquals? rest
  let rest ← arrowOpening? (trimStart rest)
  some (covers ⟨textBefore ahead declared, name, type?⟩ ahead rest)

/-- The head of a function component, up to its parameters. -/
def functionComponent : Recogniser DefinitionHead := fun behind ahead => do
  if !startsLine behind then none
  let declared := afterExport ahead
  let (name, rest) ← capitalName? (← afterWord? "function".toList declared)
  let rest := trimStart rest
  if rest.head? = some '(' then some (covers ⟨textBefore ahead declared, name, none⟩ ahead rest)
  else none

/-- The text after the arrow of an arrow function, with an optional return type before it. -/
def afterArrow? (t : Text) : Option Text :=
  let arrow :=
    match trimStart t with
    | ':' :: type => type.dropWhile (· != '=')
    | rest => rest
  (dropHead? "=>".toList arrow).map trimStart

/-- The text from the brace of a function body on, with an optional return type before it. -/
def fromBrace? (t : Text) : Option Text :=
  match trimStart t with
  | '{' :: rest => some ('{' :: rest)
  | ':' :: type => if type.contains '{' then some (type.dropWhile (· != '{')) else none
  | _ => none

/-- The offset past a semicolon that follows on the same line, if one does. -/
def semicolonEnd (t : Text) (pos : Nat) : Nat :=
  let rest := (t.drop pos).dropWhile isIndent
  if rest.head? = some ';' then t.length - rest.length + 1 else pos

/-! ## Reading definitions -/

/-- The parameters of an arrow function at `opening` and the offset of its body. -/
def arrowSignature? (source : Text) (opening : Nat) : Option (Text × Nat) :=
  if (source.drop opening).head? = some '(' then do
    let stop ← bracketEndAt? source opening
    let body ← afterArrow? (source.drop stop)
    some (trim (slice source (opening + 1) (stop - 1)), source.length - body.length)
  else do
    let name ← identifier? (source.drop opening)
    let body ← afterArrow? ((source.drop opening).drop name.length)
    some (name, source.length - body.length)

/-- The body of an arrow function at an offset, whether it is an element, and the offset past it. -/
def arrowBody? (source : Text) (start : Nat) : Except MarkupFault (Option (Text × Bool × Nat)) :=
  match (source.drop start).head? with
  | some '<' =>
    (elementEndAt source start).map fun found => found.map fun stop =>
      (slice source start stop, true, stop)
  | some '{' =>
    .ok ((bracketEndAt? source start).map
      fun stop => (slice source (start + 1) (stop - 1), false, stop))
  | some '(' =>
    .ok ((bracketEndAt? source start).bind fun stop =>
      let body := trim (slice source (start + 1) (stop - 1))
      if body.head? = some '<' then some (body, true, stop) else none)
  | _ => .ok none

/-- The definition that an arrow head starts. -/
def arrowDefinition? (source : Text) (head : Occurrence DefinitionHead) :
    Except MarkupFault (Option Definition) :=
  match arrowSignature? source head.stop with
  | none => .ok none
  | some (params, start) =>
    (arrowBody? source start).map fun found => found.map fun (body, concise, stop) =>
      { name := head.value.name
        exported := head.value.exported
        params
        variableType? := head.value.variableType?
        body
        concise
        start := head.start
        stop := semicolonEnd source stop }

/-- The definition that a function head starts. -/
def functionDefinition? (source : Text) (head : Occurrence DefinitionHead) : Option Definition := do
  let paramsEnd ← bracketEndAt? source head.stop
  let block ← fromBrace? (source.drop paramsEnd)
  let brace := source.length - block.length
  let stop ← bracketEndAt? source brace
  some
    { name := head.value.name
      exported := head.value.exported
      params := trim (slice source (head.stop + 1) (paramsEnd - 1))
      variableType? := none
      body := slice source (brace + 1) (stop - 1)
      concise := false
      start := head.start
      stop }

/-- The definitions without those that start inside an earlier one. -/
def dropNested : Nat → List Definition → List Definition
  | _, [] => []
  | last, definition :: rest =>
    if definition.start < last then dropNested last rest
    else definition :: dropNested definition.stop rest

/-- The functional components of a source in order. -/
def findDefinitions (source : Text) : Except MarkupFault (List Definition) := do
  let arrows ← (occurrences arrowComponent source).mapM (arrowDefinition? source)
  let functions := (occurrences functionComponent source).filterMap (functionDefinition? source)
  return dropNested 0
    ((arrows.reduceOption ++ functions).mergeSort fun a b => decide (a.start ≤ b.start))

end Recast
