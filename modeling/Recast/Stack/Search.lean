import Recast.Component.ClassComponent
import Recast.Component.Functional
import Recast.Stack.Scan

/-!
# The scans of a conversion

Most steps of a conversion read text and write nothing. Here stand the scans that each of them
makes, in order and up to the fault that ends it, if one does: those of definitions
(`definitionScans`) and signatures (`bindingScans`), of hooks (`stateScans`, `effectScans`), of
returned values (`returnScans`), of elements and attributes (`partScans`, `attributeScans`), of
rendered lists (`listScans`), of scopes (`qualifyScans`), and of class components (`classScans`).
-/

namespace Recast

/-! ## Markup -/

/-- The scans that take an element apart. -/
def partScans (rest : Text) : List Scan :=
  .tag ('<' :: rest) 0 ::
    match tagEndAt ('<' :: rest) 0 with
    | .ok tag => if tag.selfClosing then [] else [.element ('<' :: rest) 0]
    | .error _ => []

/-- The scans that read attributes. -/
def attributeScans (t : Text) : List Scan :=
  scansAt (attributeLook t) () t 0

/-- The scans that look for the first unit with markup in it. -/
def unitScans : List Text → List Scan
  | [] => []
  | unit :: units =>
    (match unit with
      | '{' :: rest => scansAt (markupLook rest.dropLast) () rest.dropLast 0
      | _ => [])
      ++ if isMarkupUnit unit then [] else unitScans units

/-- The scans that read a rendered list off an expression. -/
def listScans (t : Text) : List Scan :=
  topLevelScans t mapCall true 0
    ++ match (topLevelMatches t mapCall 0).head? with
      | none => []
      | some call =>
        .bracket t (call.stop - 1) ::
          match bracketEndAt? t (call.stop - 1) with
          | none => []
          | some stop =>
            if (trim (slice t (operandStart t call.start) call.start)).isEmpty
                || continuesChain (t.drop stop) then []
            else
              match arrowHead? (slice t call.stop (stop - 1)) with
              | none => []
              | some (_, body) => [.callbackMarkup (trim body)]

/-- The elements in code from `pos` on, each with the scans since the one before it, and the scans
behind the last one; `passed` are those since the last element so far. -/
def embeddedScans (t behind : Text) (pos resume : Nat) (passed : List Scan) :
    Text → List (List Scan × Except MarkupFault Span) × List Scan
  | [] => ([], passed)
  | c :: cs =>
    if pos < resume then embeddedScans t (c :: behind) (pos + 1) resume passed cs
    else if isQuote c then
      embeddedScans t (c :: behind) (pos + 1) (literalEnd c (pos + 1) 0 cs)
        (passed ++ [.literal t pos]) cs
    else if c = '<' && opensMarkup behind cs then
      let scans := passed ++ [.element t pos]
      match elementEnd pos c cs with
      | .error fault => ([(scans, .error fault)], [])
      | .ok (some stop) =>
        let rest := embeddedScans t (c :: behind) (pos + 1) stop [] cs
        ((scans, .ok ⟨pos, stop⟩) :: rest.1, rest.2)
      | .ok none => embeddedScans t (c :: behind) (pos + 1) resume scans cs
    else
      embeddedScans t (c :: behind) (pos + 1) ((commentEnd? pos c cs).getD resume) passed cs

/-! ## Scopes -/

/-- The scan that ends a body in braces. -/
def bodyScans (code : Text) (pos : Nat) : List Scan :=
  let start := code.length - (trimStart (code.drop pos)).length
  if (code.drop start).head? = some '{' then [.bracket code start] else []

/-- The scans of the scope of an arrow function. -/
def arrowScopeScans (code : Text) (arrow : Occurrence Unit) : List Scan :=
  match arrowParamsBefore? code arrow.start with
  | none => []
  | some (_, pattern) => bodyScans code arrow.stop ++ [.patternNames pattern]

/-- The scans of the scope of a declaration. -/
def declarationScans (code : Text) (declaration : Occurrence Unit) : List Scan :=
  let target := (code.drop declaration.stop).head?
  let block := expressionEnd (fun _ => false) code declaration.start
  (if target = some '{' || target = some '[' then [.bracket code declaration.stop] else [])
    ++ match declaredPattern? code declaration.stop with
      | none => []
      | some pattern =>
        (if opensLoop (code.take declaration.start).reverse && block < code.length then
            bodyScans code (block + 1)
          else [])
          ++ [.patternNames pattern]

/-- The scans of the scope of a function. -/
def functionScopeScans (code : Text) (function : Occurrence Unit) : List Scan :=
  .bracket code function.stop ::
    match bracketEndAt? code function.stop with
    | none => []
    | some stop =>
      match offsetOf? (· == '{') stop (code.drop stop) with
      | none => []
      | some brace =>
        .bracket code brace ::
          if (bracketEndAt? code brace).isSome then
            [.patternNames (slice code (function.stop + 1) (stop - 1))]
          else []

/-- The scans that collect the scopes of masked code. -/
def scopeScans (code : Text) : List Scan :=
  (occurrences arrowToken code).flatMap (arrowScopeScans code)
    ++ (occurrences declarationToken code).flatMap (declarationScans code)
    ++ (occurrences functionToken code).flatMap (functionScopeScans code)

/-- The scans that qualify a body, or rename a parameter in it. -/
def qualifyScans (body : Text) : List Scan :=
  .maskCode body 0 body.length :: scopeScans (mask body)

/-! ## Signatures and hooks -/

/-- The scans that read the bindings of a props parameter. -/
def bindingScans (params : Text) : List Scan :=
  if (trimStart params).head? = some '{' then
    .bracket params (params.length - (trimStart params).length) ::
      match patternSpan? params with
      | some span => pieceScans (slice params (span.start + 1) (span.stop - 1))
      | none => []
  else []

/-- The scans that find the state variables of a body. -/
def stateScans (body : Text) : List Scan :=
  (occurrences stateOpening body).map fun found => .bracket body (found.stop - 1)

/-- The scans that read the arguments of the call whose bracket opens at an offset. -/
def argumentScans (t : Text) (opening : Nat) : List Scan :=
  .bracket t opening ::
    match bracketEndAt? t opening with
    | some stop => pieceScans (slice t (opening + 1) (stop - 1))
    | none => []

/-- The scan that reads the body of an effect's callback. -/
def effectBodyScans (callback : Text) : List Scan :=
  match effectCallback? callback with
  | some rest => if (trim rest).head? = some '{' then [.bracket (trim rest) 0] else []
  | none => []

/-- The scans that find the effects of a body. -/
def effectScans (body : Text) : List Scan :=
  (occurrences effectOpening body).flatMap fun found =>
    argumentScans body (found.stop - 1)
      ++ match callArguments? body (found.stop - 1) with
        | some (callback :: _, _) => effectBodyScans callback
        | _ => []

/-! ## Definitions and returned values -/

/-- The scans that read the definition of an arrow head. -/
def arrowScans (source : Text) (head : Occurrence DefinitionHead) : List Scan :=
  (if (source.drop head.stop).head? = some '(' then [.bracket source head.stop] else [])
    ++ match arrowSignature? source head.stop with
      | none => []
      | some (_, start) =>
        match (source.drop start).head? with
        | some '<' => [.element source start]
        | some '{' => [.bracket source start]
        | some '(' => [.bracket source start]
        | _ => []

/-- The scans that read the definition of a function head. -/
def functionScans (source : Text) (head : Occurrence DefinitionHead) : List Scan :=
  .bracket source head.stop ::
    match (bracketEndAt? source head.stop).bind fun stop => fromBrace? (source.drop stop) with
    | some block => [.bracket source (source.length - block.length)]
    | none => []

/-- The scans of arrow heads, up to the first that is at fault. -/
def arrowHeadScans (source : Text) : List (Occurrence DefinitionHead) → List Scan
  | [] => []
  | head :: heads =>
    arrowScans source head
      ++ match arrowDefinition? source head with
        | .ok _ => arrowHeadScans source heads
        | .error _ => []

/-- The scans that find the definitions of a source. -/
def definitionScans (source : Text) : List Scan :=
  arrowHeadScans source (occurrences arrowComponent source)
    ++ match (occurrences arrowComponent source).mapM (arrowDefinition? source) with
      | .ok _ => (occurrences functionComponent source).flatMap (functionScans source)
      | .error _ => []

/-- The scans that split a body at its last `return`. -/
def returnScans (body : Text) : List Scan :=
  topLevelScans body returnWord false 0
    ++ match (topLevelMatches body returnWord 0).getLast? with
      | none => []
      | some statement =>
        let start := body.length - (trimStart (body.drop statement.stop)).length
        let toSemicolon := topLevelScans body semicolon true start
        match (body.drop start).head? with
        | some '(' =>
          .bracket body start :: if (bracketEndAt? body start).isSome then [] else toSemicolon
        | some '<' =>
          .element body start ::
            match elementEndAt body start with
            | .ok none => toSemicolon
            | _ => []
        | _ => toSemicolon

/-! ## Class components -/

/-- The scans that find the type arguments and the body of a class. -/
def classBodyScans (source : Text) (pos : Nat) : List Scan :=
  let start := afterBlanks source pos
  let braceScans (brace : Nat) : List Scan :=
    if (source.drop brace).head? = some '{' then [.bracket source brace] else []
  if (source.drop start).head? = some '<' then
    scansAt (angleLook source) 0 source start
      ++ match angleEndFrom 0 start 0 (source.drop start) with
        | some stop => braceScans (afterBlanks source stop)
        | none => []
  else braceScans start

/-- The scans that read the props of a class. -/
def classPropScans (arguments : Text) : List Scan :=
  match (firstTypeArgument arguments).map trim with
  | some ('{' :: rest) =>
    .bracket ('{' :: rest) 0 :: pieceScans
      (match bracketEndAt? ('{' :: rest) 0 with
        | some stop => slice ('{' :: rest) 1 (stop - 1)
        | none => rest)
  | _ => []

/-- The scans that read the state of a class. -/
def classStateScans (body : Text) : List Scan :=
  (occurrences stateInit body).flatMap fun found => argumentScans body found.stop

/-- The scans that describe a class. -/
def classScans (arguments body : Text) : List Scan :=
  effectScans body ++ classPropScans arguments ++ classStateScans body

end Recast
