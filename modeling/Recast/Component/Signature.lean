import Recast.Scan.Word
import Recast.Text.Digit

/-!
# Component signatures

What the parameter list of a component says about its props: the bindings of a destructured
parameter (`propBindings`), its type annotation (`annotatedPropsType?`), the name of a plain
parameter (`parameterName?`), and the interface that describes the props when none is annotated
(`propsInterface`).
-/

namespace Recast

/-! ## Types of literals -/

/-- A type that the form of a literal shows. -/
inductive LiteralType where
  | any
  | string
  | number
  | boolean
  | array
  | object
  deriving DecidableEq, Repr

/-- How the type is written. -/
def LiteralType.text : LiteralType → Text
  | .any => "any".toList
  | .string => "string".toList
  | .number => "number".toList
  | .boolean => "boolean".toList
  | .array => "any[]".toList
  | .object => "object".toList

/-- Whether the whole text is a decimal number: an optional minus, digits, and an optional
fraction. -/
def isDecimal (t : Text) : Bool :=
  let digits := (dropHead? ['-'] t).getD t
  let whole := digits.takeWhile isDigit
  !whole.isEmpty
    && match digits.dropWhile isDigit with
      | [] => true
      | '.' :: fraction => !fraction.isEmpty && fraction.all isDigit
      | _ => false

/-- The type of an initial value, read off the form of the literal. -/
def literalType (value : Text) : LiteralType :=
  let value := trim value
  match value with
  | [] => .any
  | c :: _ =>
    if value = "null".toList || value = "undefined".toList then .any
    else if isQuote c then .string
    else if isDecimal value then .number
    else if value = "true".toList || value = "false".toList then .boolean
    else if c = '[' then .array
    else if c = '{' then .object
    else .any

/-- The type of an initial value that may be missing. -/
def literalType? : Option Text → LiteralType
  | some value => literalType value
  | none => .any

/-! ## The props parameter -/

/-- One name that a destructured props parameter binds. -/
structure PropBinding where
  /-- The name inside the component. -/
  localName : Text
  /-- The prop it reads. -/
  prop : Text
  /-- The default value. -/
  default? : Option Text
  deriving DecidableEq, Repr

/-- The span of the destructuring pattern at the start of a parameter list. -/
def patternSpan? (params : Text) : Option Span :=
  let start := params.length - (trimStart params).length
  if (trimStart params).head? = some '{' then
    (bracketEndAt? params start).map fun stop => ⟨start, stop⟩
  else none

/-- The type annotation of the props parameter. -/
def annotatedPropsType? (params : Text) : Option Text :=
  let rest :=
    match patternSpan? params with
    | some span => params.drop span.stop
    | none => params
  match cutAt? ':' rest with
  | some (_, type) => if (trim type).isEmpty then none else some (trim type)
  | none => none

/-- The binding that one entry of a destructuring pattern makes; a rest entry and a nested pattern
make none. -/
def propBinding? (entry : Text) : Option PropBinding :=
  if startsWith entry "...".toList then none
  else
    let (target, default?) :=
      match cutAt? '=' entry with
      | some (target, value) => (trim target, some (trim value))
      | none => (entry, none)
    let (prop, localName) :=
      match cutAt? ':' target with
      | some (prop, localName) => (trim prop, trim localName)
      | none => (target, target)
    if isIdentifier prop && isIdentifier localName then some ⟨localName, prop, default?⟩ else none

/-- The names that a destructured props parameter binds, in order. -/
def propBindings (params : Text) : List PropBinding :=
  match patternSpan? params with
  | some span =>
    (splitTopLevel isComma (slice params (span.start + 1) (span.stop - 1))).filterMap propBinding?
  | none => []

/-- The name of a props parameter that is not destructured. -/
def parameterName? (params : Text) : Option Text :=
  let name := trim ((cutAt? ':' params).map (·.1) |>.getD params)
  if isIdentifier name then some name else none

/-- The props that a parameter list declares: the keys of a pattern, or the parameter itself. -/
def declaredProps (params : Text) : List Text :=
  if isBlankText params then []
  else
    let bindings := propBindings params
    if !bindings.isEmpty then firstOccurrences (bindings.map (·.prop))
    else if (patternSpan? params).isNone then (parameterName? params).toList
    else []

/-- The name of the interface of a component's props. -/
def propsTypeName (component : Text) : Text :=
  component ++ "Props".toList

/-- One member of a props interface. -/
def interfaceMember (binding : PropBinding) : Text :=
  "  ".toList ++ binding.prop ++ (if binding.default?.isSome then "?".toList else [])
    ++ ": ".toList ++ (literalType? binding.default?).text ++ ";".toList

/-- The interface that describes the props of a component. -/
def propsInterface (params component : Text) : Text :=
  let header := "interface ".toList ++ propsTypeName component ++ " \x7b".toList
  if isBlankText params then header ++ "\x7d".toList
  else
    let bindings := propBindings params
    let members :=
      if bindings.isEmpty then ["  [key: string]: any;".toList] else bindings.map interfaceMember
    header ++ "\n".toList ++ unlines members ++ "\n\x7d".toList

/-- Which prop each local name reads. A name bound again keeps its place and reads the later
prop. -/
def propAliases (params : Text) : List (Text × Text) :=
  (propBindings params).foldl
    (fun aliases binding => setAlias aliases binding.localName binding.prop) []
where
  /-- Sets the value of a key, in place if the key is there. -/
  setAlias (aliases : List (Text × Text)) (key value : Text) : List (Text × Text) :=
    if aliases.any (·.1 == key) then
      aliases.map fun entry => if entry.1 = key then (key, value) else entry
    else aliases ++ [(key, value)]

end Recast
