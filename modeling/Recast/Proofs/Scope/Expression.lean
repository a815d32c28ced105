import Recast.Proofs.Scope.Code
import Recast.Proofs.Scope.Words

/-!
# Expressions

A core language of expressions: names, numbers, strings, template literals, member accesses, calls,
arrays, objects, sums in brackets and arrow functions. `Expr.print` writes one as text, and
`Expr.shown` is what masking shows of that text: both are `Expr.write`, in two manners.

`Expr.qualify` is what qualifying does to a tree: a name that no enclosing arrow function binds
becomes an access of the instance, if it refers to a state variable or a prop, is the props object
of a member access, or is a setter that is called. Member names and keys stay.
-/

namespace Recast

/-! ## Trees -/

/-- An identifier: the name of a member, a key, a state variable or a prop. -/
structure Word where
  text : Text
  valid : isIdentifier text

/-- A name that stands for a value: an identifier that is no declaring keyword. -/
structure Name extends Word where
  free : text ∉ declaringKeywords

/-- Whether what follows the first digit of a number is one: name characters, and dots before
digits. -/
def isNumberTail : Text → Bool
  | [] => true
  | c :: cs => (if c = '.' then cs.head?.any isAsciiDigit else isNameChar c) && isNumberTail cs

/-- Whether the text is a number. -/
def isNumber : Text → Bool
  | [] => false
  | c :: cs => isAsciiDigit c && isNumberTail cs

/-- A number as written. -/
structure NumberText where
  text : Text
  valid : isNumber text

/-- The parameters of an arrow function: one name alone, or a list in brackets. -/
inductive Params where
  | one (name : Name)
  | list (names : List Name)

mutual

/-- An expression. -/
inductive Expr where
  | name (name : Name)
  | number (value : NumberText)
  | string (content : LiteralText '"')
  | template (parts : Template)
  | member (root : Expr) (key : Word)
  | call (callee : Expr) (arguments : Items)
  | array (items : Items)
  | object (entries : ObjectEntries)
  | sum (left right : Expr)
  | arrow (params : Params) (body : Expr)

/-- The static text and the substitutions of a template literal. -/
inductive Template where
  | last (content : LiteralText '`')
  | substitution (content : LiteralText '`') (value : Expr) (rest : Template)

/-- The items of an array or of a call; a spread one has dots before it. -/
inductive Items where
  | done
  | item (spread : Bool) (value : Expr) (rest : Items)

/-- The entries of an object. -/
inductive ObjectEntries where
  | done
  | keyed (key : Word) (value : Expr) (rest : ObjectEntries)
  | shorthand (name : Name) (rest : ObjectEntries)
  | spread (value : Expr) (rest : ObjectEntries)

end

/-- Whether the expression is an arrow function. -/
def Expr.isArrow : Expr → Bool
  | .arrow _ _ => true
  | _ => false

/-- Whether the text of the expression starts with the brace of an object. -/
def Expr.opensObject : Expr → Bool
  | .object _ => true
  | .member root _ => !root.isArrow && root.opensObject
  | .call callee _ => !callee.isArrow && callee.opensObject
  | _ => false

/-! ## Printing -/

/-- A text in round brackets, if they are needed. -/
def bracketed (needed : Bool) (t : Text) : Text :=
  if needed then '(' :: (t ++ [')']) else t

/-- The names that are bound. -/
def Params.names : Params → List Text
  | .one name => [name.text]
  | .list names => names.map (·.text)

/-- The parameters as text. -/
def Params.print : Params → Text
  | .one name => name.text
  | .list names => '(' :: (joinComma (names.map (·.text)) ++ [')'])

/-- The dots of a spread item. -/
def spreadDots (spread : Bool) : Text :=
  if spread then "...".toList else []

/-- How literals are written: as they are, or masked. -/
inductive Manner where
  | plain
  | masked

/-- The content of a literal. -/
def Manner.content : Manner → Text → Text
  | .plain, t => t
  | .masked, t => t.map hide

/-- What opens a substitution in a template. -/
def Manner.opening : Manner → Text
  | .plain => ['$', '{']
  | .masked => [' ', '(']

/-- What closes a substitution in a template. -/
def Manner.closing : Manner → Char
  | .plain => '}'
  | .masked => ')'

mutual

/-- The expression as text. An arrow function is in brackets where it is an operand, a callee or the
root of a member, and so is the body of an arrow function that starts with the brace of an
object. -/
def Expr.write (m : Manner) : Expr → Text
  | .name x => x.text
  | .number value => value.text
  | .string content => '"' :: (m.content content.text ++ ['"'])
  | .template parts => '`' :: (parts.write m ++ ['`'])
  | .member root key => bracketed root.isArrow (root.write m) ++ '.' :: key.text
  | .call callee arguments =>
    bracketed callee.isArrow (callee.write m) ++ '(' :: (arguments.write m [] ++ [')'])
  | .array items => '[' :: (items.write m [] ++ [']'])
  | .object entries => '{' :: (entries.write m [] ++ ['}'])
  | .sum left right =>
    '(' :: (bracketed left.isArrow (left.write m) ++ ' ' :: '+' :: ' ' ::
      (bracketed right.isArrow (right.write m) ++ [')']))
  | .arrow params body =>
    params.print ++ ' ' :: '=' :: '>' :: ' ' :: bracketed body.opensObject (body.write m)

/-- The parts of a template as text. -/
def Template.write (m : Manner) : Template → Text
  | .last content => m.content content.text
  | .substitution content value rest =>
    m.content content.text ++ (m.opening ++ (value.write m ++ m.closing :: rest.write m))

/-- The items as text; `lead` comes before the first and a comma before each other one. -/
def Items.write (m : Manner) (lead : Text) : Items → Text
  | .done => []
  | .item spread value rest =>
    lead ++ (spreadDots spread ++ (value.write m ++ rest.write m [',', ' ']))

/-- The entries as text; `lead` comes before the first and a comma before each other one. -/
def ObjectEntries.write (m : Manner) (lead : Text) : ObjectEntries → Text
  | .done => []
  | .keyed key value rest =>
    lead ++ (key.text ++ ':' :: ' ' :: (value.write m ++ rest.write m [',', ' ']))
  | .shorthand name rest => lead ++ (name.text ++ rest.write m [',', ' '])
  | .spread value rest => lead ++ ('.' :: '.' :: '.' :: (value.write m ++ rest.write m [',', ' ']))

end

/-- The text of an expression. -/
def Expr.print (e : Expr) : Text :=
  e.write .plain

/-- What masking shows of an expression. -/
def Expr.shown (e : Expr) : Text :=
  e.write .masked

/-! ## Uses -/

/-- What an expression is used for where it stands. -/
inductive Use where
  | value
  | object
  | callee
  deriving DecidableEq

mutual

/-- The names that are called in an expression. -/
def Expr.called (use : Use) : Expr → List Name
  | .name x => if use = .callee then [x] else []
  | .number _ => []
  | .string _ => []
  | .template parts => parts.called
  | .member root _ => root.called .object
  | .call callee arguments => callee.called .callee ++ arguments.called
  | .array items => items.called
  | .object entries => entries.called
  | .sum left right => left.called .value ++ right.called .value
  | .arrow _ body => body.called .value

/-- The names that are called in a template. -/
def Template.called : Template → List Name
  | .last _ => []
  | .substitution _ value rest => value.called .value ++ rest.called

/-- The names that are called in items. -/
def Items.called : Items → List Name
  | .done => []
  | .item _ value rest => value.called .value ++ rest.called

/-- The names that are called in entries. -/
def ObjectEntries.called : ObjectEntries → List Name
  | .done => []
  | .keyed _ value rest => value.called .value ++ rest.called
  | .shorthand _ rest => rest.called
  | .spread value rest => value.called .value ++ rest.called

end

/-! ## Qualified trees -/

/-- The instance. -/
def thisName : Name :=
  ⟨⟨"this".toList, by decide⟩, by decide⟩

/-- The name of the props object. -/
def propsWord : Word :=
  ⟨"props".toList, by decide⟩

/-- The access that takes the place of a name, if it refers to a state variable or to a prop; the
former wins. -/
def Name.access? (state : List Word) (props : List (Word × Word)) (name : Name) : Option Expr :=
  if state.any (·.text = name.text) then some (.member (.name thisName) name.toWord)
  else (props.find? (·.1.text = name.text)).map fun entry =>
    .member (.member (.name thisName) propsWord) entry.2

/-- What becomes of a name that stands for a value; `bound` are the names that are bound there. -/
def Name.qualify (state : List Word) (props : List (Word × Word)) (bound : List Text) (use : Use)
    (name : Name) : Expr :=
  if bound.contains name.text then .name name
  else
    match name.access? state props with
    | some access => access
    | none =>
      if use = .object ∧ name.text = "props".toList then .member (.name thisName) propsWord
      else if use = .callee ∧ isSetterName name.text ∧ name.text ∉ globalSetters then
        .member (.name thisName) name.toWord
      else .name name

mutual

/-- What becomes of an expression. -/
def Expr.qualify (state : List Word) (props : List (Word × Word)) (bound : List Text) (use : Use) :
    Expr → Expr
  | .name x => x.qualify state props bound use
  | .number value => .number value
  | .string content => .string content
  | .template parts => .template (parts.qualify state props bound)
  | .member root key => .member (root.qualify state props bound .object) key
  | .call callee arguments =>
    .call (callee.qualify state props bound .callee) (arguments.qualify state props bound)
  | .array items => .array (items.qualify state props bound)
  | .object entries => .object (entries.qualify state props bound)
  | .sum left right =>
    .sum (left.qualify state props bound .value) (right.qualify state props bound .value)
  | .arrow params body => .arrow params (body.qualify state props (params.names ++ bound) .value)

/-- What becomes of the parts of a template. -/
def Template.qualify (state : List Word) (props : List (Word × Word)) (bound : List Text) :
    Template → Template
  | .last content => .last content
  | .substitution content value rest =>
    .substitution content (value.qualify state props bound .value) (rest.qualify state props bound)

/-- What becomes of items. -/
def Items.qualify (state : List Word) (props : List (Word × Word)) (bound : List Text) :
    Items → Items
  | .done => .done
  | .item spread value rest =>
    .item spread (value.qualify state props bound .value) (rest.qualify state props bound)

/-- What becomes of entries: an entry that stands for its own key gets its value written out. -/
def ObjectEntries.qualify (state : List Word) (props : List (Word × Word)) (bound : List Text) :
    ObjectEntries → ObjectEntries
  | .done => .done
  | .keyed key value rest =>
    .keyed key (value.qualify state props bound .value) (rest.qualify state props bound)
  | .shorthand name rest =>
    if bound.contains name.text then .shorthand name (rest.qualify state props bound)
    else
      match name.access? state props with
      | some access => .keyed name.toWord access (rest.qualify state props bound)
      | none => .shorthand name (rest.qualify state props bound)
  | .spread value rest =>
    .spread (value.qualify state props bound .value) (rest.qualify state props bound)

end

end Recast
