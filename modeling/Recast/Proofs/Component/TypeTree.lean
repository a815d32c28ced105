import Recast.Proofs.Scope.PatternNames

/-!
# Types as written

The types that annotate props: names, generics, object types, arrays, tuples and function types, in
any nesting. `TypeTree.print` writes one as text, with one blank behind each separator.
-/

namespace Recast

/-! ## Trees -/

/-- The name of a type, with the names of the modules before it: `Props`, `React.Node`. The keyword
`return` is none. -/
structure TypeName where
  modules : List Word
  word : Word
  free : word.text ≠ "return".toList

/-- The modules of a name, with the dots behind them. -/
def modulePath : List Word → Text
  | [] => []
  | word :: words => word.text ++ '.' :: modulePath words

/-- The name as written. -/
def TypeName.text (name : TypeName) : Text :=
  modulePath name.modules ++ name.word.text

/-- What stands between two members of an object type. -/
inductive MemberMark where
  | comma
  | semicolon
  deriving DecidableEq

/-- The mark as written. -/
def MemberMark.char : MemberMark → Char
  | .comma => ','
  | .semicolon => ';'

mutual

/-- A type. -/
inductive TypeTree where
  | name (name : TypeName)
  | generic (name : TypeName) (arguments : TypeItems)
  | object (members : TypeMembers)
  | array (element : TypeTree)
  | emptyTuple
  | tuple (items : TypeItems)
  | group (inner : TypeTree)
  | function (params : TypeParams) (result : TypeTree)

/-- The arguments of a generic type, or the items of a tuple: at least one. -/
inductive TypeItems where
  | last (type : TypeTree)
  | more (type : TypeTree) (rest : TypeItems)

/-- The members of an object type; the last one may have a mark behind it. -/
inductive TypeMembers where
  | done
  | last (key : Word) (optional : Bool) (type : TypeTree)
  | more (key : Word) (optional : Bool) (type : TypeTree) (mark : MemberMark) (rest : TypeMembers)

/-- The parameters of a function type; the last one may have a comma behind it. -/
inductive TypeParams where
  | done
  | last (name : Word) (type : TypeTree)
  | more (name : Word) (type : TypeTree) (rest : TypeParams)

end

/-! ## Printing -/

/-- The mark of an optional member. -/
def optionalMark (optional : Bool) : Text :=
  if optional then ['?'] else []

/-- A member up to its type. -/
def memberHead (key : Word) (optional : Bool) : Text :=
  ' ' :: (key.text ++ (optionalMark optional ++ [':', ' ']))

/-- A parameter up to its type. -/
def paramHead (name : Word) : Text :=
  name.text ++ [':', ' ']

mutual

/-- The type as text. -/
def TypeTree.print : TypeTree → Text
  | .name name => name.text
  | .generic name arguments => name.text ++ '<' :: (arguments.print ++ ['>'])
  | .object members => '{' :: (members.print ++ ['}'])
  | .array element => element.print ++ ['[', ']']
  | .emptyTuple => ['[', ']']
  | .tuple items => '[' :: (items.print ++ [']'])
  | .group inner => '(' :: (inner.print ++ [')'])
  | .function params result => '(' :: (params.print ++ [')']) ++ (" => ".toList ++ result.print)

/-- Items with commas between them. -/
def TypeItems.print : TypeItems → Text
  | .last type => type.print
  | .more type rest => type.print ++ ',' :: ' ' :: rest.print

/-- Members with their marks, with a blank before each and at the end. -/
def TypeMembers.print : TypeMembers → Text
  | .done => [' ']
  | .last key optional type => memberHead key optional ++ (type.print ++ [' '])
  | .more key optional type mark rest =>
    memberHead key optional ++ (type.print ++ mark.char :: rest.print)

/-- Parameters with commas between them. -/
def TypeParams.print : TypeParams → Text
  | .done => []
  | .last name type => paramHead name ++ type.print
  | .more name type rest => paramHead name ++ (type.print ++ ',' :: ' ' :: rest.print)

end

/-! ## The characters and the ends of a type -/

theorem TypeName.isNameChar_or_dot (name : TypeName) : ∀ c ∈ name.text, isNameChar c ∨ c = '.' := by
  have path : ∀ words : List Word, ∀ c ∈ modulePath words, isNameChar c ∨ c = '.' := by
    intro words
    induction words with
    | nil => simp [modulePath]
    | cons word words ih =>
      intro c hc
      rw [modulePath, List.mem_append, List.mem_cons] at hc
      rcases hc with hc | rfl | hc
      · exact .inl (isNameChar_of_isIdentifier word.valid c hc)
      · exact .inr rfl
      · exact ih c hc
  intro c hc
  rcases List.mem_append.1 hc with hc | hc
  · exact path name.modules c hc
  · exact .inl (isNameChar_of_isIdentifier name.word.valid c hc)

theorem trimmed_modulePath {t : Text} (solid : Trimmed t) :
    ∀ words : List Word, Trimmed (modulePath words ++ t)
  | [] => solid
  | word :: words => by
    have around := (trimmed_of_isIdentifier word.valid).around solid ('.' :: modulePath words)
    rwa [modulePath, List.append_assoc, List.cons_append]

theorem TypeName.trimmed (name : TypeName) : Trimmed name.text :=
  trimmed_modulePath (trimmed_of_isIdentifier name.word.valid) name.modules

/-- A type has no blank at either end. -/
theorem TypeTree.trimmed : ∀ type : TypeTree, Trimmed type.print
  | .name plain => plain.trimmed
  | .generic head arguments => by
    have angle : Trimmed ['>'] := ⟨⟨_, _, rfl, by decide⟩, [], _, rfl, by decide⟩
    exact head.trimmed.around angle ('<' :: arguments.print)
  | .object _ => trimmed_group .curly _
  | .array element => element.trimmed.around (trimmed_group .square []) []
  | .emptyTuple => trimmed_group .square []
  | .tuple _ => trimmed_group .square _
  | .group _ => trimmed_group .round _
  | .function _ result => (trimmed_group .round _).around result.trimmed " => ".toList

end Recast
