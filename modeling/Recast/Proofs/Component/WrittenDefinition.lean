import Recast.Proofs.Component.Locality
import Recast.Proofs.Markup.ElementExtent
import Recast.Proofs.Markup.WholeElement
import Recast.Proofs.Scope.Binders

/-!
# Definitions as written

A component can be written as an arrow function in a constant or as a function. Both are put
together here from parts that carry the proofs of their own shape, so that every `WrittenDefinition`
is one that can be written at the start of a line: its lines after the first are indented, up to the
closing brace.

`WrittenDefinition.print` writes one, and `WrittenDefinition.definition` is what is read off it. The
head of a definition is recognised at its start (`arrowComponent_written`,
`functionComponent_written`), and from its head the definition is read whole, whatever follows
(`arrowDefinition?_written`, `functionDefinition?_written`).
-/

namespace Recast

/-! ## Parts -/

/-- A capitalised name. -/
structure CapitalName extends Word where
  capital : text.head?.any isCapital

/-- A type annotation. -/
structure TypeText where
  text : Text
  valid : '=' ∉ text

/-- Parameters on one line: no quote, no `<`, no `/`, and nested brackets. -/
structure ParamCode where
  text : Text
  nested : Nested text
  plain : ∀ c ∈ text, isPlainCode c
  line : '\n' ∉ text

/-- The inside of a block: no quote, no `<`, no `/`, and nested brackets. Each line after the first
is empty or indented, or starts with a closing brace. -/
structure BlockCode where
  text : Text
  nested : Nested text
  plain : ∀ c ∈ text, isPlainCode c
  indented : ∀ line ∈ (lines text).tail, ∀ c, line.head? = some c → isBlank c ∨ c = '}'

/-- An element on one line, complete whatever follows it. -/
structure LineElement where
  text : Text
  whole : IsWhole text
  line : '\n' ∉ text

/-- Each markup tree on one line is such an element. -/
def Element.onLine (t : Element) (h : '\n' ∉ t.print) : LineElement :=
  ⟨t.print, t.isWhole, h⟩

/-- The parameters of an arrow function: a list in brackets, or one name. -/
inductive WrittenParams where
  | list (code : ParamCode)
  | one (name : Word)

/-- The body of an arrow function: a block, an element in brackets, or an element. -/
inductive WrittenBody where
  | block (code : BlockCode)
  | bracketed (markup : LineElement)
  | element (markup : LineElement)

/-- How a function is exported. -/
inductive ExportForm where
  | none
  | named
  | default

/-! ## Definitions -/

/-- A component as written: an arrow function in a constant, or a function. -/
inductive WrittenDefinition where
  | arrow (exported : Bool) (name : CapitalName) (type? : Option TypeText) (params : WrittenParams)
    (body : WrittenBody)
  | function (exported : ExportForm) (name : CapitalName) (params : ParamCode) (body : BlockCode)

/-- The annotation that is read off a type: its blanks go, but of a blank type one stays. -/
def TypeText.annotation (type : TypeText) : Text :=
  if isBlankText type.text then [' '] else trim type.text

/-- The parameters as they are read. -/
def WrittenParams.text : WrittenParams → Text
  | .list code => trim code.text
  | .one name => name.text

/-- The parameters as written. -/
def WrittenParams.print : WrittenParams → Text
  | .list code => '(' :: (code.text ++ [')'])
  | .one name => name.text

/-- The body as it is read. -/
def WrittenBody.text : WrittenBody → Text
  | .block code => code.text
  | .bracketed markup => markup.text
  | .element markup => markup.text

/-- Whether the body is an element. -/
def WrittenBody.concise : WrittenBody → Bool
  | .block _ => false
  | .bracketed _ => true
  | .element _ => true

/-- The body as written. -/
def WrittenBody.print : WrittenBody → Text
  | .block code => '{' :: (code.text ++ ['}'])
  | .bracketed markup => '(' :: (markup.text ++ [')'])
  | .element markup => markup.text

/-- The export keyword of a constant. -/
def exportText (exported : Bool) : Text :=
  if exported then "export ".toList else []

/-- The export keywords of a function. -/
def ExportForm.text : ExportForm → Text
  | .none => []
  | .named => "export ".toList
  | .default => "export default ".toList

/-- The annotation as written. -/
def annotationText : Option TypeText → Text
  | none => []
  | some type => ": ".toList ++ type.text

/-- The head of an arrow function, up to its parameters. -/
def arrowHead (exported : Bool) (name : CapitalName) (type? : Option TypeText) : Text :=
  exportText exported ++ ("const ".toList ++ (name.text ++ (annotationText type? ++ " = ".toList)))

/-- The head of a function, up to its parameters. -/
def functionHead (exported : ExportForm) (name : CapitalName) : Text :=
  exported.text ++ ("function ".toList ++ name.text)

/-- The arrow function as written. -/
def printArrow (params : WrittenParams) (body : WrittenBody) : Text :=
  params.print ++ (" => ".toList ++ body.print)

/-- The parameters and the block of a function as written. -/
def printFunction (params : ParamCode) (body : BlockCode) : Text :=
  '(' :: (params.text ++ (')' :: ' ' :: '{' :: (body.text ++ ['}'])))

/-- The definition as written. -/
def WrittenDefinition.print : WrittenDefinition → Text
  | .arrow exported name type? params body =>
    arrowHead exported name type? ++ (printArrow params body ++ [';'])
  | .function exported name params body => functionHead exported name ++ printFunction params body

/-- What is read off a definition that starts the text. -/
def WrittenDefinition.definition (written : WrittenDefinition) : Definition :=
  match written with
  | .arrow exported name type? params body =>
    { name := name.text
      exported := exportText exported
      params := params.text
      variableType? := type?.map TypeText.annotation
      body := body.text
      concise := body.concise
      start := 0
      stop := written.print.length }
  | .function exported name params body =>
    { name := name.text
      exported := exported.text
      params := trim params.text
      variableType? := none
      body := body.text
      concise := false
      start := 0
      stop := written.print.length }

/-! ## Heads -/

theorem CapitalName.first (name : CapitalName) (t : Text) :
    ∀ c, (name.text ++ t).head? = some c → isBlank c = false := by
  obtain ⟨d, ds, cons, visible⟩ := (trimmed_of_isIdentifier name.valid).first
  intro c hc
  rw [cons] at hc
  obtain rfl := Option.some.inj hc
  exact visible

theorem trimStart_space {t : Text} (first : ∀ c, t.head? = some c → isBlank c = false) :
    trimStart (' ' :: t) = t :=
  trimStart_eq_self first

/-- A space on each side of a text that is not blank is trimmed off. -/
theorem trim_spaced {t : Text} (h : isBlankText t = false) :
    trim (' ' :: (t ++ [' '])) = trim t := by
  have filled : (t.dropWhile isBlank).isEmpty = false := by
    rw [Bool.eq_false_iff, ne_eq, List.isEmpty_iff, List.dropWhile_eq_nil_iff, ← List.all_eq_true]
    exact Bool.eq_false_iff.1 h
  have start : trimStart (' ' :: (t ++ [' '])) = trimStart t ++ [' '] := by
    rw [trimStart, List.dropWhile_cons_of_pos (by decide), List.dropWhile_append, filled]
    rfl
  rw [trim, start, trimEnd, dropEndWhile, List.reverse_append, List.reverse_singleton,
    List.singleton_append, List.dropWhile_cons_of_pos (by decide)]
  rfl

theorem annotation_eq (type : TypeText) :
    typeBeforeEquals? (' ' :: (type.text ++ [' '])) = some type.annotation := by
  have space : isBlank ' ' = true := by decide
  rw [typeBeforeEquals?, TypeText.annotation]
  cases blank : isBlankText type.text with
  | true =>
    have whole : isBlankText (' ' :: (type.text ++ [' '])) = true := by
      rw [isBlankText] at blank ⊢
      simp [space, blank]
    rw [whole, ← List.cons_append, List.getLast?_concat]
    rfl
  | false =>
    have whole : isBlankText (' ' :: (type.text ++ [' '])) = false := by
      rw [isBlankText] at blank ⊢
      simp [space, blank]
    rw [whole, trim_spaced blank]
    rfl

/-- The annotation goes up to the equals sign. -/
theorem annotatedEquals?_written (type? : Option TypeText) (t : Text) :
    annotatedEquals? (annotationText type? ++ (" = ".toList ++ t)) =
      some (type?.map TypeText.annotation, ' ' :: t) := by
  cases type? with
  | none => rfl
  | some type =>
    have noEquals : '=' ∉ ' ' :: (type.text ++ [' ']) := by simp [type.valid]
    have cut : cutAt? '=' (' ' :: (type.text ++ (" = ".toList ++ t))) =
        some (' ' :: (type.text ++ [' ']), ' ' :: t) := by
      rw [← cutAt?_append (' ' :: t) noEquals]
      simp
    have colon : trimStart (annotationText (some type) ++ (" = ".toList ++ t)) =
        ':' :: ' ' :: (type.text ++ (" = ".toList ++ t)) := by
      rw [annotationText, List.append_assoc]
      rfl
    rw [annotatedEquals?, colon]
    simp only [cut, annotation_eq, Option.map_some]

theorem declarationKeyword?_const {t : Text} (first : ∀ c, t.head? = some c → isBlank c = false) :
    declarationKeyword? ("const ".toList ++ t) = some t := by
  change (if ((' ' :: t).head?.any isBlank) = true then some (trimStart (' ' :: t)) else none) =
    some t
  rw [trimStart_space first]
  rfl

/-- The head of an arrow function is recognised where a line starts. -/
theorem arrowComponent_written (exported : Bool) (name : CapitalName) (type? : Option TypeText)
    {behind opening : Text}
    (line : startsLine behind) (first : ∀ c, opening.head? = some c → isBlank c = false)
    (opens : arrowOpening? opening = some opening) :
    arrowComponent behind (arrowHead exported name type? ++ opening) =
      some (⟨exportText exported, name.text, type?.map TypeText.annotation⟩,
        (arrowHead exported name type?).length) := by
  have declared : afterExport (arrowHead exported name type? ++ opening) =
      "const ".toList ++ (name.text ++ (annotationText type? ++ (" = ".toList ++ opening))) := by
    cases exported with
    | true =>
      simp only [arrowHead, exportText, if_true, List.append_assoc]
      rfl
    | false =>
      simp only [arrowHead, exportText, Bool.false_eq_true, if_false, List.append_assoc,
        List.nil_append]
      rfl
  have whole : arrowHead exported name type? ++ opening = exportText exported ++
      ("const ".toList ++ (name.text ++ (annotationText type? ++ (" = ".toList ++ opening)))) := by
    simp only [arrowHead, List.append_assoc]
  refine arrowComponent_eq_some.2 ⟨line, _, name.text, _, _, ' ' :: opening, opening, ?_,
    capitalName?_append name.capital (isNameChar_of_isIdentifier name.valid) ?_,
    annotatedEquals?_written type? opening, ?_, ?_⟩
  · rw [declared]
    exact declarationKeyword?_const (name.first _)
  · cases type? with
    | none => rintro c ⟨⟩; decide
    | some type => rintro c ⟨⟩; decide
  · rw [trimStart_space first, opens]
  · rw [declared, covers, textBefore]
    congr 2
    · rw [whole, List.length_append, Nat.add_sub_cancel, List.take_left]
    · rw [List.length_append, Nat.add_sub_cancel]

theorem afterExport_functionHead (exported : ExportForm) (name : CapitalName) (t : Text) :
    afterExport (functionHead exported name ++ t) = "function ".toList ++ (name.text ++ t) := by
  rw [functionHead, List.append_assoc, List.append_assoc]
  generalize name.text ++ t = rest
  cases exported with
  | none => rfl
  | named => rfl
  | default => rfl

/-- The head of a function is recognised where a line starts. -/
theorem functionComponent_written (exported : ExportForm) (name : CapitalName) {behind : Text}
    (line : startsLine behind) (t : Text) :
    functionComponent behind (functionHead exported name ++ '(' :: t) =
      some (⟨exported.text, name.text, none⟩, (functionHead exported name).length) := by
  have declared := afterExport_functionHead exported name ('(' :: t)
  have whole : functionHead exported name ++ '(' :: t =
      exported.text ++ ("function ".toList ++ (name.text ++ '(' :: t)) := by
    simp only [functionHead, List.append_assoc]
  have word : afterWord? "function".toList ("function ".toList ++ (name.text ++ '(' :: t)) =
      some (name.text ++ '(' :: t) := by
    have blank : trimStart (' ' :: (name.text ++ '(' :: t)) = name.text ++ '(' :: t :=
      trimStart_space (name.first _)
    change (if ((' ' :: (name.text ++ '(' :: t)).head?.any isBlank) = true then
      some (trimStart (' ' :: (name.text ++ '(' :: t))) else none) = _
    rw [blank]
    rfl
  refine functionComponent_eq_some.2 ⟨line, _, name.text, '(' :: t, by rw [declared, word],
    capitalName?_append name.capital (isNameChar_of_isIdentifier name.valid)
      (by rintro c ⟨⟩; decide), rfl, ?_⟩
  have bracket : trimStart ('(' :: t) = '(' :: t := trimStart_eq_self (by rintro c ⟨⟩; decide)
  rw [declared, covers, textBefore, bracket]
  congr 2
  · rw [whole, List.length_append, Nat.add_sub_cancel, List.take_left]
  · rw [List.length_append, Nat.add_sub_cancel]

/-! ## Arrow functions -/

theorem WrittenParams.first (params : WrittenParams) (t : Text) :
    ∀ c, (params.print ++ t).head? = some c → isBlank c = false := by
  cases params with
  | list code =>
    rintro c ⟨⟩
    decide
  | one word =>
    obtain ⟨d, ds, cons, visible⟩ := (trimmed_of_isIdentifier word.valid).first
    intro c hc
    rw [WrittenParams.print, cons] at hc
    obtain rfl := Option.some.inj hc
    exact visible

/-- A word before an arrow is the parameter, also if it is `async`. -/
theorem filter_async_word (word : Word) (t : Text) :
    (afterWord? "async".toList (word.text ++ (" => ".toList ++ t))).filter opensArrow = none := by
  rw [Option.eq_none_iff_forall_ne_some]
  intro rest found
  obtain ⟨success, opens⟩ := Option.filter_eq_some_iff.1 found
  obtain ⟨after, cut, blanks⟩ := Option.bind_eq_some_iff.1 success
  obtain ⟨blank, same⟩ := Option.ite_none_right_eq_some.1 blanks
  have split := eq_append_of_dropHead? cut
  have past : PastWord after := by
    intro c hc
    rw [hc] at blank
    exact not_isNameChar_of_isBlank blank
  -- Both texts start with a word, so it is the same word.
  have ahead := congrArg wordAhead split
  rw [wordAhead_append (isNameChar_of_isIdentifier word.valid) (by rintro c ⟨⟩; decide),
    wordAhead_append (by decide) past]
    at ahead
  rw [ahead] at split
  obtain rfl := List.append_cancel_left split
  rw [← Option.some.inj same] at opens
  exact Bool.noConfusion opens

/-- The parameters of an arrow function are recognised. -/
theorem WrittenParams.arrowOpening?_eq (params : WrittenParams) (t : Text) :
    arrowOpening? (params.print ++ (" => ".toList ++ t)) =
      some (params.print ++ (" => ".toList ++ t)) := by
  cases params with
  | list code => rfl
  | one word =>
    have found : identifier? (word.text ++ (" => ".toList ++ t)) = some word.text :=
      identifier?_append word.valid (by rintro c ⟨⟩; decide)
    have opens : opensArrow (word.text ++ (" => ".toList ++ t)) := by
      rw [opensArrow, found, Bool.or_eq_true]
      right
      dsimp only
      rw [List.drop_left]
      rfl
    rw [WrittenParams.print, arrowOpening?, filter_async_word, opens]
    rfl

/-- A bracket at the start of a text ends behind its nested inside. -/
theorem bracketEndAt?_zero {t : Text} (nested : Nested t) (plain : ∀ c ∈ t, isPlainCode c)
    (kind : Bracket) (rest : Text) :
    bracketEndAt? (kind.opener :: (t ++ kind.closer :: rest)) 0 = some (t.length + 2) := by
  have stop := bracketEndAt?_nested nested plain kind [] rest
  rwa [List.nil_append, List.length_nil, Nat.zero_add] at stop

theorem slice_bracketed_zero (inner rest : Text) (opener closer : Char) :
    slice (opener :: (inner ++ closer :: rest)) (0 + 1) (inner.length + 2 - 1) = inner := by
  have inside := slice_bracketed [] inner rest opener closer
  rwa [List.nil_append, List.length_nil, Nat.zero_add inner.length] at inside

theorem afterArrow?_written {body : Text} (first : ∀ c, body.head? = some c → isBlank c = false) :
    afterArrow? (" => ".toList ++ body) = some body := by
  change some (trimStart (' ' :: body)) = some body
  rw [trimStart_space first]

/-- The parameters are read, up to the body. -/
theorem WrittenParams.arrowSignature?_eq (params : WrittenParams) {body : Text}
    (first : ∀ c, body.head? = some c → isBlank c = false) :
    arrowSignature? (params.print ++ (" => ".toList ++ body)) 0 =
      some (params.text, (params.print ++ " => ".toList).length) := by
  have length : (params.print ++ (" => ".toList ++ body)).length - body.length =
      (params.print ++ " => ".toList).length := by
    rw [← List.append_assoc, List.length_append, Nat.add_sub_cancel]
  cases params with
  | list code =>
    have whole : (WrittenParams.list code).print ++ (" => ".toList ++ body) =
        '(' :: (code.text ++ ')' :: (" => ".toList ++ body)) := by
      simp [WrittenParams.print]
    have stop : bracketEndAt? ('(' :: (code.text ++ ')' :: (" => ".toList ++ body))) 0 =
        some (code.text.length + 2) :=
      bracketEndAt?_zero code.nested code.plain .round _
    have rest : ('(' :: (code.text ++ ')' :: (" => ".toList ++ body))).drop (code.text.length + 2) =
        " => ".toList ++ body := by
      simp
    rw [whole] at length ⊢
    rw [arrowSignature?, List.drop_zero, List.head?_cons, if_pos rfl, stop]
    simp only [Option.bind_eq_bind, Option.bind_some, rest, afterArrow?_written first,
      slice_bracketed_zero, length]
    rfl
  | one word =>
    have found : identifier? (word.text ++ (" => ".toList ++ body)) = some word.text :=
      identifier?_append word.valid (by rintro c ⟨⟩; decide)
    have bracket : (word.text ++ (" => ".toList ++ body)).head? ≠ some '(' := by
      obtain ⟨c, cs, cons, -⟩ := (trimmed_of_isIdentifier word.valid).first
      rw [cons]
      rintro ⟨⟩
      exact Bool.noConfusion (isNameChar_of_isIdentifier word.valid '(' (by simp [cons]))
    simp only [WrittenParams.print] at length ⊢
    rw [arrowSignature?, List.drop_zero, if_neg bracket, found]
    simp only [Option.bind_eq_bind, Option.bind_some, List.drop_left, afterArrow?_written first,
      length]
    rfl

theorem LineElement.trim_eq (markup : LineElement) : trim markup.text = markup.text := by
  have element : IsElement markup.text := by
    have whole := markup.whole []
    rwa [List.append_nil] at whole
  exact element.trim_eq

/-- The body of an arrow function is read. -/
theorem WrittenBody.arrowBody?_eq (body : WrittenBody) (after : Text) :
    arrowBody? (body.print ++ after) 0 =
      .ok (some (body.text, body.concise, body.print.length)) := by
  cases body with
  | block code =>
    have whole : (WrittenBody.block code).print ++ after = '{' :: (code.text ++ '}' :: after) := by
      simp [WrittenBody.print]
    have stop : bracketEndAt? ('{' :: (code.text ++ '}' :: after)) 0 =
        some (code.text.length + 2) :=
      bracketEndAt?_zero code.nested code.plain .curly after
    rw [whole]
    change Except.ok ((bracketEndAt? ('{' :: (code.text ++ '}' :: after)) 0).map _) = _
    rw [stop, Option.map_some, slice_bracketed_zero]
    simp [WrittenBody.text, WrittenBody.concise, WrittenBody.print]
  | bracketed markup =>
    have whole : (WrittenBody.bracketed markup).print ++ after =
        '(' :: (markup.text ++ ')' :: after) := by
      simp [WrittenBody.print]
    have stop : bracketEndAt? ('(' :: (markup.text ++ ')' :: after)) 0 =
        some (markup.text.length + 2) :=
      markup.whole.bracketEndAt?_eq .round after
    obtain ⟨cs, cons⟩ := markup.whole.eq_cons
    rw [whole]
    change Except.ok ((bracketEndAt? ('(' :: (markup.text ++ ')' :: after)) 0).bind _) = _
    rw [stop, Option.bind_some]
    simp only [slice_bracketed_zero, markup.trim_eq]
    rw [if_pos (by rw [cons]; rfl)]
    simp [WrittenBody.text, WrittenBody.concise, WrittenBody.print]
  | element markup =>
    obtain ⟨cs, cons⟩ := markup.whole.eq_cons
    have first : (markup.text ++ after).head? = some '<' := by rw [cons]; rfl
    have inner : slice (markup.text ++ after) 0 markup.text.length = markup.text := by
      rw [slice, List.take_left, List.drop_zero]
    rw [WrittenBody.print, arrowBody?, List.drop_zero, first]
    dsimp only
    rw [markup.whole after]
    simp [Except.map, inner, WrittenBody.text, WrittenBody.concise]

theorem WrittenBody.first (body : WrittenBody) (t : Text) :
    ∀ c, (body.print ++ t).head? = some c → isBlank c = false := by
  cases body with
  | block code =>
    rintro c ⟨⟩
    decide
  | bracketed markup =>
    rintro c ⟨⟩
    decide
  | element markup =>
    obtain ⟨cs, cons⟩ := markup.whole.eq_cons
    rw [WrittenBody.print, cons]
    rintro c ⟨⟩
    decide

/-- A definition goes up to the semicolon right behind it. -/
theorem semicolonEnd_append_cons (front t : Text) :
    semicolonEnd (front ++ ';' :: t) front.length = front.length + 1 := by
  have rest : ((front ++ ';' :: t).drop front.length).dropWhile isIndent = ';' :: t := by
    rw [List.drop_left, List.dropWhile_cons_of_neg (by decide)]
  rw [semicolonEnd]
  simp only [rest, List.head?_cons, if_true, List.length_append, Nat.add_sub_cancel]

/-- The definition of an arrow function is read from its head on. -/
theorem arrowDefinition?_written (exported : Bool) (name : CapitalName) (type? : Option TypeText)
    (params : WrittenParams) (body : WrittenBody) (after : Text) :
    arrowDefinition? ((WrittenDefinition.arrow exported name type? params body).print ++ after)
        ⟨0, (arrowHead exported name type?).length,
          ⟨exportText exported, name.text, type?.map TypeText.annotation⟩⟩ =
      .ok (some (WrittenDefinition.arrow exported name type? params body).definition) := by
  have whole : (WrittenDefinition.arrow exported name type? params body).print ++ after =
      arrowHead exported name type? ++
        (params.print ++ (" => ".toList ++ (body.print ++ ';' :: after))) := by
    simp only [WrittenDefinition.print, printArrow, List.append_assoc, List.singleton_append]
  have front : arrowHead exported name type? ++
      (params.print ++ (" => ".toList ++ (body.print ++ ';' :: after))) =
      (arrowHead exported name type? ++ (params.print ++ " => ".toList)) ++
        (body.print ++ ';' :: after) := by
    simp only [List.append_assoc]
  have signature := arrowSignature?_append (arrowHead exported name type?)
    (params.print ++ (" => ".toList ++ (body.print ++ ';' :: after))) 0
  rw [params.arrowSignature?_eq (body.first _), Nat.zero_add] at signature
  have read := arrowBody?_append (arrowHead exported name type? ++ (params.print ++ " => ".toList))
    (body.print ++ ';' :: after) 0
  rw [body.arrowBody?_eq, ← front, Nat.zero_add] at read
  have ends := semicolonEnd_append_cons
    (arrowHead exported name type? ++ (params.print ++ (" => ".toList ++ body.print))) after
  have start : (params.print ++ " => ".toList).length + (arrowHead exported name type?).length =
      (arrowHead exported name type? ++ (params.print ++ " => ".toList)).length := by
    simp only [List.length_append]
    omega
  have stop : body.print.length +
      (arrowHead exported name type? ++ (params.print ++ " => ".toList)).length =
      (arrowHead exported name type? ++
        (params.print ++ (" => ".toList ++ body.print))).length := by
    simp only [List.length_append]
    omega
  have total :
      (arrowHead exported name type? ++
        (params.print ++ (" => ".toList ++ body.print))).length + 1 =
      (WrittenDefinition.arrow exported name type? params body).print.length := by
    simp only [WrittenDefinition.print, printArrow, List.length_append, List.length_singleton]
    omega
  rw [whole, arrowDefinition?]
  dsimp only
  rw [signature, Option.map_some]
  dsimp only
  rw [start, read]
  simp only [shiftResult, Option.map_some, Except.map, stop]
  simp only [List.append_assoc] at ends
  rw [ends, total]
  rfl

/-- Behind any text in front, the parameters and the block of a function are read. -/
theorem functionDefinition?_behind (head : DefinitionHead) (start : Nat) (front : Text)
    (params : ParamCode) (body : BlockCode) (after : Text) :
    functionDefinition?
      (front ++ '(' :: (params.text ++ ')' :: ' ' :: '{' :: (body.text ++ '}' :: after)))
        ⟨start, front.length, head⟩ =
      some
        { name := head.name
          exported := head.exported
          params := trim params.text
          variableType? := none
          body := body.text
          concise := false
          start
          stop := front.length + (printFunction params body).length } := by
  have block : front ++ '(' :: (params.text ++ ')' :: ' ' :: '{' :: (body.text ++ '}' :: after)) =
      (front ++ '(' :: (params.text ++ [')', ' '])) ++ '{' :: (body.text ++ '}' :: after) := by
    simp
  have paramsEnd : bracketEndAt?
      (front ++ '(' :: (params.text ++ ')' :: ' ' :: '{' :: (body.text ++ '}' :: after)))
      front.length = some (front.length + params.text.length + 2) :=
    bracketEndAt?_nested params.nested params.plain .round front
      (' ' :: '{' :: (body.text ++ '}' :: after))
  have bodyEnd : bracketEndAt?
      ((front ++ '(' :: (params.text ++ [')', ' '])) ++ '{' :: (body.text ++ '}' :: after))
      (front ++ '(' :: (params.text ++ [')', ' '])).length =
      some ((front ++ '(' :: (params.text ++ [')', ' '])).length + body.text.length + 2) :=
    bracketEndAt?_nested body.nested body.plain .curly (front ++ '(' :: (params.text ++ [')', ' ']))
      after
  have rest :
      (front ++ '(' :: (params.text ++ ')' :: ' ' :: '{' :: (body.text ++ '}' :: after))).drop
      (front.length + params.text.length + 2) = ' ' :: '{' :: (body.text ++ '}' :: after) := by
    rw [Nat.add_assoc, ← List.drop_drop, List.drop_left]
    simp
  have brace : fromBrace? (' ' :: '{' :: (body.text ++ '}' :: after)) =
      some ('{' :: (body.text ++ '}' :: after)) := rfl
  have stop : (front ++ '(' :: (params.text ++ [')', ' '])).length + body.text.length + 2 =
      front.length + (printFunction params body).length := by
    simp only [printFunction, List.length_append, List.length_cons, List.length_nil]
    omega
  rw [functionDefinition?]
  dsimp only
  rw [paramsEnd]
  simp only [Option.bind_eq_bind, Option.bind_some, rest, brace, slice_bracketed]
  rw [block, List.length_append, Nat.add_sub_cancel, bodyEnd, Option.bind_some,
    slice_bracketed, stop]

/-- The definition of a function is read from its head on. -/
theorem functionDefinition?_written (exported : ExportForm) (name : CapitalName)
    (params : ParamCode) (body : BlockCode) (after : Text) :
    functionDefinition? ((WrittenDefinition.function exported name params body).print ++ after)
        ⟨0, (functionHead exported name).length, ⟨exported.text, name.text, none⟩⟩ =
      some (WrittenDefinition.function exported name params body).definition := by
  have whole : (WrittenDefinition.function exported name params body).print ++ after =
      functionHead exported name ++
        '(' :: (params.text ++ ')' :: ' ' :: '{' :: (body.text ++ '}' :: after)) := by
    simp [WrittenDefinition.print, printFunction]
  rw [whole, functionDefinition?_behind, ← List.length_append]
  rfl

end Recast
