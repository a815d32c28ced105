import Recast.Component.Hook
import Recast.Text.Length

/-!
# Local bindings

`bindingScopes` lists the places of masked code where names are bound again: the parameters of arrow
functions and of functions, and declared variables. `patternNames` gives the names that a parameter
list or destructuring pattern binds.
-/

namespace Recast

/-! ## Names bound by a pattern -/

/-- The offset of the first closing bracket without its opening one, or of the first stop character
outside brackets, from `pos` on. -/
def expressionEndFrom (isStop : Char → Bool) (depth pos : Nat) : Text → Nat
  | [] => pos
  | c :: cs =>
    if isOpener c then expressionEndFrom isStop (depth + 1) (pos + 1) cs
    else if isCloser c then
      if depth = 0 then pos else expressionEndFrom isStop (depth - 1) (pos + 1) cs
    else if isStop c && depth = 0 then pos
    else expressionEndFrom isStop depth (pos + 1) cs

/-- Where an expression that starts at `pos` ends. -/
def expressionEnd (isStop : Char → Bool) (code : Text) (pos : Nat) : Nat :=
  expressionEndFrom isStop 0 pos (code.drop pos)

/-- Whether an equals sign between two characters belongs to a comparison or an arrow. -/
def isCompoundEquals (previous next : Option Char) : Bool :=
  (match next with
    | some c => c == '=' || c == '>'
    | none => false)
  || match previous with
    | some c => c == '=' || c == '!' || c == '<' || c == '>'
    | none => false

/-- The text before the first assignment outside brackets. -/
def dropDefaultFrom (depth : Int) (previous : Option Char) : Text → Text
  | [] => []
  | c :: cs =>
    if isOpener c then c :: dropDefaultFrom (depth + 1) (some c) cs
    else if isCloser c then c :: dropDefaultFrom (depth - 1) (some c) cs
    else if c = '=' && depth = 0 && !isCompoundEquals previous cs.head? then []
    else c :: dropDefaultFrom depth (some c) cs

/-- A part of a pattern without its default value. -/
def dropDefault (t : Text) : Text :=
  trim (dropDefaultFrom 0 none (trim t))

/-- What an element of a pattern binds, without its default value and spread dots. -/
def bindingTarget (element : Text) : Text :=
  match dropHead? "...".toList (dropDefault element) with
  | some rest => trimStart rest
  | none => dropDefault element

/-- What an entry of an object pattern binds: the part after its key, or the entry itself. -/
def entryTarget (entry : Text) : Text :=
  let entry := dropDefault entry
  let colon := expressionEnd (· == ':') entry 0
  if startsWith entry "...".toList || colon = entry.length then entry else entry.drop (colon + 1)

theorem length_dropDefaultFrom_le (depth : Int) (previous : Option Char) (t : Text) :
    (dropDefaultFrom depth previous t).length ≤ t.length := by
  induction t generalizing depth previous with
  | nil => simp [dropDefaultFrom]
  | cons c cs ih =>
    rw [dropDefaultFrom]
    split
    · simpa using ih _ _
    · split
      · simpa using ih _ _
      · split
        · simp
        · simpa using ih _ _

theorem length_dropDefault_le (t : Text) : (dropDefault t).length ≤ t.length :=
  Nat.le_trans (length_trim_le _)
    (Nat.le_trans (length_dropDefaultFrom_le _ _ _) (length_trim_le _))

theorem length_bindingTarget_le (t : Text) : (bindingTarget t).length ≤ t.length := by
  rw [bindingTarget]
  split
  · rename_i rest h
    exact Nat.le_trans (length_trimStart_le _)
      (Nat.le_trans (length_dropHead?_le h) (length_dropDefault_le _))
  · exact length_dropDefault_le _

theorem length_entryTarget_le (t : Text) : (entryTarget t).length ≤ t.length := by
  simp only [entryTarget]
  split
  · exact length_dropDefault_le _
  · exact Nat.le_trans (List.drop_sublist _ _).length_le (length_dropDefault_le _)

/-- The names that a parameter list or destructuring pattern binds. -/
def patternNames (pattern : Text) : List Text :=
  (pieceSpans isComma 0 0 0 pattern).flatMap fun element =>
    match _ : bindingTarget (element.of pattern) with
    | [] => []
    | c :: rest =>
      if c = '[' || c = '{' then
        match bracketEndAt? (c :: rest) 0 with
        | none => []
        | some stop =>
          let inner := slice rest 0 (stop - 2)
          if c = '[' then patternNames inner
          else (pieceSpans isComma 0 0 0 inner).flatMap fun entry =>
            patternNames (entryTarget (entry.of inner))
      else (identifier? (c :: rest)).toList
termination_by pattern.length
decreasing_by
  all_goals
    have target := length_bindingTarget_le (element.of pattern)
    have whole := length_slice_le pattern element.start element.stop
    have bound := length_slice_le rest 0 (stop - 2)
    rw [‹bindingTarget _ = _›, List.length_cons] at target
    simp only [Span.of] at target
  · omega
  · have key := length_entryTarget_le (entry.of (slice rest 0 (stop - 2)))
    have part := length_slice_le (slice rest 0 (stop - 2)) entry.start entry.stop
    simp only [Span.of] at key ⊢
    omega

/-! ## Scopes -/

/-- A range of offsets in which some names are bound. -/
structure BindingScope where
  start : Nat
  stop : Nat
  names : List Text
  deriving DecidableEq, Repr

/-- The place and text of the parameters in round brackets that end a text, which is read
backwards. -/
def bracketedParams? (code behind : Text) : Option (Nat × Text) :=
  match behind with
  | ')' :: before =>
    (openerBehind? 0 behind).map fun opening => (opening, slice code (opening + 1) before.length)
  | _ => none

/-- The place and text of the parameters of the arrow at an offset: a bracketed list, one name, or a
bracketed list with a type name after it. -/
def arrowParamsBefore? (code : Text) (arrow : Nat) : Option (Nat × Text) :=
  let behind := (code.take arrow).reverse.dropWhile isBlank
  if behind.head? = some ')' then bracketedParams? code behind
  else
    let name := behind.takeWhile isNameChar
    let before := behind.dropWhile isNameChar
    if name.isEmpty then none
    else
      let annotated? :=
        match before.dropWhile isBlank with
        | ':' :: list => bracketedParams? code (list.dropWhile isBlank)
        | _ => none
      some (annotated?.getD (before.length, name.reverse))

/-- A comma or a semicolon ends an expression. -/
def endsExpression (c : Char) : Bool :=
  c == ',' || c == ';'

/-- Where the body that starts after `pos` ends: a block at its brace, an expression where it
ends. -/
def bodyEnd (code : Text) (pos : Nat) : Nat :=
  let start := code.length - (trimStart (code.drop pos)).length
  if (code.drop start).head? = some '{' then (bracketEndAt? code start).getD code.length
  else expressionEnd endsExpression code start

/-- The scope of the parameters of an arrow function. -/
def arrowScope? (code : Text) (arrow : Occurrence Unit) : Option BindingScope :=
  (arrowParamsBefore? code arrow.start).map fun (start, pattern) =>
    ⟨start, bodyEnd code arrow.stop, patternNames pattern⟩

/-- Whether a text that is read backwards ends in the opening of a `for` loop. -/
def opensLoop (behind : Text) : Bool :=
  match behind.dropWhile isBlank with
  | '(' :: before =>
    match dropHead? "for".toList.reverse (before.dropWhile isBlank) with
    | some rest => startsUnqualified rest
    | none => false
  | _ => false

/-- The pattern that a declaration binds, at the offset after its keyword. -/
def declaredPattern? (code : Text) (target : Nat) : Option Text :=
  let rest := code.drop target
  if rest.head? = some '{' || rest.head? = some '[' then
    (bracketEndAt? code target).map fun stop => slice code target stop
  else identifier? rest

/-- The scope of a declaration: to the end of the enclosing block, or of the loop that it is the
header of. -/
def declarationScope? (code : Text) (declaration : Occurrence Unit) : Option BindingScope :=
  (declaredPattern? code declaration.stop).map fun pattern =>
    let block := expressionEnd (fun _ => false) code declaration.start
    let stop :=
      if opensLoop (code.take declaration.start).reverse && block <
        code.length then bodyEnd code (block + 1)
      else block
    ⟨declaration.start, stop, patternNames pattern⟩

/-- The scope of the parameters of a function, whose list opens at the end of the occurrence. -/
def functionScope? (code : Text) (function : Occurrence Unit) : Option BindingScope := do
  let start := function.stop
  let paramsEnd ← bracketEndAt? code start
  let brace ← offsetOf? (· == '{') paramsEnd (code.drop paramsEnd)
  let stop ← bracketEndAt? code brace
  some ⟨start, stop, patternNames (slice code (start + 1) (paramsEnd - 1))⟩

/-- The arrow of a function. -/
def arrowToken : Recogniser Unit := fun _ ahead =>
  if startsWith ahead "=>".toList then some ((), 2) else none

/-- The keyword of a declaration with the blanks after it. -/
def declarationToken : Recogniser Unit := fun behind ahead => do
  if !startsUnqualified behind then none
  let rest ← declarationKeyword? ahead
  some (covers () ahead rest)

/-- A function up to its parameter list. -/
def functionToken : Recogniser Unit := fun behind ahead => do
  if !startsUnqualified behind then none
  let rest ← dropHead? "function".toList ahead
  if !wordEnds rest then none
  let rest := trimStart rest
  let rest := trimStart ((dropHead? ['*'] rest).getD rest)
  let rest := trimStart (rest.dropWhile isNameChar)
  if rest.head? = some '(' then some (covers () ahead rest) else none

/-- The scopes of every local binding in masked code. -/
def bindingScopes (code : Text) : List BindingScope :=
  (occurrences arrowToken code).filterMap (arrowScope? code)
    ++ (occurrences declarationToken code).filterMap (declarationScope? code)
    ++ (occurrences functionToken code).filterMap (functionScope? code)

/-- Whether a name is bound at an offset. -/
def isBound (scopes : List BindingScope) (name : Text) (pos : Nat) : Bool :=
  scopes.any fun scope => scope.start ≤ pos && pos < scope.stop && scope.names.contains name

end Recast
