import Recast.Markup.Attribute
import Recast.Markup.ListCall
import Recast.Scope.Binding

/-!
# Scans on a limited stack

The functions that pass over nested text call each other, and the runtime has room for so many open
calls only. A `Scan` is one of these calls with what it is given, and `Scan.inner` lists the calls
that it makes itself, in order. Each goes over its text in a loop, which looks at a character,
calls what has to be passed over from there, and goes on behind it (`Look`, `scansFrom`).

`Scan.failure?` says how a scan fails if there is room for `limit` calls: the calls may nest too
deeply, a character may be read behind the end of the text, and a bracket may be asked for where
none opens.
-/

namespace Recast

/-- Why a conversion ends without a result. -/
inductive Failure where
  /-- Markup cannot be read. -/
  | markup (fault : MarkupFault)
  /-- Calls nest more deeply than the runtime allows. -/
  | overflow
  /-- A character is read behind the end of a text. -/
  | outOfRange
  /-- A table is asked for a key that it does not have. -/
  | unknownKey (key : Text)
  deriving DecidableEq, Repr

/-- What is reported. -/
def Failure.message : Failure → Text
  | .markup fault => fault.message
  | .overflow => "maximum recursion depth exceeded".toList
  | .outOfRange => "string index out of range".toList
  | .unknownKey key => "'".toList ++ key ++ "'".toList

/-- A call of a function that others call again in turn. -/
inductive Scan where
  /-- Passes over the literal at an offset. -/
  | literal (t : Text) (pos : Nat)
  /-- Passes over the bracket at an offset. -/
  | bracket (t : Text) (pos : Nat)
  /-- Passes over the opening tag at an offset. -/
  | tag (t : Text) (pos : Nat)
  /-- Reads tokens from an offset on: all of them, or those of the element that starts there, of
  which `level` are open. -/
  | tokens (t : Text) (pos : Nat) (level : Option Nat)
  /-- Passes over the element at an offset. -/
  | element (t : Text) (pos : Nat)
  /-- Masks the code between two offsets. -/
  | maskCode (t : Text) (pos stop : Nat)
  /-- Masks the template literal at an offset, in code that ends at `stop`. -/
  | maskTemplate (t : Text) (pos stop : Nat)
  /-- Collects the names that a pattern binds. -/
  | patternNames (pattern : Text)
  /-- Looks for the markup that the body of a callback renders. -/
  | callbackMarkup (body : Text)

/-! ## Loops -/

/-- What a loop does at a character, with the text before it read backwards: the scans it makes, and
the offset and the state it goes on with, if it goes on. -/
abbrev Look (σ : Type) :=
  σ → (behind : Text) → (pos : Nat) → Char → Text → List Scan × Option (Nat × σ)

/-- The scans of a loop from `pos` on; characters before `resume` are not looked at. -/
def scansFrom {σ : Type} (look : Look σ) (state : σ) (behind : Text) (pos resume : Nat) :
    Text → List Scan
  | [] => []
  | c :: cs =>
    if pos < resume then scansFrom look state (c :: behind) (pos + 1) resume cs
    else
      match look state behind pos c cs with
      | (scans, none) => scans
      | (scans, some (next, state)) => scans ++ scansFrom look state (c :: behind) (pos + 1) next cs

/-- The scans of a loop over a text from an offset on. -/
def scansAt {σ : Type} (look : Look σ) (state : σ) (t : Text) (start : Nat) : List Scan :=
  scansFrom look state (t.take start).reverse start 0 (t.drop start)

/-- The look inside a literal. -/
def literalLook (t : Text) (quote : Char) : Look Unit := fun _ _ pos c cs =>
  if c = '\\' then ([], some (pos + 2, ()))
  else if c = quote then ([], none)
  else if quote = '`' && c = '$' && cs.head? = some '{' then
    ([.bracket t (pos + 1)], (bracketEndAt? t (pos + 1)).map fun stop => (stop, ()))
  else ([], some (pos + 1, ()))

/-- The look inside a bracket, of which `depth` are open. -/
def bracketLook (t : Text) (kind : Bracket) : Look Nat := fun depth behind pos c cs =>
  if isQuote c then ([.literal t pos], some (literalEndAt t pos, depth))
  else if c = '<' && opensMarkup behind cs then
    match elementEndAt t pos with
    | .ok (some stop) => ([.element t pos], some (stop, depth))
    | _ => ([.element t pos], some (pos + 1, depth))
  else
    match commentEnd? pos c cs with
    | some stop => ([], some (stop, depth))
    | none =>
      if c = kind.opener then ([], some (pos + 1, depth + 1))
      else if c = kind.closer then
        ([], if depth = 1 then none else some (pos + 1, depth - 1))
      else ([], some (pos + 1, depth))

/-- The look inside an opening tag. -/
def tagLook (t : Text) : Look Unit := fun _ _ pos c _ =>
  if c = '"' || c = '\'' then ([.literal t pos], some (literalEndAt t pos, ()))
  else if c = '{' then ([.bracket t pos], (bracketEndAt? t pos).map fun stop => (stop, ()))
  else if c = '>' then ([], none)
  else ([], some (pos + 1, ()))

/-- How many elements are open after a token, as long as tokens are read. -/
def levelAfter : Option Nat → Token.Kind → Option (Option Nat)
  | none, _ => some none
  | some 0, .opening => some (some 1)
  | some 0, _ => none
  | some (level + 1), .opening => some (some (level + 2))
  | some (level + 1), .closing => if level = 0 then none else some (some level)
  | some (level + 1), _ => some (some (level + 1))

/-- The scan of the tag or expression that starts with the character `c` at `pos`. -/
def markScans (t : Text) (pos : Nat) (c : Char) (cs : Text) : List Scan :=
  if c = '{' then [.bracket t pos]
  else if c = '<' && opensTag cs && cs.head? != some '/' then [.tag t pos]
  else []

/-- The look between tags. An element has to start with its own tag. -/
def tokensLook (t : Text) : Look (Option Nat) := fun level _ pos c cs =>
  match markAt pos c cs with
  | none => ([], if level = some 0 then none else some (pos + 1, level))
  | some (.error _) => (markScans t pos c cs, none)
  | some (.ok token) =>
    (markScans t pos c cs, (levelAfter level token.kind).map fun level => (token.stop, level))

/-- The look at the top level of code; with `one` the search ends at the first match. -/
def topLevelLook (t : Text) (pattern : Pattern) (one : Bool) : Look Unit := fun _ behind pos c cs =>
  let rest : Option (Nat × Unit) :=
    match pattern behind (c :: cs) with
    | some size => if one then none else some (max (pos + size) (pos + 1), ())
    | none => some (pos + 1, ())
  if isQuote c then ([.literal t pos], some (literalEndAt t pos, ()))
  else if isOpener c then ([.bracket t pos], some ((bracketEndAt? t pos).getD t.length, ()))
  else if c = '<' && opensMarkup behind cs then
    match elementEndAt t pos with
    | .ok (some stop) => ([.element t pos], some (stop, ()))
    | _ => ([.element t pos], rest)
  else
    match commentEnd? pos c cs with
    | some stop => ([], some (stop, ()))
    | none => ([], rest)

/-- The look between separators. -/
def pieceLook (t : Text) : Look Unit := fun _ _ pos c _ =>
  if isQuote c then ([.literal t pos], some (literalEndAt t pos, ()))
  else if isOpener c then ([.bracket t pos], some ((bracketEndAt? t pos).getD t.length, ()))
  else ([], some (pos + 1, ()))

/-- The look for an element in code. -/
def markupLook (t : Text) : Look Unit := fun _ behind pos c cs =>
  if isQuote c then ([.literal t pos], some (literalEndAt t pos, ()))
  else if c = '<' && opensMarkup behind cs then ([], none)
  else ([], some ((commentEnd? pos c cs).getD (pos + 1), ()))

/-- The look inside type arguments, of which `depth` are open. -/
def angleLook (t : Text) : Look Int := fun depth _ pos c _ =>
  if isOpener c then ([.bracket t pos], (bracketEndAt? t pos).map fun stop => (stop, depth))
  else if c = '<' then ([], some (pos + 1, depth + 1))
  else if c = '>' then ([], if depth = 1 then none else some (pos + 1, depth - 1))
  else ([], some (pos + 1, depth))

/-- Where the value of an attribute starts, when the text `t` at `pos` follows its name. -/
def valueStart? (pos : Nat) (t : Text) : Option Nat :=
  match trimStart t with
  | '=' :: rest => some (pos + t.length - (trimStart rest).length)
  | _ => none

/-- The scan of the attribute value that starts at an offset. -/
def valueScans (t : Text) (start : Nat) : List Scan :=
  match (t.drop start).head? with
  | some c =>
    if c = '"' || c = '\'' then [.literal t start] else if c = '{' then [.bracket t start] else []
  | none => []

/-- The look between attributes. -/
def attributeLook (t : Text) : Look Unit := fun _ _ pos c cs =>
  if c = '{' then ([.bracket t pos], (bracketEndAt? t pos).map fun stop => (stop, ()))
  else if isNameStart c then
    let name := tagName (c :: cs)
    let after := (c :: cs).drop name.length
    (((valueStart? (pos + name.length) after).map (valueScans t)).getD [],
      some ((namedAttribute name (pos + name.length) after).2, ()))
  else ([], some (pos + 1, ()))

/-- The look at code to be masked, up to `stop`. -/
def maskCodeLook (t : Text) (stop : Nat) : Look Unit := fun _ _ pos c cs =>
  if stop ≤ pos then ([], none)
  else if c = '"' || c = '\'' then ([.literal t pos], some (min (literalEndAt t pos) stop, ()))
  else if c = '`' then
    ([.maskTemplate t pos stop], some (min (literalEndAt t pos) stop, ()))
  else ([], some ((commentEnd? pos c cs).getD (pos + 1), ()))

/-- The look at a template literal to be masked, in code that ends at `stop`. -/
def maskTemplateLook (t : Text) (stop : Nat) : Look Unit := fun _ _ pos c cs =>
  if stop ≤ pos then ([], none)
  else if c = '\\' then ([], some (pos + 2, ()))
  else if c = '`' then ([], none)
  else if c = '$' && pos + 1 < stop && cs.head? = some '{' then
    match (bracketEndAt? t (pos + 1)).filter (· ≤ stop) with
    | some close =>
      ([.bracket t (pos + 1), .maskCode t (pos + 2) (close - 1)], some (close, ()))
    | none => ([.bracket t (pos + 1)], none)
  else ([], some (pos + 1, ()))

/-- The scans that cut a text at separators. -/
def pieceScans (t : Text) : List Scan :=
  scansAt (pieceLook t) () t 0

/-- The scans that search the top level of code from an offset on. -/
def topLevelScans (t : Text) (pattern : Pattern) (one : Bool) (start : Nat) : List Scan :=
  scansAt (topLevelLook t pattern one) () t start

/-! ## The scans of a scan -/

/-- The scans that reading one target of a pattern makes. -/
def targetScans : Text → List Scan
  | [] => []
  | c :: rest =>
    if c = '[' || c = '{' then
      .bracket (c :: rest) 0 ::
        match bracketEndAt? (c :: rest) 0 with
        | none => []
        | some stop =>
          let inside := slice rest 0 (stop - 2)
          if c = '[' then [.patternNames inside]
          else
            pieceScans inside
              ++ (splitTopLevel isComma inside).map fun entry => .patternNames (entryTarget entry)
    else []

/-- The scans that looking for the markup of a callback makes. -/
def callbackScans : Text → List Scan
  | [] => []
  | c :: rest =>
    if c = '<' then [.element (c :: rest) 0]
    else if c = '(' then [.bracket (c :: rest) 0]
    else if c = '{' then
      .bracket (c :: rest) 0 ::
        match bracketEndAt? (c :: rest) 0 with
        | none => []
        | some stop =>
          let inside := slice rest 0 (stop - 2)
          topLevelScans inside returnWord false 0
            ++ match (topLevelMatches inside returnWord 0).getLast? with
              | some statement => [.callbackMarkup (trim (inside.drop statement.stop))]
              | none => []
    else []

/-- The scans that a scan makes itself, in order. -/
def Scan.inner : Scan → List Scan
  | .literal t pos =>
    match (t.drop pos).head? with
    | some quote => scansAt (literalLook t quote) () t (pos + 1)
    | none => []
  | .bracket t pos =>
    match (t.drop pos).head?.bind Bracket.ofOpener? with
    | some kind => scansAt (bracketLook t kind) 0 t pos
    | none => []
  | .tag t pos => scansAt (tagLook t) () t (pos + 1 + (tagNameAt t pos).length)
  | .tokens t pos level => scansAt (tokensLook t) level t pos
  | .element t pos => [.tokens t pos (some 0)]
  | .maskCode t pos stop => scansAt (maskCodeLook t stop) () t pos
  | .maskTemplate t pos stop => scansAt (maskTemplateLook t stop) () t (pos + 1)
  | .patternNames pattern =>
    pieceScans pattern
      ++ (splitTopLevel isComma pattern).flatMap fun element => targetScans (bindingTarget element)
  | .callbackMarkup body => callbackScans body

/-! ## Failing -/

/-- How a scan fails by itself: it reads the character at its offset and looks its bracket up, or
it reads on until its end is reached. -/
def Scan.misuse? : Scan → Option Failure
  | .literal t pos => if pos < t.length then none else some .outOfRange
  | .bracket t pos =>
    match (t.drop pos).head? with
    | none => some .outOfRange
    | some c => if isOpener c then none else some (.unknownKey [c])
  | .maskCode t _ stop => if stop ≤ t.length then none else some .outOfRange
  | .maskTemplate t _ stop => if stop ≤ t.length then none else some .outOfRange
  | _ => none

/-- How a scan fails if there is room for `limit` calls, its own included. -/
def Scan.failure? : Nat → Scan → Option Failure
  | 0, _ => some .overflow
  | limit + 1, scan =>
    match scan.misuse? with
    | some failure => some failure
    | none => scan.inner.findSome? (Scan.failure? limit)

end Recast
