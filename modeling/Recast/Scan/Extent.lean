import Recast.Scan.Lexeme

/-!
# Where things end

Strings contain code, code contains markup, and markup contains strings and code, so four scanners
call each other: `literalEnd` for string and template literals, `bracketEnd` for a bracket in code,
`tagEnd` for an opening tag, and `childrenEnd` for what follows an opening tag up to its closing
tag.

Each walks over the text after its opening character and returns an offset of the whole text. `pos`
is the offset of the next character. A nested piece is passed over by setting `resume` to its end:
characters before `resume` are not looked at. So every call is on a shorter text, and no scanner
depends on the text before its opening character.
-/

namespace Recast

mutual

/-- The offset past the closing `quote`, or the end of the text if there is none. A backslash hides
the character after it, and the substitutions of a template literal are code. -/
def literalEnd (quote : Char) (pos resume : Nat) : Text → Nat
  | [] => pos
  | c :: cs =>
    if pos < resume then literalEnd quote (pos + 1) resume cs
    else if c = '\\' then literalEnd quote (pos + 1) (pos + 2) cs
    else if c = quote then pos + 1
    else if quote = '`' && c = '$' then
      match cs with
      | '{' :: inner =>
        match bracketEnd .curly 0 ['{'] (pos + 2) 0 inner with
        | some stop => literalEnd quote (pos + 2) stop inner
        | none => pos + 2 + inner.length
      | rest => literalEnd quote (pos + 1) resume rest
    else literalEnd quote (pos + 1) resume cs
termination_by structural t => t

/-- The offset past the closing bracket in code; `depth` counts the open inner brackets of the same
kind, and `behind` is the text from the opening bracket read backwards. Strings, comments and
complete elements are passed over. -/
def bracketEnd (kind : Bracket) (depth : Nat) (behind : Text) (pos resume : Nat) : Text → Option Nat
  | [] => none
  | c :: cs =>
    if pos < resume then bracketEnd kind depth (c :: behind) (pos + 1) resume cs
    else
      match opaqueEndBy pos c behind cs (fun _ => literalEnd c (pos + 1) 0 cs) (fun _ =>
          elementEndBy (tagEnd (tagName cs) pos '<' (pos + 1) (pos + 1 + (tagName cs).length) cs)
            fun stop => childrenEnd (tagName cs) 0 (pos + 1) stop cs) with
      | some stop => bracketEnd kind depth (c :: behind) (pos + 1) stop cs
      | none =>
        if c = kind.opener then bracketEnd kind (depth + 1) (c :: behind) (pos + 1) resume cs
        else if c = kind.closer then
          if depth = 0 then some (pos + 1)
          else bracketEnd kind (depth - 1) (c :: behind) (pos + 1) resume cs
        else bracketEnd kind depth (c :: behind) (pos + 1) resume cs
termination_by structural t => t

/-- The end of the opening tag `name` that starts at `start`; `previous` is the character before
`pos`. Quoted and braced attribute values are passed over. -/
def tagEnd (name : Text) (start : Nat) (previous : Char) (pos resume : Nat) :
    Text → Except MarkupFault TagEnd
  | [] => .error ⟨.unterminatedTag name, start⟩
  | c :: cs =>
    if pos < resume then tagEnd name start c (pos + 1) resume cs
    else if c = '"' || c = '\'' then
      tagEnd name start c (pos + 1) (literalEnd c (pos + 1) 0 cs) cs
    else if c = '{' then
      match bracketEnd .curly 0 ['{'] (pos + 1) 0 cs with
      | some stop => tagEnd name start c (pos + 1) stop cs
      | none => .error ⟨.unclosedAttribute name, pos⟩
    else if c = '>' then .ok ⟨pos + 1, previous == '/'⟩
    else tagEnd name start c (pos + 1) resume cs
termination_by structural t => t

/-- The offset past the closing tag of the element `name` whose opening tag is already read; `depth`
counts the open inner elements. There is none if the text ends first or the closing tag has another
name. -/
def childrenEnd (name : Text) (depth pos resume : Nat) : Text → Except MarkupFault (Option Nat)
  | [] => .ok none
  | c :: cs =>
    if pos < resume then childrenEnd name depth (pos + 1) resume cs
    else
      match markBy pos c cs (fun _ => bracketEnd .curly 0 ['{'] (pos + 1) 0 cs)
          (fun tag => tagEnd tag pos '<' (pos + 1) (pos + 1 + tag.length) cs) with
      | none => childrenEnd name depth (pos + 1) resume cs
      | some (.error fault) => .error fault
      | some (.ok token) =>
        match token.kind with
        | .opening => childrenEnd name (depth + 1) (pos + 1) token.stop cs
        | .closing =>
          if depth = 0 then .ok (if token.name = name then some token.stop else none)
          else childrenEnd name (depth - 1) (pos + 1) token.stop cs
        | _ => childrenEnd name depth (pos + 1) token.stop cs
termination_by structural t => t

end

/-! ## Scans at an offset of a text -/

/-- The end of the literal whose opening quote, any character, is at `pos`. -/
def literalEndAt (t : Text) (pos : Nat) : Nat :=
  match t.drop pos with
  | quote :: cs => literalEnd quote (pos + 1) 0 cs
  | [] => t.length

/-- The end of the comment at `pos`, if there is one. -/
def commentEndAt? (t : Text) (pos : Nat) : Option Nat :=
  match t.drop pos with
  | c :: cs => commentEnd? pos c cs
  | [] => none

/-- The end of the bracket that opens at `pos`; none if it is never closed or no bracket opens
there. -/
def bracketEndAt? (t : Text) (pos : Nat) : Option Nat :=
  match t.drop pos with
  | c :: cs => (Bracket.ofOpener? c).bind fun kind => bracketEnd kind 0 [c] (pos + 1) 0 cs
  | [] => none

/-- Whether the character at `pos` is a `<` that opens markup. -/
def opensMarkupAt (t : Text) (pos : Nat) : Bool :=
  match t.drop pos with
  | c :: cs => c == '<' && opensMarkup (t.take pos).reverse cs
  | [] => false

/-- The name of the tag that opens at `pos`. -/
def tagNameAt (t : Text) (pos : Nat) : Text :=
  tagName (t.drop (pos + 1))

/-- The end of the opening tag at `pos`. -/
def tagEndAt (t : Text) (pos : Nat) : Except MarkupFault TagEnd :=
  let name := tagNameAt t pos
  tagEnd name pos ((t.drop pos).headD '<') (pos + 1) (pos + 1 + name.length) (t.drop (pos + 1))

/-- The tag or expression that starts with the character `c` at `pos`, if one does. -/
def markAt (pos : Nat) (c : Char) (cs : Text) : Option (Except MarkupFault Token) :=
  markBy pos c cs (fun _ => bracketEnd .curly 0 ['{'] (pos + 1) 0 cs)
    (fun tag => tagEnd tag pos '<' (pos + 1) (pos + 1 + tag.length) cs)

/-- The end of the element that starts with the character `c` at `pos`. There is none if no opening
tag is there, or if it is never closed or closed by a tag of another name. -/
def elementEnd (pos : Nat) (c : Char) (cs : Text) : Except MarkupFault (Option Nat) :=
  match markAt pos c cs with
  | none => .ok none
  | some (.error fault) => .error fault
  | some (.ok token) =>
    match token.kind with
    | .selfClosing => .ok (some token.stop)
    | .opening => childrenEnd token.name 0 (pos + 1) token.stop cs
    | _ => .ok none

/-- The end of the element whose opening tag is at `pos`. -/
def elementEndAt (t : Text) (pos : Nat) : Except MarkupFault (Option Nat) :=
  match t.drop pos with
  | c :: cs => elementEnd pos c cs
  | [] => .ok none

/-- The end of the string, comment or complete element that starts with the character `c` at `pos`
in code. -/
def opaqueEnd? (pos : Nat) (behind : Text) (c : Char) (cs : Text) : Option Nat :=
  opaqueEndBy pos c behind cs (fun _ => literalEnd c (pos + 1) 0 cs) fun _ =>
    elementEnd pos c cs

end Recast
