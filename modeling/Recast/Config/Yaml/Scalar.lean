import Recast.Config.Yaml.Cursor
import Recast.Config.Yaml.Fault

/-!
# Scalars

A scalar is written plain, between quotes, or as a block of indented lines. `plainScalar`,
`quotedScalar` and `blockScalar` read the content of a scalar and give the place after it. A line
end inside a plain or quoted scalar is folded: it becomes a space, or the line ends after it if
there are any.
-/

namespace Recast.Yaml

/-! ## Line ends inside a scalar -/

/-- Blank lines and the indentation after them. -/
structure Gap where
  breaks : Text
  length : Nat
  /-- Whether the end of the document stops the gap. -/
  ends : Bool

/-- Reads blank lines up to the next content. -/
def blankLines (isFill : Char → Bool) (startsLine : Bool) : Text → Gap
  | [] => ⟨[], 0, false⟩
  | c :: cs =>
    if startsLine && endsDocument (c :: cs) then ⟨[], 0, true⟩
    else if isFill c then
      let gap := blankLines isFill false cs
      ⟨gap.breaks, gap.length + 1, gap.ends⟩
    else if isBreak c then
      let gap := blankLines isFill true cs
      ⟨breakText c ++ gap.breaks, gap.length + 1, gap.ends⟩
    else ⟨[], 0, false⟩

/-- What a line end and the blank lines after it become. -/
def foldBreaks (first : Char) (breaks : Text) : Text :=
  if breakText first ≠ ['\n'] then breakText first ++ breaks
  else if breaks.isEmpty then [' ']
  else breaks

/-! ## Plain scalars -/

/-- The characters of a plain scalar up to a space, a line end or an indicator. -/
def plainRun (flow : Bool) : Text → Text
  | [] => []
  | c :: cs =>
    if isSpace c || isBreak c then []
    else if c == ':' && (endsWord cs || (flow && cs.head?.any ",[]\x7b\x7d".toList.contains)) then
      []
    else if flow && ",?[]\x7b\x7d".toList.contains c then []
    else c :: plainRun flow cs

/-- A plain scalar and the place after it and the spaces that follow; `crossed` says whether that is
on a new line. -/
structure PlainScalar where
  content : Text
  stop : Cursor
  crossed : Bool

/-- What stands between two runs of a plain scalar: its text, its length, and whether it crosses a
line end. -/
def plainGap (t : Text) : Text × Nat × Bool :=
  let spaces := t.takeWhile (· == ' ')
  match t.dropWhile (· == ' ') with
  | [] => (spaces, spaces.length, false)
  | c :: cs =>
    if isBreak c then
      let gap := blankLines (· == ' ') true cs
      (if gap.ends then [] else foldBreaks c gap.breaks, spaces.length + 1 + gap.length, true)
    else (spaces, spaces.length, false)

/-- Reads a plain scalar, run after run; lines that go on with it have to be indented by
`indent`. -/
def plainFrom (flow : Bool) (indent : Int) : Nat → Cursor → PlainScalar
  | 0, cursor => ⟨[], cursor, false⟩
  | fuel + 1, cursor =>
    let run := if cursor.rest.head? = some '#' then [] else plainRun flow cursor.rest
    if run.isEmpty then ⟨[], cursor, false⟩
    else
      let after := cursor.advance run.length
      let (gap, length, crossed) := plainGap after.rest
      let next := after.advance length
      if gap.isEmpty || next.rest.head? = some '#' || (!flow && (next.column : Int) < indent) then
        ⟨run, next, crossed⟩
      else
        let more := plainFrom flow indent fuel next
        if more.content.isEmpty then ⟨run, next, crossed⟩
        else ⟨run ++ gap ++ more.content, more.stop, more.crossed⟩

/-- The plain scalar at a place. -/
def plainScalar (flow : Bool) (indent : Int) (cursor : Cursor) : PlainScalar :=
  plainFrom flow indent cursor.rest.length cursor

/-! ## Quoted scalars -/

/-- The character that an escape of one letter stands for. -/
def escapedChar? : Char → Option Char
  | '0' => some (Char.ofNat 0)
  | 'a' => some (Char.ofNat 7)
  | 'b' => some (Char.ofNat 8)
  | 't' => some '\t'
  | '\t' => some '\t'
  | 'n' => some '\n'
  | 'v' => some (Char.ofNat 11)
  | 'f' => some (Char.ofNat 12)
  | 'r' => some '\r'
  | 'e' => some (Char.ofNat 27)
  | ' ' => some ' '
  | '"' => some '"'
  | '\\' => some '\\'
  | '/' => some '/'
  | 'N' => some (Char.ofNat 0x85)
  | '_' => some (Char.ofNat 0xA0)
  | 'L' => some (Char.ofNat 0x2028)
  | 'P' => some (Char.ofNat 0x2029)
  | _ => none

/-- How many hexadecimal digits follow an escape. -/
def escapeSize? : Char → Option Nat
  | 'x' => some 2
  | 'u' => some 4
  | 'U' => some 8
  | _ => none

/-- The number that hexadecimal digits stand for, if there are as many as asked for. -/
def hexNumber? (size : Nat) (t : Text) : Option Nat :=
  let digits := t.take size
  if digits.length = size && digits.all (isBaseDigit 16) then some (numberOf 16 digits) else none

/-- What an escape stands for, and the text after it. -/
def readEscape : Text → Except Fault (Wide × Text)
  | [] => .error .malformed
  | c :: cs =>
    match escapedChar? c, escapeSize? c with
    | some e, _ => .ok ([.char e], cs)
    | none, some size =>
      match hexNumber? size cs with
      | none => .error .malformed
      | some n =>
        match CodePoint.ofNat? n with
        | some point => .ok ([point], cs.drop size)
        | none => .error (.noValue (.noCharacter n))
    | none, none =>
      if isBreak c then
        let gap := blankLines isSpace true cs
        if gap.ends then .error .malformed else .ok (.ofText gap.breaks, cs.drop gap.length)
      else .error .malformed

/-- Reads on inside quotes; gives the content and the text after the closing quote. -/
def quotedFrom (double : Bool) : Nat → Text → Except Fault (Wide × Text)
  | 0, _ => .error .malformed
  | _, [] => .error .malformed
  | fuel + 1, c :: cs =>
    if double && c == '\\' then do
      let (content, rest) ← readEscape cs
      let (more, rest) ← quotedFrom double fuel rest
      return (content ++ more, rest)
    else if !double && c == '\'' && cs.head? = some '\'' then do
      let (more, rest) ← quotedFrom double fuel (cs.drop 1)
      return (.char '\'' :: more, rest)
    else if c == (if double then '"' else '\'') then .ok ([], cs)
    else if isBreak c then
      let gap := blankLines isSpace true cs
      if gap.ends then .error .malformed
      else do
        let (more, rest) ← quotedFrom double fuel (cs.drop gap.length)
        return (.ofText (foldBreaks c gap.breaks) ++ more, rest)
    else if isSpace c && (cs.dropWhile isSpace).head?.any isBreak then
      quotedFrom double fuel (cs.dropWhile isSpace)
    else do
      let (more, rest) ← quotedFrom double fuel cs
      return (.char c :: more, rest)

/-- The quoted scalar at a place, whose quote has not been read. -/
def quotedScalar (double : Bool) (cursor : Cursor) : Except Fault (Wide × Cursor) := do
  let (content, rest) ← quotedFrom double cursor.rest.length (cursor.rest.drop 1)
  return (content, cursor.moveTo rest)

/-! ## Block scalars -/

/-- What happens to the line ends after the last line of a block. -/
inductive Chomping where
  /-- None stays. -/
  | strip
  /-- The first stays. -/
  | clip
  /-- All stay. -/
  | keep
  deriving DecidableEq, Repr

/-- The signs after the indicator of a block: chomping and indentation in either order. -/
def blockSigns (t : Text) : Except Fault (Chomping × Option Nat × Text) :=
  let chomping : Text → Option (Chomping × Text)
    | '+' :: cs => some (.keep, cs)
    | '-' :: cs => some (.strip, cs)
    | _ => none
  let indentation : Text → Except Fault (Option Nat × Text)
    | c :: cs =>
      if c == '0' then .error .malformed
      else if '1' ≤ c && c ≤ '9' then .ok (some (c.toNat - '0'.toNat), cs)
      else .ok (none, c :: cs)
    | [] => .ok (none, [])
  match chomping t with
  | some (kind, cs) => (indentation cs).map fun (size, cs) => (kind, size, cs)
  | none =>
    (indentation t).map fun (size, cs) =>
      match size, chomping cs with
      | some _, some (kind, cs) => (kind, size, cs)
      | _, _ => (.clip, size, cs)

/-- The place on the line after the indicator of a block; only a comment may follow the
indicator. -/
def blockStart (cursor : Cursor) : Except Fault Cursor :=
  let cursor' := cursor.skipWhile (· == ' ')
  let cursor' := if cursor'.rest.head? = some '#' then cursor'.skipWhile (!isBreak ·) else cursor'
  if endsWord cursor.rest && cursor.rest.head? ≠ some '\t' && endsLine cursor'.rest then
    .ok (cursor'.advance 1)
  else .error .malformed

/-- Skips the blank lines before a block; gives them, the widest indentation and the place of the
content. -/
def blockIndentation : Nat → Cursor → Text × Nat × Cursor
  | 0, cursor => ([], 0, cursor)
  | fuel + 1, cursor =>
    match cursor.rest with
    | [] => ([], 0, cursor)
    | c :: _ =>
      let next := cursor.advance 1
      if c == ' ' then
        let (breaks, width, stop) := blockIndentation fuel next
        (breaks, max next.column width, stop)
      else if isBreak c then
        let (breaks, width, stop) := blockIndentation fuel next
        (breakText c ++ breaks, width, stop)
      else ([], 0, cursor)

/-- Skips the blank lines inside a block. -/
def blockBreaks (indent : Nat) : Nat → Cursor → Text × Cursor
  | 0, cursor => ([], cursor)
  | fuel + 1, cursor =>
    let spaces := (cursor.rest.takeWhile (· == ' ')).length
    let cursor := cursor.advance (min spaces (indent - cursor.column))
    match cursor.rest with
    | [] => ([], cursor)
    | c :: _ =>
      if isBreak c then
        let (breaks, stop) := blockBreaks indent fuel (cursor.advance 1)
        (breakText c ++ breaks, stop)
      else ([], cursor)

/-- The lines of a block. -/
structure Block where
  content : Text
  /-- The line end of the last line. -/
  lastBreak : Text
  /-- The blank lines after it. -/
  breaks : Text
  stop : Cursor

/-- Reads the lines of a block after the given blank lines. -/
def blockLines (folded : Bool) (indent : Nat) : Nat → Text → Cursor → Block
  | 0, breaks, cursor => ⟨[], [], breaks, cursor⟩
  | fuel + 1, breaks, cursor =>
    if cursor.column ≠ indent || cursor.rest.isEmpty then ⟨[], [], breaks, cursor⟩
    else
      let line := cursor.rest.takeWhile (!isBreak ·)
      let lineEnd := cursor.advance line.length
      let lastBreak := (lineEnd.rest.take 1).flatMap breakText
      let (breaks', next) := blockBreaks indent (lineEnd.rest.length + 1) (lineEnd.advance 1)
      if next.column ≠ indent || next.rest.isEmpty then ⟨breaks ++ line, lastBreak, breaks', next⟩
      else
        let between :=
          if folded && lastBreak = ['\n'] && !cursor.rest.head?.any isSpace &&
            !next.rest.head?.any isSpace then
            if breaks'.isEmpty then [' '] else []
          else lastBreak
        let more := blockLines folded indent fuel breaks' next
        ⟨breaks ++ line ++ between ++ more.content, more.lastBreak, more.breaks, more.stop⟩

/-- The block scalar at a place, whose indicator has not been read. The lines have to be indented
more than `indent`. -/
def blockScalar (folded : Bool) (indent : Int) (cursor : Cursor) :
    Except Fault (Text × Cursor) := do
  let (chomping, size, rest) ← blockSigns (cursor.rest.drop 1)
  let start ← blockStart (cursor.moveTo rest)
  let least := max 1 (indent + 1).toNat
  let fuel := start.rest.length + 1
  let (width, breaks, start) := match size with
    | some size =>
      let width := least + size - 1
      let (breaks, start) := blockBreaks width fuel start
      (width, breaks, start)
    | none =>
      let (breaks, width, start) := blockIndentation fuel start
      (max least width, breaks, start)
  let block := blockLines folded width fuel breaks start
  let tail := match chomping with
    | .strip => []
    | .clip => block.lastBreak
    | .keep => block.lastBreak ++ block.breaks
  return (block.content ++ tail, block.stop)

end Recast.Yaml
