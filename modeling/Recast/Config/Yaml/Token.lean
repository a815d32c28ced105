import Recast.Config.Yaml.Scalar
import Recast.Text.Utf8

/-!
# Tokens of a document

A `Scanner` cuts a document into its tokens, no further than the reader of the tokens has to look
(`Scanner.supply`). Indentation becomes tokens too: a sequence or mapping of block style starts
where its first entry or key is indented more than what is around it, and ends where a line is
indented less.

That something is a key shows only at the colon after it. Until then every token that may start a
key is remembered as a `KeyCandidate`, one for every level of brackets, and the colon puts the key
token before it. A token that may still turn out to be a key is not handed out.
-/

namespace Recast.Yaml

/-- What a line that starts with a percent sign says. -/
inductive Directive where
  | version (major : Nat)
  | tagHandle (handle start : Text)
  | other
  deriving DecidableEq, Repr

/-- A token of a document. -/
inductive Token where
  | directive (d : Directive)
  | documentStart
  | documentEnd
  | blockSequenceStart
  | blockMappingStart
  | blockEnd
  | flowSequenceStart
  | flowSequenceEnd
  | flowMappingStart
  | flowMappingEnd
  | flowEntry
  | blockEntry
  | key
  | value
  | anchor (name : Text)
  | reference (name : Text)
  | tag (handle? : Option Text) (suffix : Text)
  | scalar (plain : Bool) (content : Wide)
  deriving DecidableEq, Repr

/-- A token that becomes a key if a colon follows on its line. -/
structure KeyCandidate where
  /-- The number of brackets around it. -/
  level : Nat
  /-- How many tokens come before it. -/
  number : Nat
  /-- Whether it has to be a key, because nothing else may stand where it stands. -/
  required : Bool
  index : Nat
  line : Nat
  column : Nat

/-- A document that is cut into tokens up to some place. -/
structure Scanner where
  cursor : Cursor
  /-- The number of brackets around the place. -/
  level : Nat
  /-- The column of the block around the place. -/
  indent : Int
  /-- The columns of the blocks around that one. -/
  outer : List Int
  /-- Whether a key may start here. -/
  keyAllowed : Bool
  candidates : List KeyCandidate
  /-- The tokens that were read and not handed out. -/
  queue : List Token
  /-- How many tokens were handed out. -/
  taken : Nat
  /-- Whether the document has been read to its end. -/
  ended : Bool

namespace Scanner

/-- The start of a document. -/
def start (t : Text) : Scanner :=
  ⟨.start t, 0, -1, [], true, [], [], 0, false⟩

/-- How many tokens were read. -/
def count (s : Scanner) : Nat :=
  s.taken + s.queue.length

/-! ## Keys -/

/-- How far a colon may be from the start of its key. -/
def longestKey : Nat := 1024

/-- Forgets the candidates that a line end or the distance rules out. -/
def dropStale (s : Scanner) : Except Fault Scanner :=
  let isStale (k : KeyCandidate) : Bool :=
    k.line ≠ s.cursor.line || longestKey < s.cursor.index - k.index
  if s.candidates.any fun k => isStale k && k.required then .error .malformed
  else .ok { s with candidates := s.candidates.filter (!isStale ·) }

/-- Forgets the candidate of this level. -/
def dropCandidate (s : Scanner) : Except Fault Scanner :=
  if s.candidates.any fun k => k.level = s.level && k.required then .error .malformed
  else .ok { s with candidates := s.candidates.filter (·.level ≠ s.level) }

/-- Remembers that the next token may be a key. -/
def addCandidate (s : Scanner) : Except Fault Scanner :=
  if s.keyAllowed then do
    let s ← s.dropCandidate
    let required := s.level = 0 && s.indent = s.cursor.column
    let key := ⟨s.level, s.count, required, s.cursor.index, s.cursor.line, s.cursor.column⟩
    return { s with candidates := key :: s.candidates }
  else .ok s

/-! ## Indentation -/

/-- Ends the blocks that are indented more than a column. -/
def closeBlocks (s : Scanner) (column : Int) : Scanner :=
  if s.level = 0 then go s.indent s.outer s.queue else s
where
  /-- Goes outwards, block by block. -/
  go (indent : Int) : List Int → List Token → Scanner
    | [], queue => { s with indent, outer := [], queue }
    | next :: outer, queue =>
      if column < indent then go next outer (queue ++ [.blockEnd])
      else { s with indent, outer := next :: outer, queue }

/-- Puts a token where `number` tokens come before it. -/
def insert (s : Scanner) (number : Nat) (token : Token) : Scanner :=
  let before := number - s.taken
  { s with queue := s.queue.take before ++ token :: s.queue.drop before }

/-- Starts a block at a column if it is indented more than what is around it. The token goes where
`number` tokens come before it. -/
def openBlock (s : Scanner) (token : Token) (column number : Nat) : Scanner :=
  if s.level = 0 && s.indent < column then
    { s.insert number token with indent := column, outer := s.indent :: s.outer }
  else s

/-! ## Single tokens -/

/-- Adds a token that ends at `stop`. -/
def push (s : Scanner) (token : Token) (stop : Cursor) : Scanner :=
  { s with queue := s.queue ++ [token], cursor := stop }

/-- Adds a token of `length` characters. -/
def emit (s : Scanner) (token : Token) (length : Nat) : Scanner :=
  s.push token (s.cursor.advance length)

/-- A marker between documents. -/
def documentMarker (s : Scanner) (token : Token) : Except Fault Scanner := do
  let s ← (s.closeBlocks (-1)).dropCandidate
  return { s with keyAllowed := false }.emit token 3

/-- An opening bracket. -/
def openBracket (s : Scanner) (token : Token) : Except Fault Scanner := do
  let s ← s.addCandidate
  return { s with level := s.level + 1, keyAllowed := true }.emit token 1

/-- A closing bracket. -/
def closeBracket (s : Scanner) (token : Token) : Except Fault Scanner := do
  if s.level = 0 then .error .malformed
  let s ← s.dropCandidate
  return { s with level := s.level - 1, keyAllowed := false }.emit token 1

/-- A comma between brackets. -/
def flowEntry (s : Scanner) : Except Fault Scanner := do
  let s ← s.dropCandidate
  return { s with keyAllowed := true }.emit .flowEntry 1

/-- A dash before an entry of a sequence. -/
def blockEntry (s : Scanner) : Except Fault Scanner := do
  if s.level = 0 && !s.keyAllowed then .error .malformed
  let s ← (s.openBlock .blockSequenceStart s.cursor.column s.count).dropCandidate
  return { s with keyAllowed := true }.emit .blockEntry 1

/-- A question mark before a key. -/
def explicitKey (s : Scanner) : Except Fault Scanner := do
  if s.level = 0 && !s.keyAllowed then .error .malformed
  let s ← (s.openBlock .blockMappingStart s.cursor.column s.count).dropCandidate
  return { s with keyAllowed := s.level = 0 }.emit .key 1

/-- A colon before a value. -/
def mappingValue (s : Scanner) : Except Fault Scanner :=
  match s.candidates.find? (·.level = s.level) with
  | some key =>
    let s := { s with candidates := s.candidates.filter (·.level ≠ s.level) }
    let s := (s.insert key.number .key).openBlock .blockMappingStart key.column key.number
    .ok ({ s with keyAllowed := false }.emit .value 1)
  | none => do
    if s.level = 0 && !s.keyAllowed then .error .malformed
    let s ← (s.openBlock .blockMappingStart s.cursor.column s.count).dropCandidate
    return { s with keyAllowed := s.level = 0 }.emit .value 1

/-- Adds a token that may be a key and that `read` reads, with the place after it. -/
def emitRead (s : Scanner) (read : Cursor → Except Fault (Token × Cursor)) :
    Except Fault Scanner := do
  let s ← s.addCandidate
  let (token, stop) ← read s.cursor
  return { s with keyAllowed := false }.push token stop

/-! ## Anchors and tags -/

/-- A character of an anchor's name or a handle. -/
def isNameChar (c : Char) : Bool :=
  c.isAlphanum || c == '-' || c == '_'

/-- The name of an anchor or a reference, whose sign has not been read. -/
def anchorName (token : Text → Token) (cursor : Cursor) : Except Fault (Token × Cursor) :=
  let rest := cursor.rest.drop 1
  let name := rest.takeWhile isNameChar
  let after := rest.dropWhile isNameChar
  if name.isEmpty || !(endsWord after || after.head?.any "?:,]\x7d%@`".toList.contains) then
    .error .malformed
  else .ok (token name, cursor.advance (name.length + 1))

/-- A character of the name of a tag. -/
def isTagChar (c : Char) : Bool :=
  c.isAlphanum || "-;/?:@&=+$,_.!~*'()[]".toList.contains c

/-- The name of a tag and the text after it. Percent signs stand before the bytes of a character;
`bytes` are those that were read. -/
def tagNameFrom (bytes : Bytes) : Text → Except Fault (Text × Text)
  | '%' :: a :: b :: cs =>
    if isBaseDigit 16 a && isBaseDigit 16 b then
      tagNameFrom (bytes ++ [UInt8.ofNat (numberOf 16 [a, b])]) cs
    else .error .malformed
  | '%' :: _ => .error .malformed
  | c :: cs => do
    let before ← (decode bytes).mapError fun _ => .malformed
    if isTagChar c then
      let (name, rest) ← tagNameFrom [] cs
      return (before ++ c :: name, rest)
    else return (before, c :: cs)
  | [] => do
    let before ← (decode bytes).mapError fun _ => .malformed
    return (before, [])

/-- The name of a tag, which may not be empty, and the text after it. -/
def readTagName (t : Text) : Except Fault (Text × Text) := do
  let (name, rest) ← tagNameFrom [] t
  if name.isEmpty then .error .malformed else .ok (name, rest)

/-- The handle and the name of a tag, and the text after it. -/
def readTag (t : Text) : Except Fault (Option Text × Text × Text) :=
  match t.drop 1 with
  | '<' :: cs => do
    let (name, rest) ← readTagName cs
    match rest with
    | '>' :: rest => .ok (none, name, rest)
    | _ => .error .malformed
  | cs =>
    if endsWord cs then .ok (none, ['!'], cs)
    else
      let hasHandle := (cs.takeWhile fun c => !(c == ' ' || isBreak c)).contains '!'
      let handle := if hasHandle then cs.takeWhile isNameChar ++ ['!'] else []
      match dropHead? handle cs with
      | none => .error .malformed
      | some rest => do
        let (name, rest) ← readTagName rest
        return (some ('!' :: handle), name, rest)

/-- Whether a line or a word before a space ends here. -/
def endsTag (t : Text) : Bool :=
  endsWord t && t.head? ≠ some '\t'

/-- A tag. -/
def tagToken (cursor : Cursor) : Except Fault (Token × Cursor) := do
  let (handle?, name, rest) ← readTag cursor.rest
  if endsTag rest then .ok (.tag handle? name, cursor.moveTo rest) else .error .malformed

/-! ## Directives -/

/-- The number at the start of a text and the text after it. -/
def directiveNumber (t : Text) : Except Fault (Nat × Text) := do
  let digits := t.takeWhile Char.isDigit
  if digits.isEmpty then .error .malformed
  let n ← integer 10 (.ofText digits)
  return (n.toNat, t.dropWhile Char.isDigit)

/-- The version that a directive declares, and the text after it. -/
def versionDirective (t : Text) : Except Fault (Directive × Text) := do
  let (major, rest) ← directiveNumber t
  match rest with
  | '.' :: rest =>
    let (_, rest) ← directiveNumber rest
    if endsTag rest then .ok (.version major, rest) else .error .malformed
  | _ => .error .malformed

/-- The handle that a directive declares, and the text after it. -/
def handleDirective (t : Text) : Except Fault (Directive × Text) := do
  let handle :=
    if startsWith t "! ".toList then ['!'] else '!' :: (t.drop 1).takeWhile isNameChar ++ ['!']
  match dropHead? handle t with
  | some (' ' :: rest) =>
    let (name, rest) ← readTagName (rest.dropWhile (· == ' '))
    if endsTag rest then .ok (.tagHandle handle name, rest) else .error .malformed
  | _ => .error .malformed

/-- The directive on a line, whose sign has been read. -/
def readDirective (line : Text) : Except Fault Directive := do
  let name := line.takeWhile isNameChar
  let rest := line.dropWhile isNameChar
  if name.isEmpty || !endsTag rest then .error .malformed
  let words := rest.dropWhile (· == ' ')
  let (directive, rest) ←
    if name = "YAML".toList then versionDirective words
    else if name = "TAG".toList then handleDirective words
    else .ok (.other, [])
  if (rest.dropWhile (· == ' ')).head?.all (· == '#') then .ok directive else .error .malformed

/-- A directive. -/
def directiveToken (s : Scanner) : Except Fault Scanner := do
  let s ← (s.closeBlocks (-1)).dropCandidate
  let line := s.cursor.rest.takeWhile (!isBreak ·)
  let directive ← readDirective (line.drop 1)
  return { s with keyAllowed := false }.emit (.directive directive) (line.length + 1)

/-! ## Scalars -/

/-- A block scalar. -/
def blockToken (s : Scanner) (folded : Bool) : Except Fault Scanner := do
  let s ← s.dropCandidate
  let (content, stop) ← blockScalar folded s.indent s.cursor
  return { s with keyAllowed := true }.push (.scalar false (.ofText content)) stop

/-- A quoted scalar. -/
def quotedToken (double : Bool) (cursor : Cursor) : Except Fault (Token × Cursor) := do
  let (content, stop) ← quotedScalar double cursor
  return (.scalar false content, stop)

/-- Whether a plain scalar starts with this character. -/
def startsPlain (flow : Bool) (c : Char) (cs : Text) : Bool :=
  !(isSpace c || isBreak c || "-?:,[]\x7b\x7d#&*!|>'\"%@`".toList.contains c)
    || (!endsWord cs && (c == '-' || (!flow && (c == '?' || c == ':'))))

/-- A plain scalar. -/
def plainToken (s : Scanner) : Except Fault Scanner := do
  let found := plainScalar (s.level ≠ 0) (s.indent + 1) s.cursor
  let s ← s.addCandidate
  return { s with keyAllowed := found.crossed }.push (.scalar true (.ofText found.content))
    found.stop

/-! ## From token to token -/

/-- The length of spaces, comments and line ends. -/
def fillLength : Bool → Text → Nat
  | _, [] => 0
  | inComment, c :: cs =>
    if isBreak c then fillLength false cs + 1
    else if inComment then fillLength true cs + 1
    else if c == ' ' then fillLength false cs + 1
    else if c == '#' then fillLength true cs + 1
    else 0

/-- Goes to the next token and ends the blocks that are indented more. -/
def toNext (s : Scanner) : Except Fault Scanner := do
  let marked := s.cursor.index = 0 && s.cursor.rest.head?.any (·.toNat == 0xFEFF)
  let start := if marked then s.cursor.advance 1 else s.cursor
  let cursor := start.advance (fillLength false start.rest)
  let keyAllowed := s.keyAllowed || (s.level = 0 && cursor.line ≠ start.line)
  let s ← { s with cursor, keyAllowed }.dropStale
  return s.closeBlocks cursor.column

/-- Reads the token that starts with `c`. -/
def next (s : Scanner) (c : Char) (cs : Text) : Except Fault Scanner :=
  let flow : Bool := s.level ≠ 0
  let startsLine : Bool := s.cursor.column = 0
  if c == '%' && startsLine then s.directiveToken
  else if startsLine && isMarker '-' (c :: cs) then s.documentMarker .documentStart
  else if startsLine && isMarker '.' (c :: cs) then s.documentMarker .documentEnd
  else if c == '[' then s.openBracket .flowSequenceStart
  else if c == '\x7b' then s.openBracket .flowMappingStart
  else if c == ']' then s.closeBracket .flowSequenceEnd
  else if c == '\x7d' then s.closeBracket .flowMappingEnd
  else if c == ',' then s.flowEntry
  else if c == '-' && endsWord cs then s.blockEntry
  else if c == '?' && (flow || endsWord cs) then s.explicitKey
  else if c == ':' && (flow || endsWord cs) then s.mappingValue
  else if c == '*' then s.emitRead (anchorName .reference)
  else if c == '&' then s.emitRead (anchorName .anchor)
  else if c == '!' then s.emitRead tagToken
  else if c == '|' && !flow then s.blockToken false
  else if c == '>' && !flow then s.blockToken true
  else if c == '\'' then s.emitRead (quotedToken false)
  else if c == '"' then s.emitRead (quotedToken true)
  else if startsPlain flow c cs then s.plainToken
  else .error .malformed

/-- Ends all blocks at the end of the document. -/
def finish (s : Scanner) : Except Fault Scanner := do
  let s ← (s.closeBlocks (-1)).dropCandidate
  return { s with ended := true, candidates := [] }

/-- Whether the first token may still turn out to be a key. -/
def isUndecided (s : Scanner) : Bool :=
  s.candidates.any (·.number = s.taken)

/-- Reads on until there is a token to hand out or the document ends. -/
def supply : Nat → Scanner → Except Fault Scanner
  | 0, _ => .error .malformed
  | fuel + 1, s =>
    if s.ended then .ok s
    else do
      let s ← if s.queue.isEmpty then .ok s else s.dropStale
      if s.queue.isEmpty || s.isUndecided then
        let s ← s.toNext
        match s.cursor.rest with
        | [] => supply fuel (← s.finish)
        | c :: cs => supply fuel (← s.next c cs)
      else return s

/-- Hands out the first token. -/
def drop (s : Scanner) : Scanner :=
  { s with queue := s.queue.drop 1, taken := s.taken + 1 }

end Scanner

/-- A character that a document may hold. -/
def isDocumentChar (c : Char) : Bool :=
  let n := c.toNat
  c == '\t' || c == '\n' || c == '\r' || (0x20 ≤ n && n ≤ 0x7E) || n ==
    0x85 || (0xA0 ≤ n && n ≤ 0xD7FF)
    || (0xE000 ≤ n && n ≤ 0xFFFD) || 0x10000 ≤ n

end Recast.Yaml
