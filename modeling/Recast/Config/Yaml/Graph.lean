import Recast.Config.Yaml.Form
import Recast.Config.Yaml.Token

/-!
# The graph of a document

A document is one node: a scalar, a sequence or a mapping. A node with an anchor can stand in
several places, also inside itself, so nodes are numbered in the order in which they start, and a
sequence or a mapping names its parts by their numbers. `readGraph` reads the nodes of a document.
More than one document, or anything left over after the node, is a fault.
-/

namespace Recast.Yaml

/-- What a node is made of. -/
inductive Shape where
  | scalar (content : Wide)
  | sequence (items : List Nat)
  | mapping (entries : List (Nat × Nat))
  deriving DecidableEq, Repr

/-- A node of a document. -/
structure Node where
  tag : Tag
  shape : Shape
  deriving DecidableEq, Repr

/-- The nodes of a document by their numbers. -/
abbrev Graph := Array Node

/-! ## Reading -/

/-- What is left of a document, and what was said in it so far. -/
structure ReaderState where
  scanner : Scanner
  /-- How far the scanner may go. -/
  limit : Nat
  nodes : Graph
  /-- The anchors and the nodes that have them. -/
  anchors : List (Text × Nat)
  /-- The short forms of tags. -/
  handles : List (Text × Text)

/-- A step that takes tokens. -/
abbrev Reader := StateT ReaderState (Except Fault)

namespace Reader

/-- Ends with a fault. -/
def reject {α : Type} : Reader α :=
  fun _ => .error .malformed

/-- The next token, if there is one. -/
def peek : Reader (Option Token) := fun s => do
  let scanner ← s.scanner.supply s.limit
  return (scanner.queue.head?, { s with scanner })

/-- Whether the next token is one of some. -/
def nextIs (choices : List Token) : Reader Bool := do
  return (← peek).any choices.contains

/-- Takes the token that was looked at. -/
def skip : Reader Unit :=
  modify fun s => { s with scanner := s.scanner.drop }

/-- Takes the next token if it is the one. -/
def take? (token : Token) : Reader Bool := do
  if ← nextIs [token] then
    skip
    return true
  else return false

/-- Takes the next token, which has to be the one. -/
def expect (token : Token) : Reader Unit := do
  if !(← take? token) then reject

/-- Adds a node; gives its number. -/
def add (tag : Tag) (shape : Shape) : Reader Nat := do
  let number := (← get).nodes.size
  modify fun s => { s with nodes := s.nodes.push ⟨tag, shape⟩ }
  return number

/-- Completes a node. -/
def complete (number : Nat) (shape : Shape) : Reader Unit :=
  modify fun s => { s with nodes := s.nodes.modify number fun node => { node with shape } }

/-- Adds a node that is not written. -/
def absent : Reader Nat :=
  add .null (.scalar [])

/-! ## Tags, anchors and references -/

/-- The tag that stands before a node. -/
inductive GivenTag where
  | missing
  /-- A mark that leaves the form to decide. -/
  | bare
  | named (tag : Tag)
  deriving DecidableEq

/-- What stands before a node. -/
structure Properties where
  anchor? : Option Text
  tag : GivenTag

/-- The tag with a handle and a name. -/
def givenTag (handle? : Option Text) (name : Text) : Reader GivenTag := do
  match handle? with
  | none => return if name = ['!'] then .bare else .named (.ofName name)
  | some handle =>
    match (← get).handles.find? (·.1 = handle) with
    | some (_, start) => return .named (.ofName (start ++ name))
    | none => reject

/-- Takes an anchor. -/
def anchor? : Reader (Option Text) := do
  match ← peek with
  | some (.anchor name) => skip; return some name
  | _ => return none

/-- Takes a tag. -/
def tag? : Reader (Option (Option Text × Text)) := do
  match ← peek with
  | some (.tag handle? name) => skip; return some (handle?, name)
  | _ => return none

/-- Takes the anchor and the tag before a node, in either order. -/
def properties : Reader Properties := do
  let before ← anchor?
  let found ← tag?
  let after ← if before.isNone && found.isSome then anchor? else pure none
  let tag ← match found with
    | some (handle?, name) => givenTag handle? name
    | none => pure .missing
  return ⟨before <|> after, tag⟩

/-- The tag of a collection. -/
def GivenTag.orElse (standard : Tag) : GivenTag → Tag
  | .named tag => tag
  | _ => standard

/-- The tag of a scalar. -/
def GivenTag.ofScalar (plain : Bool) (content : Wide) : GivenTag → Tag
  | .named tag => tag
  | .bare => .ofContent content
  | .missing => if plain then .ofContent content else .string

/-- The anchor of a new node has to be new. -/
def checkAnchor (given : Properties) : Reader Unit := do
  match given.anchor? with
  | some name => if (← get).anchors.any (·.1 = name) then reject
  | none => return ()

/-- Adds a node with its anchor. -/
def begin (given : Properties) (tag : Tag) (shape : Shape) : Reader Nat := do
  checkAnchor given
  let number ← add tag shape
  match given.anchor? with
  | some name => modify fun s => { s with anchors := (name, number) :: s.anchors }
  | none => pure ()
  return number

/-- The node that a reference stands for. -/
def resolve (name : Text) : Reader Nat := do
  match (← get).anchors.find? (·.1 = name) with
  | some (_, number) => return number
  | none => reject

/-- No node: this is an empty scalar if a tag or an anchor stands there. -/
def nothing (given : Properties) : Reader Nat :=
  if given.anchor?.isNone && given.tag = .missing then reject
  else begin given (given.tag.ofScalar true []) (.scalar [])

/-- A sequence or a mapping with its parts; `opened` says whether a token of its own comes before
them. -/
def collection (given : Properties) (standard : Tag) (empty : Shape) (opened : Bool)
    (parts : Reader Shape) :
    Reader Nat := do
  let number ← begin given (given.tag.orElse standard) empty
  if opened then skip
  complete number (← parts)
  return number

/-- A sequence with its items. -/
def sequence (given : Properties) (opened : Bool) (items : Reader (List Nat)) : Reader Nat :=
  collection given .sequence (.sequence []) opened (.sequence <$> items)

/-- A mapping with its entries. -/
def mapping (given : Properties) (entries : Reader (List (Nat × Nat))) : Reader Nat :=
  collection given .mapping (.mapping []) true (.mapping <$> entries)

/-- A node, or one that is not written if a token of another kind comes next. -/
def nodeUnless (others : List Token) (written : Reader Nat) : Reader Nat := do
  if ← nextIs others then absent else written

/-- The value after a colon; without one it is not written. -/
def valueUnless (others : List Token) (written : Reader Nat) : Reader Nat := do
  if ← take? .value then nodeUnless others written else absent

/-! ## The grammar -/

mutual

/-- A node. Only in a block may it be a block itself; only as a key or value of a block may its
entries stand at the column of the mapping. -/
def node (block flush : Bool) : Nat → Reader Nat
  | 0 => reject
  | fuel + 1 => do
    if let some (.reference name) ← peek then
      skip
      resolve name
    else
      let given ← properties
      match ← peek with
      | some (.scalar plain content) =>
        skip
        begin given (given.tag.ofScalar plain content) (.scalar content)
      | some .flowSequenceStart => sequence given true (flowItems true fuel)
      | some .flowMappingStart => mapping given (flowEntries true fuel)
      | some .blockEntry => if flush then sequence given false (flushItems fuel) else nothing given
      | some .blockSequenceStart =>
        if block then sequence given true (blockItems fuel) else nothing given
      | some .blockMappingStart =>
        if block then mapping given (blockEntries fuel) else nothing given
      | _ => nothing given

/-- The items of a block sequence. -/
def blockItems : Nat → Reader (List Nat)
  | 0 => reject
  | fuel + 1 => do
    if ← take? .blockEntry then
      let item ← nodeUnless [.blockEntry, .blockEnd] (node true false fuel)
      return item :: (← blockItems fuel)
    else
      expect .blockEnd
      return []

/-- The items of a sequence at the column of the mapping around it. -/
def flushItems : Nat → Reader (List Nat)
  | 0 => reject
  | fuel + 1 => do
    if ← take? .blockEntry then
      let item ← nodeUnless [.blockEntry, .key, .value, .blockEnd] (node true false fuel)
      return item :: (← flushItems fuel)
    else return []

/-- The entries of a block mapping. -/
def blockEntries : Nat → Reader (List (Nat × Nat))
  | 0 => reject
  | fuel + 1 => do
    if ← take? .key then
      let key ← nodeUnless [.key, .value, .blockEnd] (node true true fuel)
      let value ← valueUnless [.key, .value, .blockEnd] (node true true fuel)
      return (key, value) :: (← blockEntries fuel)
    else
      expect .blockEnd
      return []

/-- The items of a flow sequence; an item with a colon is a mapping of one entry. -/
def flowItems (first : Bool) : Nat → Reader (List Nat)
  | 0 => reject
  | fuel + 1 => do
    if ← take? .flowSequenceEnd then return []
    if !first then expect .flowEntry
    if ← take? .flowSequenceEnd then return []
    if ← nextIs [.key] then
      let item ← mapping ⟨none, .missing⟩ do
        let key ← nodeUnless [.value, .flowEntry, .flowSequenceEnd] (node false false fuel)
        let value ← valueUnless [.flowEntry, .flowSequenceEnd] (node false false fuel)
        return [(key, value)]
      return item :: (← flowItems false fuel)
    else
      let item ← node false false fuel
      return item :: (← flowItems false fuel)

/-- The entries of a flow mapping; an entry without a colon has no value. -/
def flowEntries (first : Bool) : Nat → Reader (List (Nat × Nat))
  | 0 => reject
  | fuel + 1 => do
    if ← take? .flowMappingEnd then return []
    if !first then expect .flowEntry
    if ← take? .flowMappingEnd then return []
    if ← take? .key then
      let key ← nodeUnless [.value, .flowEntry, .flowMappingEnd] (node false false fuel)
      let value ← valueUnless [.flowEntry, .flowMappingEnd] (node false false fuel)
      return (key, value) :: (← flowEntries false fuel)
    else
      let key ← node false false fuel
      let value ← absent
      return (key, value) :: (← flowEntries false fuel)

end

/-! ## The document -/

/-- The handles that need not be declared. -/
def standardHandles : List (Text × Text) :=
  [(['!'], ['!']), (['!', '!'], tagStart)]

/-- Takes directives; gives the handles that they declare. Only the first version counts, and no
handle is declared twice. -/
def directives (versioned : Bool) (declared : List (Text × Text)) :
    Nat → Reader (List (Text × Text))
  | 0 => reject
  | fuel + 1 => do
    match ← peek with
    | some (.directive directive) =>
      skip
      match directive with
      | .version major => if versioned || major ≠ 1 then reject else directives true declared fuel
      | .tagHandle handle start =>
        if declared.any (·.1 = handle) then reject
        else directives versioned ((handle, start) :: declared) fuel
      | .other => directives versioned declared fuel
    | _ => return declared

/-- Whether a token comes before or after a document. -/
def isOutside : Token → Bool
  | .directive _ => true
  | .documentStart => true
  | .documentEnd => true
  | _ => false

/-- The start of a document with directives or a marker before it. -/
def documentStart (fuel : Nat) : Reader Unit := do
  let declared ← directives false [] fuel
  modify fun s => { s with handles := declared ++ standardHandles }
  expect .documentStart

/-- Takes the markers after a document. -/
def documentEnds : Nat → Reader Unit
  | 0 => reject
  | fuel + 1 => do
    if ← take? .documentEnd then documentEnds fuel

/-- The node of the only document, if there is one. -/
def document (fuel : Nat) : Reader (Option Nat) := do
  match ← peek with
  | none => return none
  | some token =>
    let marked := token = .documentStart || token matches .directive _
    if marked then documentStart fuel
    let empty := marked && (← peek).all isOutside
    let root ← if empty then absent else node true false fuel
    documentEnds fuel
    if (← peek).isNone then return some root
    documentStart fuel
    reject

end Reader

/-- The nodes of a document and the number of the first one, if there is one. -/
def readGraph (t : Text) : Except Fault (Graph × Option Nat) := do
  if !t.all isDocumentChar then .error .malformed
  let fuel := 16 * (t.length + 1)
  let (root?, state) ←
    (Reader.document fuel).run ⟨.start t, t.length + 3, #[], [], Reader.standardHandles⟩
  return (state.nodes, root?)

end Recast.Yaml
