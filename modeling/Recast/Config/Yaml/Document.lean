import Recast.Config.Yaml.Graph
import Recast.Config.Yaml.Key
import Recast.Config.Yaml.Literal

/-!
# Documents

`readDocument` gives a document its values. What a node becomes is an `Object`. Lists, dictionaries
and sets are begun empty and filled later, in the order in which they were begun, so that they can
stand inside themselves (`fillAll`). `Document.value` is the value of an object with everything in
it.

A mapping keeps the first place and the last value of a key. A key `<<` merges mappings into the one
around it, whose own entries win (`flatten`).
-/

namespace Recast.Yaml

/-- What a node has become. The parts of a collection are the numbers of their nodes. -/
inductive Object where
  | scalar (key : Key)
  | list (items : List Nat)
  | pairs (items : List (Nat × Nat))
  | dict (entries : List (Key × Nat))
  | set (members : List Key)

/-- A document that is being given its values. -/
structure Building where
  nodes : Graph
  objects : Array (Option Object)
  /-- The collections that were begun and not filled. -/
  pending : List Nat

/-- A step of the building. -/
abbrev Builder := StateT Building (Except Fault)

namespace Builder

/-- Ends with a fault. -/
def reject {α : Type} (fault : Fault) : Builder α :=
  fun _ => .error fault

/-- The node with a number. -/
def node (number : Nat) : Builder Node := do
  match (← get).nodes[number]? with
  | some node => return node
  | none => reject .malformed

/-- The entries of a mapping. -/
def entries (number : Nat) : Builder (List (Nat × Nat)) := do
  match (← node number).shape with
  | .mapping entries => return entries
  | _ => reject .malformed

/-- The items of a sequence. -/
def items (number : Nat) : Builder (List Nat) := do
  match (← node number).shape with
  | .sequence items => return items
  | _ => reject .malformed

/-- Whether a node has a tag. -/
def hasTag (tag : Tag) (number : Nat) : Builder Bool := do
  return (← node number).tag = tag

/-- The first entry whose key has a tag. -/
def findEntry? (tag : Tag) : List (Nat × Nat) → Builder (Option (Nat × Nat))
  | [] => return none
  | entry :: rest => do
    if ← hasTag tag entry.1 then return some entry else findEntry? tag rest

/-- Keeps what a node has become. -/
def become (number : Nat) (object : Object) : Builder Unit :=
  modify fun s => { s with objects := s.objects.setIfInBounds number (some object) }

/-! ## Merging -/

/-- Changes the entries of a mapping. -/
def setEntries (number : Nat) (entries : List (Nat × Nat)) : Builder Unit :=
  modify fun s =>
    { s with nodes := s.nodes.modify number fun node => { node with shape := .mapping entries } }

/-- Equals signs among the keys of a mapping are texts. -/
def plainKeys (number : Nat) : Builder Unit := do
  for (key, _) in ← entries number do
    if ← hasTag .value key then
      modify fun s =>
        { s with nodes := s.nodes.modify key fun node => { node with tag := .string } }

mutual

/-- Puts the entries that are merged into a mapping before its own. -/
def flatten (number : Nat) : Nat → Builder Unit
  | 0 => reject .malformed
  | fuel + 1 => do
    let merged ← takeMerged number fuel
    plainKeys number
    setEntries number (merged ++ (← entries number))

/-- Takes the merging keys out of a mapping; gives the entries that they merge. -/
def takeMerged (number : Nat) : Nat → Builder (List (Nat × Nat))
  | 0 => reject .malformed
  | fuel + 1 => do
    let own ← entries number
    match ← findEntry? .merge own with
    | none => return []
    | some entry =>
      setEntries number (own.erase entry)
      let merged ← mergedEntries entry.2 fuel
      return merged ++ (← takeMerged number fuel)

/-- The entries that a value merges: those of a mapping, or of several, of which the first wins. -/
def mergedEntries (value : Nat) : Nat → Builder (List (Nat × Nat))
  | 0 => reject .malformed
  | fuel + 1 => do
    match (← node value).shape with
    | .mapping _ =>
      flatten value fuel
      entries value
    | .sequence items =>
      let parts ← items.mapM fun item => do
        discard (entries item)
        flatten item fuel
        entries item
      return parts.reverse.flatten
    | .scalar _ => reject .malformed

end

/-! ## Objects -/

/-- The content of a scalar. A mapping with an equals sign as a key has the content of that
value. -/
def content (number : Nat) : Nat → Builder Wide
  | 0 => reject (.noValue .endless)
  | fuel + 1 => do
    match (← node number).shape with
    | .scalar content => return content
    | .sequence _ => reject .malformed
    | .mapping entries =>
      match ← findEntry? .value entries with
      | some (_, value) => content value fuel
      | none => reject .malformed

/-- The object of a scalar. -/
def scalarObject (number : Nat) (tag : Tag) : Builder Object := do
  let text ← content number ((← get).nodes.size + 1)
  if tag = .moment && (← node number).shape matches .mapping _ then
    reject (.noValue .momentOfMapping)
  match literal tag text with
  | .error fault => reject fault
  | .ok value =>
    let shared := tag = .float && isSharedNan text
    return .scalar ⟨value, if shared then 0 else number + 1⟩

/-- Begins a collection. -/
def beginCollection (number : Nat) (empty : Object) : Builder Object := do
  modify fun s => { s with pending := s.pending ++ [number] }
  return empty

/-- What a node becomes when it is first met; a collection is still empty. -/
def newObject (number : Nat) (tag : Tag) : Builder Object :=
  match tag with
  | .sequence => beginCollection number (.list [])
  | .mapping => beginCollection number (.dict [])
  | .set => beginCollection number (.set [])
  | .pairs => beginCollection number (.pairs [])
  | .merge => reject .malformed
  | .value => reject .malformed
  | .unknown => reject .malformed
  | tag => scalarObject number tag

/-- What a node is. -/
def object (number : Nat) : Builder Object := do
  match (← get).objects[number]? with
  | some (some object) => return object
  | _ =>
    let made ← newObject number (← node number).tag
    become number made
    return made

/-- The key that a node is; collections are none. -/
def key (number : Nat) : Builder Key := do
  match ← object number with
  | .scalar key => return key
  | _ => reject .malformed

/-! ## Filling -/

/-- The entries of a mapping with their keys. -/
def keyedEntries (number : Nat) : Builder (List (Key × Nat)) := do
  flatten number ((← get).nodes.foldl (fun n node => n + size node) 2)
  (← entries number).foldlM (fun found (k, v) => do
    let key ← key k
    discard (object v)
    return putEntry found key v) []
where
  /-- A bound for the steps of merging into a node. -/
  size (node : Node) : Nat :=
    match node.shape with
    | .mapping entries => 4 * entries.length + 4
    | _ => 4

/-- The two nodes of a mapping with one entry. -/
def onlyEntry (number : Nat) : Builder (Nat × Nat) := do
  match ← entries number with
  | [(k, v)] =>
    discard (object k)
    discard (object v)
    return (k, v)
  | _ => reject .malformed

/-- Fills a collection. -/
def fill (number : Nat) : Builder Unit := do
  match (← node number).tag with
  | .sequence =>
    let parts ← items number
    for part in parts do discard (object part)
    become number (.list parts)
  | .pairs => become number (.pairs (← (← items number).mapM onlyEntry))
  | .set => become number (.set ((← keyedEntries number).map (·.1)))
  | _ => become number (.dict (← keyedEntries number))

/-- Fills all collections, those that were begun first before the others. -/
def fillAll : Nat → Builder Unit
  | 0 => return ()
  | fuel + 1 => do
    match (← get).pending with
    | [] => return ()
    | number :: pending =>
      modify fun s => { s with pending }
      fill number
      fillAll fuel

end Builder

/-! ## Values -/

/-- A document with its values. -/
structure Document where
  objects : Array (Option Object)
  root : Nat

namespace Document

/-- The object of a node. -/
def object (document : Document) (number : Nat) : Object :=
  ((document.objects[number]?).join).getD (.scalar ⟨.null, 0⟩)

/-- The value of an object inside some others. -/
def valueInside (document : Document) : Nat → List Nat → Nat → Value
  | 0, _, _ => .null
  | fuel + 1, outer, number =>
    let part (n : Nat) : Value := valueInside document fuel (number :: outer) n
    match document.object number with
    | .scalar key => key.value
    | .list items => if outer.contains number then .outerList else .list (items.map part)
    | .pairs items =>
      if outer.contains number then .outerList
      else .list (items.map fun (k, v) => .pair (part k) (part v))
    | .dict entries =>
      if outer.contains number then .outerDict
      else .dict (entries.map fun (key, v) => (key.value, part v))
    | .set members => .set (slotOrder (members.map (·.value)))

/-- The value of an object with everything in it. -/
def value (document : Document) (number : Nat) : Value :=
  document.valueInside (document.objects.size + 1) [] number

/-- The entries of a document that is a mapping. -/
def entries? (document : Document) : Option (List (Value × Nat)) :=
  match document.object document.root with
  | .dict entries => some (entries.map fun (key, number) => (key.value, number))
  | _ => none

end Document

/-- The document that a text is; an empty one has no values. -/
def readDocument (t : Text) : Except Fault (Option Document) := do
  let (nodes, root?) ← readGraph t
  match root? with
  | none => return none
  | some root =>
    let building : Building := ⟨nodes, .replicate nodes.size none, []⟩
    let (_, built) ←
      (do discard (Builder.object root); Builder.fillAll (nodes.size + 1) : Builder Unit).run
        building
    return some ⟨built.objects, root⟩

end Recast.Yaml
