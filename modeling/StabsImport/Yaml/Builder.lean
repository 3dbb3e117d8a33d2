import StabsImport.Room
import StabsImport.Yaml.Lexer
import StabsImport.Yaml.Node

/-!
# Building a graph of nodes

Tokens become nodes as they come. An alias is the node it names once more. The anchor of a
collection holds from its start, so that the collection may stand inside itself. Where something is
read inside `calls`, these are the calls from the node that it is, or is part of, to the reading.
-/

namespace StabsImport.Yaml

/-- The text not yet read, the nodes so far, the anchors seen, and what the handles of tags
mean. -/
structure Builder where
  lexer : Lexer
  /-- The room inside the collections that are open. -/
  room : Room := none
  graph : Graph := {}
  anchors : Ledger String NodeId := {}
  handles : Ledger String String := {}

abbrev BuildM := StateT Builder (Except Halt)

namespace Builder

def fail {α : Type} : BuildM α := throw .malformed

/-- Reads on in the text, inside so many calls. -/
def lexing {α : Type} (calls : Nat) (m : LexM α) : BuildM α := do
  let b ← get
  let (x, lexer) ← liftM (m.run { b.lexer with room := b.room.inside calls })
  set { b with lexer }
  return x

def peek (calls : Nat) : BuildM (Option Token) := lexing calls Lexer.peek

def drop : BuildM Unit := lexing 0 Lexer.take

/-- Takes the next token if it is this one. -/
def accept (calls : Nat) (t : Token) : BuildM Bool := do
  if (← peek calls) = some t then
    drop
    return true
  else return false

def expect (calls : Nat) (t : Token) : BuildM Unit := do if !(← accept calls t) then fail

/-- Whether the next token is one of these, or none is left. -/
def isBefore (calls : Nat) (ts : List Token) : BuildM Bool :=
  return match ← peek calls with
    | some t => ts.contains t
    | none => true

/-! ## Nodes and their properties -/

def newNode (n : Node) : BuildM NodeId := do
  let b ← get
  set { b with graph := b.graph.push n }
  return b.graph.size

/-- What stands for a node that is left out. -/
def absent (calls : Nat) : BuildM NodeId := do
  lexing calls (Lexer.need 3)
  newNode ⟨.null, .scalar ""⟩

/-- What comes before the content of a node. -/
structure Properties where
  anchor : Option String := none
  tag : Option String := none

def isBare (p : Properties) : Bool := p.anchor.isNone && p.tag.isNone

def fullTag (handle : Option String) (suffix : String) : BuildM String := do
  match handle with
  | none => return suffix
  | some handle =>
      match (← get).handles.get? handle with
      | some meaning => return meaning ++ suffix
      | none => fail

/-- An anchor and a tag, each at most once, in either order. -/
def properties (calls : Nat) : BuildM Properties := do
  match ← peek calls with
  | some (.anchor anchor) =>
      drop
      match ← peek calls with
      | some (.tag handle suffix) =>
          drop
          return ⟨some anchor, some (← fullTag handle suffix)⟩
      | _ => return ⟨some anchor, none⟩
  | some (.tag handle suffix) =>
      drop
      match ← peek calls with
      | some (.anchor anchor) =>
          drop
          return ⟨some anchor, some (← fullTag handle suffix)⟩
      | _ => return ⟨none, some (← fullTag handle suffix)⟩
  | _ => return {}

/-- The kind a tag names; no tag, or one mark alone, leaves it to the node. -/
def kindOr (tag : Option String) (otherwise : Kind) : Kind :=
  match tag with
  | none | some "!" => otherwise
  | some tag => Kind.ofTag tag

def scalarKind (tag : Option String) (text : String) (isPlain : Bool) : Kind :=
  kindOr tag (if isPlain || tag == some "!" then Kind.ofPlain text else .text)

/-- An anchor names one node of a document. -/
def place (anchor : Option String) (n : Node) : BuildM NodeId := do
  match anchor with
  | none => newNode n
  | some name =>
      if (← get).anchors.contains name then fail
      let id ← newNode n
      modify fun b => { b with anchors := b.anchors.put name id }
      return id

def scalar (p : Properties) (text : String) (isPlain : Bool) : BuildM NodeId :=
  place p.anchor ⟨scalarKind p.tag text isPlain, .scalar text⟩

/-- A node without content needs an anchor or a tag. -/
def withoutContent (p : Properties) : BuildM NodeId := do
  if isBare p then fail
  scalar p "" true

/-- Builds what stands inside a collection. -/
def inner {α : Type} (build : BuildM α) : BuildM α := do
  let room := (← get).room
  modify fun b => { b with room := room.inside 2 }
  let x ← build
  modify fun b => { b with room }
  return x

/-- A collection that is filled after it has got its anchor. -/
def collection (p : Properties) (otherwise : Kind) (empty : Content) (content : BuildM Content) :
    BuildM NodeId := do
  let id ← place p.anchor ⟨kindOr p.tag otherwise, empty⟩
  let content ← inner content
  modify fun b => { b with graph := b.graph.setContent id content }
  return id

def sequence (p : Properties) (items : BuildM (List NodeId)) : BuildM NodeId :=
  collection p .sequence (.sequence []) (return .sequence (← items))

def mapping (p : Properties) (entries : BuildM (List (NodeId × NodeId))) : BuildM NodeId :=
  collection p .mapping (.mapping []) (return .mapping (← entries))

/-- A node, unless one of these tokens comes first. -/
def nodeUnless (calls : Nat) (ts : List Token) (read : BuildM NodeId) : BuildM NodeId := do
  if ← isBefore calls ts then absent calls else read

/-- A value after its mark, left out before one of these tokens. -/
def valueUnless (ts : List Token) (read : BuildM NodeId) : BuildM NodeId := do
  if ← accept 2 .value then nodeUnless 2 ts read else absent 2

/-- The calls inside which an entry is read. The first one is read inside what opens the
collection. -/
def entryCalls (isFirst : Bool) : Nat := if isFirst then 2 else 1

/-! ## Collections

A node is read two calls further in than the entry, or the value of an entry, that it is. -/

mutual

/-- A node. Only in a block may it be a block collection; a sequence that hangs below its key
without being indented may stand only where `mayHang` says so. -/
def node (inBlock mayHang : Bool) (calls : Nat) : Nat → BuildM NodeId
  | 0 => fail
  | fuel + 1 => do
      match ← peek calls with
      | some (.alias name) =>
          drop
          match (← get).anchors.get? name with
          | some id => return id
          | none => fail
      | _ =>
          let p ← properties calls
          match ← peek calls with
          | some (.scalar text isPlain) =>
              drop
              scalar p text isPlain
          | some .flowSequenceStart =>
              sequence p (do drop; flowItems true fuel)
          | some .flowMappingStart =>
              mapping p (do drop; flowEntries true fuel)
          | some .blockSequenceStart =>
              if inBlock then sequence p (do drop; blockItems true fuel) else withoutContent p
          | some .blockMappingStart =>
              if inBlock then mapping p (do drop; blockEntries true fuel) else withoutContent p
          | some .blockEntry =>
              if mayHang then sequence p (hangingItems fuel) else withoutContent p
          | _ => withoutContent p

def blockItems (isFirst : Bool) : Nat → BuildM (List NodeId)
  | 0 => fail
  | fuel + 1 => do
      let calls := entryCalls isFirst
      if ← accept calls .blockEntry then
        let n ← nodeUnless calls [.blockEntry, .blockEnd] (node true false (calls + 2) fuel)
        return n :: (← blockItems false fuel)
      else
        expect calls .blockEnd
        return []

def hangingItems : Nat → BuildM (List NodeId)
  | 0 => fail
  | fuel + 1 => do
      if ← accept 1 .blockEntry then
        let n ← nodeUnless 1 [.blockEntry, .key, .value, .blockEnd] (node true false 3 fuel)
        return n :: (← hangingItems fuel)
      else return []

def blockEntries (isFirst : Bool) : Nat → BuildM (List (NodeId × NodeId))
  | 0 => fail
  | fuel + 1 => do
      let calls := entryCalls isFirst
      if ← accept calls .key then
        let k ← nodeUnless calls [.key, .value, .blockEnd] (node true true (calls + 2) fuel)
        let v ← valueUnless [.key, .value, .blockEnd] (node true true 4 fuel)
        return (k, v) :: (← blockEntries false fuel)
      else
        expect calls .blockEnd
        return []

/-- The items up to the closing bracket. A key by itself makes a mapping of one entry. -/
def flowItems (isFirst : Bool) : Nat → BuildM (List NodeId)
  | 0 => fail
  | fuel + 1 => do
      let calls := entryCalls isFirst
      if ← accept calls .flowSequenceEnd then return []
      if !isFirst then expect calls .flowEntry
      if ← accept calls .key then
        let n ← mapping {} (flowPair fuel)
        return n :: (← flowItems false fuel)
      else if ← accept calls .flowSequenceEnd then return []
      else
        let n ← node false false (calls + 2) fuel
        return n :: (← flowItems false fuel)

def flowPair : Nat → BuildM (List (NodeId × NodeId))
  | 0 => fail
  | fuel + 1 => do
      let k ← nodeUnless 1 [.value, .flowEntry, .flowSequenceEnd] (node false false 3 fuel)
      let v ← valueUnless [.flowEntry, .flowSequenceEnd] (node false false 4 fuel)
      let _ ← peek 1
      return [(k, v)]

/-- The entries up to the closing bracket. -/
def flowEntries (isFirst : Bool) : Nat → BuildM (List (NodeId × NodeId))
  | 0 => fail
  | fuel + 1 => do
      let calls := entryCalls isFirst
      if ← accept calls .flowMappingEnd then return []
      if !isFirst then expect calls .flowEntry
      if ← accept calls .key then
        let k ← nodeUnless calls [.value, .flowEntry, .flowMappingEnd]
          (node false false (calls + 2) fuel)
        let v ← valueUnless [.flowEntry, .flowMappingEnd] (node false false 4 fuel)
        return (k, v) :: (← flowEntries false fuel)
      else if ← accept calls .flowMappingEnd then return []
      else
        let k ← node false false (calls + 2) fuel
        let _ ← peek 2
        let v ← absent 2
        return (k, v) :: (← flowEntries false fuel)

end

/-! ## Documents -/

/-- The handles every document has. -/
def defaultHandles : List (String × String) := [("!", "!"), ("!!", Kind.standardPrefix)]

/-- One version, which is known, and handles that differ. -/
def directives (hasVersion : Bool) : Nat → BuildM Unit
  | 0 => return
  | fuel + 1 => do
      match ← peek 1 with
      | some (.directive d) =>
          drop
          match d with
          | .version major _ =>
              if hasVersion || major ≠ 1 then fail
              directives true fuel
          | .handle name meaning =>
              if (← get).handles.contains name then fail
              modify fun b => { b with handles := b.handles.put name meaning }
              directives hasVersion fuel
          | .other => directives hasVersion fuel
      | _ => return

def addHandle (handles : Ledger String String) (e : String × String) : Ledger String String :=
  if handles.contains e.1 then handles else handles.put e.1 e.2

/-- Handles not given have their usual meaning. -/
def completeHandles : BuildM Unit :=
  modify fun b => { b with handles := defaultHandles.foldl addHandle b.handles }

def isDirective : Option Token → Bool
  | some (.directive _) => true
  | _ => false

/-- A document up to the mark of its start. -/
def start (fuel : Nat) : BuildM Unit := do
  modify fun b => { b with handles := {} }
  directives false fuel
  completeHandles
  expect 1 .documentStart

def skipEnds : Nat → BuildM Unit
  | 0 => return
  | fuel + 1 => do if ← accept 1 .documentEnd then skipEnds fuel

/-- The root of the one document of a text, if it has any. A character gives rise to four tokens
at most, and there are three calls at most for each of them. -/
def document (size : Nat) : BuildM (Option NodeId) := do
  let fuel := 12 * size + 16
  let first ← peek 1
  if first.isNone then return none
  let id ←
    if isDirective first || first == some .documentStart then do
      start fuel
      if isDirective (← peek 2) then absent 2
      else nodeUnless 2 [.documentStart, .documentEnd] (node true false 4 fuel)
    else do
      completeHandles
      node true false 3 fuel
  skipEnds fuel
  if (← peek 1).isSome then
    start fuel
    fail
  return some id

end Builder

/-- The nodes of a text, and which of them is the root, if there is one. -/
def Graph.ofText (room : Room) (cs : List Char) : Except Halt (Graph × Option NodeId) := do
  let (root, b) ← (Builder.document cs.length).run { lexer := .ofText cs, room }
  return (b.graph, root)

end StabsImport.Yaml
