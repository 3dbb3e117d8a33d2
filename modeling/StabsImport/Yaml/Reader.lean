import StabsImport.Yaml.Builder
import StabsImport.Yaml.Conversion
import StabsImport.Yaml.Merge

/-!
# Reading YAML

The value of a node depends on its kind. A node has one value wherever it stands. Scalars are read
when they are met, but a collection at first only gets its place; collections are filled one after
another, in the order in which they were met. So it is the first fault in breadth that counts.
-/

namespace StabsImport.Yaml

/-- What is known of the value of a node. A collection is made of nodes. -/
inductive Part where
  /-- A not-a-number that is not the common one is told apart from others by its node. -/
  | scalar (value : Value) (source : Option NodeId)
  | list (items : List NodeId)
  | pairs (entries : List (NodeId × NodeId))
  | mapping (entries : List (NodeId × NodeId))
  | set (items : List NodeId)
  deriving Inhabited

namespace Part

/-- Only what does not change can be a key. -/
def isKey : Part → Bool
  | scalar .. => true
  | _ => false

def sameKey : Part → Part → Bool
  | scalar v s, scalar w t => v.sameKey w && s == t
  | _, _ => false

def key : Part → Value
  | scalar v _ => v
  | _ => .null

end Part

/-- A document in the course of reading: its nodes, what is known of them, and the collections yet
to be filled. -/
structure Filling where
  graph : Graph
  parts : Array (Option Part)
  waiting : Array NodeId := #[]
  /-- The room for reading the next node. -/
  room : Room := none

abbrev FillM := StateT Filling (Except Fault)

namespace Filling

def fail {α : Type} : FillM α := throw .malformed

def part? (f : Filling) (id : NodeId) : Option Part := f.parts[id]?.join

def setPart (id : NodeId) (part : Part) : FillM Unit :=
  modify fun f => { f with parts := f.parts.setIfInBounds id (some part) }

def wait (id : NodeId) : FillM Unit := modify fun f => { f with waiting := f.waiting.push id }

/-- The text of a node. In a mapping it is that of the entry for the value of the mapping. -/
def textOf (g : Graph) : (fuel : Nat) → NodeId → Except Fault String
  | 0, _ => .error .tooDeep
  | fuel + 1, id =>
      match g.content id with
      | .scalar text => .ok text
      | .sequence _ => .error .malformed
      | .mapping entries =>
          match entries.find? fun e => g.kind e.1 == .value with
          | some e => textOf g fuel e.2
          | none => .error .malformed

def isNan : Value → Bool
  | .real .nan => true
  | _ => false

/-- What no value is known for is malformed whatever it contains. -/
def scalarPart (room : Room) (g : Graph) (id : NodeId) (kind : Kind) : Except Fault Part := do
  if !kind.isScalar then throw .malformed
  let text ← textOf g ((room.inside 3).within (g.size + 1)) id
  if kind == .time && g.isMapping id then throw .hiddenTime
  let value ← scalarValue kind text
  return .scalar value (if isNan value && !isCommonNan text then some id else none)

/-- What a collection of a kind is before it is filled. -/
def emptyPart? : Kind → Option Part
  | .sequence => some (.list [])
  | .orderedMap | .pairs => some (.pairs [])
  | .mapping => some (.mapping [])
  | .set => some (.set [])
  | _ => none

/-- What is known of a node from now on. -/
def part (id : NodeId) : FillM Part := do
  let f ← get
  match f.part? id with
  | some part => return part
  | none =>
      let kind := f.graph.kind id
      match emptyPart? kind with
      | some part =>
          setPart id part
          wait id
          return part
      | none =>
          let part ← liftM (scalarPart f.room f.graph id kind)
          setPart id part
          return part

/-! ## Filling collections -/

/-- A key met again keeps its place and its form. -/
def putEntry (f : Filling) (key value : NodeId) (part : Part) :
    List (NodeId × NodeId) → List (NodeId × NodeId)
  | [] => [(key, value)]
  | (k, v) :: rest =>
      if (f.part? k).any (·.sameKey part) then (k, value) :: rest
      else (k, v) :: putEntry f key value part rest

def addEntry (entries : List (NodeId × NodeId)) (e : NodeId × NodeId) :
    FillM (List (NodeId × NodeId)) := do
  let key ← part e.1
  if !key.isKey then fail
  discard (part e.2)
  return putEntry (← get) e.1 e.2 key entries

/-- The entries of a mapping, together with those it takes over. -/
def mappingEntries (id : NodeId) : FillM (List (NodeId × NodeId)) := do
  let f ← get
  if !f.graph.isMapping id then fail
  let (_, graph) ← liftM ((Graph.settle f.room id).run f.graph)
  set { f with graph }
  (graph.entries id).foldlM addEntry []

/-- The only entry of a mapping. -/
def pair (id : NodeId) : FillM (NodeId × NodeId) := do
  match (← get).graph.content id with
  | .mapping [e] =>
      discard (part e.1)
      discard (part e.2)
      return e
  | _ => fail

def sequenceItems (id : NodeId) : FillM (List NodeId) := do
  match (← get).graph.content id with
  | .sequence items => return items
  | _ => fail

/-- The calls it takes to come from filling a collection to reading its nodes. -/
def callsToFill : Kind → Nat
  | .orderedMap | .pairs => 1
  | _ => 3

def fillKind (kind : Kind) (id : NodeId) : FillM Unit := do
  match kind with
  | .sequence =>
      let items ← sequenceItems id
      items.forM fun item => discard (part item)
      setPart id (.list items)
  | .orderedMap | .pairs => setPart id (.pairs (← (← sequenceItems id).mapM pair))
  | .mapping => setPart id (.mapping (← mappingEntries id))
  | .set => setPart id (.set ((← mappingEntries id).map (·.1)))
  | _ => return

def fill (id : NodeId) : FillM Unit := do
  let f ← get
  let kind := f.graph.kind id
  set { f with room := f.room.inside (callsToFill kind) }
  fillKind kind id
  modify fun g => { g with room := f.room }

/-- Fills the collections from the `n`th on. -/
def fillFrom : (fuel n : Nat) → FillM Unit
  | 0, _ => return
  | fuel + 1, n => do
      match (← get).waiting[n]? with
      | some id =>
          fill id
          fillFrom fuel (n + 1)
      | none => return

end Filling

/-! ## Documents -/

/-- What is known of the nodes of a document after all have been read. -/
structure Document where
  parts : Array (Option Part)
  root : NodeId
  deriving Inhabited

namespace Document

/-- No node waits twice. -/
def ofGraph (room : Room) (g : Graph) (root : NodeId) : Except Fault Document := do
  let read : FillM Unit := do
    discard (Filling.part root)
    Filling.fillFrom g.size 0
  let (_, f) ← read.run { graph := g, parts := Array.replicate g.size none, room }
  return { parts := f.parts, root }

def part (d : Document) (id : NodeId) : Part := d.parts[id]?.join.getD default

/-- The value of a node, inside these collections; one that is inside itself is a cycle there. -/
def valueIn (d : Document) : (fuel : Nat) → List NodeId → NodeId → Value
  | 0, _, _ => .null
  | fuel + 1, around, id =>
      let inner := valueIn d fuel (id :: around)
      match d.part id with
      | .scalar value _ => value
      | .list items => if around.contains id then .cycle false else .list (items.map inner)
      | .pairs entries =>
          if around.contains id then .cycle false
          else .list (entries.map fun e => .pair (inner e.1) (inner e.2))
      | .mapping entries =>
          if around.contains id then .cycle true
          else .mapping (entries.map fun e => (inner e.1, inner e.2))
      | .set items => .setOf (items.map inner)

/-- Each node is spelled out once at most on the way to a node inside it. -/
def value (d : Document) (id : NodeId) : Value := d.valueIn (d.parts.size + 2) [] id

/-- The keys of the root and the nodes of what they stand for, if the root is a mapping. -/
def entries? (d : Document) : Option (List (Value × NodeId)) :=
  match d.part d.root with
  | .mapping entries => some (entries.map fun e => ((d.part e.1).key, e.2))
  | _ => none

def isNull (d : Document) : Bool :=
  match d.part d.root with
  | .scalar .null _ => true
  | _ => false

end Document

/-! ## Texts -/

/-- The characters a text may hold. -/
def isAllowed (c : Char) : Bool :=
  let n := c.toNat
  n == 0x9 || n == 0xA || n == 0xD || (0x20 ≤ n && n ≤ 0x7E) || n == 0x85 ||
    (0xA0 ≤ n && n ≤ 0xFFFD) || 0x10000 ≤ n

/-- A carriage return ends a line, together with a line feed after it. -/
def unifyBreaks : List Char → List Char
  | [] => []
  | '\r' :: '\n' :: rest => '\n' :: unifyBreaks rest
  | '\r' :: rest => '\n' :: unifyBreaks rest
  | c :: rest => c :: unifyBreaks rest

def pageSize : Nat := 4096

/-- A text is taken in by pages, the first two of them at once. How much of it has been taken in
when so much of it is needed. -/
def takenIn (reach : Nat) : Nat := max (2 * pageSize) ((reach + pageSize - 1) / pageSize * pageSize)

/-- What is taken in has to be allowed, and a fault in it counts for more than any other. -/
def checked {α : Type} (cs : List Char) : Except Halt α → Except Fault α
  | .ok x => if cs.all isAllowed then .ok x else .error .malformed
  | .error e => .error (if (cs.take (takenIn e.reach)).all isAllowed then e.fault else .malformed)

/-- The one document in a text, if there is any. -/
def read (room : Room) (text : List Char) : Except Fault (Option Document) := do
  let cs := unifyBreaks text
  let (graph, root) ← checked cs (Graph.ofText (room.inside 8) cs)
  root.mapM (Document.ofGraph (room.inside 6) graph)

/-! ## What a text comes to -/

/-- What options can be taken from. A value is worked out only where it is asked for. -/
inductive Loaded where
  | nothing
  | mapping (entries : List (Value × (Unit → Value)))
  | other

/-- A reader of texts with so much room. -/
abbrev Loader := Room → List Char → Except Fault Loaded

def Document.loaded (d : Document) : Loaded :=
  match d.entries? with
  | some entries => .mapping (entries.map fun e => (e.1, fun _ => d.value e.2))
  | none => if d.isNull then .nothing else .other

def load : Loader := fun room text =>
  (read room text).map fun d => d.elim .nothing Document.loaded

end StabsImport.Yaml
