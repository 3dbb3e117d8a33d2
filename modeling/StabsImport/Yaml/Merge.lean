import StabsImport.Yaml.Node
import StabsImport.Yaml.Fault
import StabsImport.Room

/-!
# Taking entries over

A key of the kind for merging takes the entries of other mappings over into its own. They come
first, so that the entries of the mapping itself win; of several mappings the first comes last.
Mappings they come from have theirs taken over before.
-/

namespace StabsImport.Yaml

abbrev GraphM := StateT Graph (Except Fault)

namespace Graph

def isMapping (g : Graph) (id : NodeId) : Bool :=
  match g.content id with
  | .mapping _ => true
  | _ => false

def removeEntry (id : NodeId) (index : Nat) : GraphM Unit :=
  modify fun g => g.setContent id (.mapping ((g.entries id).eraseIdx index))

/-- The entries of a mapping that has taken over its own. -/
def entriesAfter (settle : NodeId → GraphM Unit) (id : NodeId) :
    GraphM (List (NodeId × NodeId)) := do
  if !(← get).isMapping id then throw .malformed
  settle id
  return (← get).entries id

/-- What a value gives to be taken over: a mapping, or a sequence of mappings. -/
def givenBy (settle : NodeId → GraphM Unit) (id : NodeId) : GraphM (List (NodeId × NodeId)) := do
  match (← get).content id with
  | .sequence items =>
      let parts ← items.mapM (entriesAfter settle)
      return parts.reverse.flatten
  | _ => entriesAfter settle id

/-- What the entries of a mapping from an index on have to be given, `count` of them at most. Keys
for merging are dropped, and the key for the value of a mapping becomes a text. -/
def gather (settle : NodeId → GraphM Unit) (id : NodeId) :
    (count index : Nat) → GraphM (List (NodeId × NodeId))
  | 0, _ => return []
  | count + 1, index => do
      let g ← get
      match (g.entries id)[index]? with
      | none => return []
      | some (key, value) =>
          match g.kind key with
          | .merge =>
              removeEntry id index
              let given ← givenBy settle value
              return given ++ (← gather settle id count index)
          | .value =>
              set (g.setKind key .text)
              gather settle id count (index + 1)
          | _ => gather settle id count (index + 1)

/-- Gives a mapping the entries it takes over. Each call inside another has one key for merging
less before it. -/
def settleAt : (fuel : Nat) → NodeId → GraphM Unit
  | 0, _ => throw .tooDeep
  | fuel + 1, id => do
      let given ← gather (settleAt fuel) id ((← get).entries id).length 0
      if !given.isEmpty then
        modify fun g => g.setContent id (.mapping (given ++ g.entries id))

def entryCount (g : Graph) : Nat :=
  g.nodes.foldl
    (fun n node => match node.content with | .mapping entries => n + entries.length | _ => n) 0

/-- Gives a mapping the entries it takes over, where there is room for so many calls. -/
def settle (room : Room) (id : NodeId) : GraphM Unit := do
  settleAt (room.within ((← get).entryCount + 1)) id

end Graph

end StabsImport.Yaml
