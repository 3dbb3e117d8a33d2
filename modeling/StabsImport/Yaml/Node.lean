import StabsImport.Yaml.Schema

/-!
# YAML nodes

The nodes of a document by number, for a node may stand in several places, inside itself too. What
a node is made of is its content; what it is meant to be is its kind, which need not fit.
-/

namespace StabsImport.Yaml

abbrev NodeId := Nat

inductive Content where
  | scalar (text : String)
  | sequence (items : List NodeId)
  | mapping (entries : List (NodeId × NodeId))
  deriving DecidableEq, Repr, Inhabited

structure Node where
  kind : Kind
  content : Content
  deriving DecidableEq, Repr, Inhabited

structure Graph where
  nodes : Array Node := #[]
  deriving Inhabited

namespace Graph

def size (g : Graph) : Nat := g.nodes.size

def node (g : Graph) (id : NodeId) : Node := (g.nodes[id]?).getD default

def kind (g : Graph) (id : NodeId) : Kind := (g.node id).kind

def content (g : Graph) (id : NodeId) : Content := (g.node id).content

/-- The entries of a mapping. -/
def entries (g : Graph) (id : NodeId) : List (NodeId × NodeId) :=
  match g.content id with
  | .mapping entries => entries
  | _ => []

def push (g : Graph) (n : Node) : Graph := ⟨g.nodes.push n⟩

def setContent (g : Graph) (id : NodeId) (content : Content) : Graph :=
  ⟨g.nodes.modify id fun n => { n with content }⟩

def setKind (g : Graph) (id : NodeId) (kind : Kind) : Graph :=
  ⟨g.nodes.modify id fun n => { n with kind }⟩

@[simp] theorem size_push (g : Graph) (n : Node) : (g.push n).size = g.size + 1 := by
  simp [size, push]

@[simp] theorem size_setContent (g : Graph) (id : NodeId) (content : Content) :
    (g.setContent id content).size = g.size := by
  simp [size, setContent]

@[simp] theorem size_setKind (g : Graph) (id : NodeId) (kind : Kind) :
    (g.setKind id kind).size = g.size := by
  simp [size, setKind]

@[simp] theorem node_push_self (g : Graph) (n : Node) : (g.push n).node g.size = n := by
  simp [node, push, size]

end Graph

end StabsImport.Yaml
