import LiveMarkup.Dom.Edit

/-!
A tree by itself, without slots. `Dom.tree` reads the tree below a node and `Dom.graft` builds one,
so a copy from one store into another is the one after the other.
-/

namespace LiveMarkup

inductive Tree where
  | node (content : Content) (marker : Option Nat) (children : List Tree)

namespace Tree

instance : Inhabited Tree :=
  ⟨node .fragment none []⟩

def leaf (content : Content) : Tree :=
  node content none []

def content : Tree → Content
  | node content _ _ => content

def children : Tree → List Tree
  | node _ _ children => children

end Tree

namespace Dom

/-- The tree at `id`, cut off `depth` levels below it. -/
def treeTo (d : Dom) : Nat → NodeId → Tree
  | 0, id => .node (d.content id) (d.marker id) []
  | depth + 1, id => .node (d.content id) (d.marker id) ((d.children id).map (d.treeTo depth))

/-- The tree at a node. -/
def tree (d : Dom) (id : NodeId) : Tree :=
  d.treeTo d.nodes.size id

/-- What grafting a tree made: the new root and every node that carries a marker, in document order.
-/
structure Copy where
  root : NodeId
  marked : List (Nat × NodeId)
  deriving DecidableEq, Repr

mutual

/-- Builds a tree of new nodes, each before its children. -/
def graft (d : Dom) : Tree → Dom × Copy
  | .node content marker children =>
    let (d, root) := d.create content
    let (d, below) := (d.setMarker root marker).graftChildren root children
    let own := match marker with
      | some index => [(index, root)]
      | none => []
    (d, ⟨root, own ++ below⟩)

/-- Builds trees as the last children of `parent`; the result lists the nodes with a marker. -/
def graftChildren (d : Dom) (parent : NodeId) : List Tree → Dom × List (Nat × NodeId)
  | [] => (d, [])
  | tree :: rest =>
    let (d, copy) := d.graft tree
    let (d, marked) := (d.link parent copy.root).graftChildren parent rest
    (d, copy.marked ++ marked)

end

/-- Copies the tree at a node of `source`, markers included. The copy has no parent. -/
def importFrom (d source : Dom) (id : NodeId) : Dom × Copy :=
  d.graft (source.tree id)

end Dom

end LiveMarkup
