/-!
A store of nodes that form any number of trees. A node is named by its slot. Freeing a node empties
its slot, and the slot freed last is the first one used again.
-/

namespace LiveMarkup

structure NodeId where
  slot : Nat
  deriving DecidableEq, Repr

structure Attribute where
  name : String
  value : String
  deriving DecidableEq, Repr

/-- What a node is. A fragment only holds children. -/
inductive Content where
  | fragment
  | element (tag : String) (attributes : List Attribute)
  | text (s : String)
  | comment (s : String)
  deriving DecidableEq, Repr

namespace Content

def isElement : Content → Bool
  | element _ _ => true
  | _ => false

def isText : Content → Bool
  | text _ => true
  | _ => false

def tag? : Content → Option String
  | element tag _ => some tag
  | _ => none

def attributes : Content → List Attribute
  | element _ attributes => attributes
  | _ => []

def attribute? (content : Content) (name : String) : Option String :=
  (content.attributes.find? (·.name = name)).map (·.value)

/-- The text of a text or a comment. -/
def characters? : Content → Option String
  | text s => some s
  | comment s => some s
  | _ => none

/-- Replaces the value under a name, or adds the name at the end. Only elements have attributes. -/
def setAttribute (content : Content) (name value : String) : Content :=
  match content with
  | element tag attributes =>
    if attributes.any (·.name = name) then
      .element tag (attributes.map fun a => if a.name = name then ⟨name, value⟩ else a)
    else .element tag (attributes ++ [⟨name, value⟩])
  | other => other

def eraseAttribute (content : Content) (name : String) : Content :=
  match content with
  | element tag attributes => .element tag (attributes.eraseP (·.name = name))
  | other => other

end Content

structure Node where
  content : Content
  parent : Option NodeId
  children : List NodeId
  /-- The definition that claimed the node. -/
  marker : Option Nat
  freed : Bool
  deriving DecidableEq, Repr

/-- A node by itself. -/
def Node.alone (content : Content) : Node :=
  ⟨content, none, [], none, false⟩

/-- What an empty slot holds. -/
def Node.vacant : Node :=
  ⟨.fragment, none, [], none, true⟩

structure Dom where
  nodes : Array Node
  /-- Empty slots, the one freed last in front. -/
  free : List NodeId
  deriving DecidableEq, Repr

namespace Dom

def empty : Dom :=
  ⟨#[], []⟩

instance : Inhabited Dom :=
  ⟨empty⟩

/-- The number of live nodes. -/
def size (d : Dom) : Nat :=
  d.nodes.size - d.free.length

def node (d : Dom) (id : NodeId) : Node :=
  d.nodes[id.slot]?.getD Node.vacant

def update (d : Dom) (id : NodeId) (f : Node → Node) : Dom :=
  { d with nodes := d.nodes.modify id.slot f }

/-- A new node in the slot freed last, or in a new slot. -/
def create (d : Dom) (content : Content) : Dom × NodeId :=
  match d.free with
  | id :: rest => (⟨d.nodes.setIfInBounds id.slot (Node.alone content), rest⟩, id)
  | [] => (⟨d.nodes.push (Node.alone content), []⟩, ⟨d.nodes.size⟩)

/-- A new element; tags are lowercase. -/
def createElement (d : Dom) (tag : String) : Dom × NodeId :=
  d.create (.element (tag.map Char.toLower) [])

def content (d : Dom) (id : NodeId) : Content :=
  (d.node id).content

def parent (d : Dom) (id : NodeId) : Option NodeId :=
  (d.node id).parent

def children (d : Dom) (id : NodeId) : List NodeId :=
  (d.node id).children

def marker (d : Dom) (id : NodeId) : Option Nat :=
  (d.node id).marker

def attribute? (d : Dom) (id : NodeId) (name : String) : Option String :=
  (d.content id).attribute? name

def firstElementChild? (d : Dom) (id : NodeId) : Option NodeId :=
  (d.children id).find? fun child => (d.content child).isElement

/-- `id`, its parent and so on, at most `steps` nodes. -/
def climb (d : Dom) : Nat → NodeId → List NodeId
  | 0, _ => []
  | steps + 1, id =>
    id :: match d.parent id with
      | some parent => d.climb steps parent
      | none => []

/-- `id` and its ancestors, nearest first. No path is longer than there are slots. -/
def path (d : Dom) (id : NodeId) : List NodeId :=
  d.climb d.nodes.size id

/-- Whether `node` is `ancestor` or lies below it. -/
def contains (d : Dom) (ancestor node : NodeId) : Bool :=
  (d.path node).contains ancestor

/-- `id` and what lies at most `depth` levels below it, in document order. -/
def descend (d : Dom) : Nat → NodeId → List NodeId
  | 0, id => [id]
  | depth + 1, id => id :: (d.children id).flatMap (d.descend depth)

/-- `id` and everything below it, in document order. -/
def descendants (d : Dom) (id : NodeId) : List NodeId :=
  d.descend d.nodes.size id

/-- The texts at and below a node, joined. -/
def textContent (d : Dom) (id : NodeId) : String :=
  String.join ((d.descendants id).filterMap fun n =>
    match d.content n with
    | .text s => some s
    | _ => none)

end Dom

end LiveMarkup
