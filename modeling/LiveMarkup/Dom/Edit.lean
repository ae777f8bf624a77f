import LiveMarkup.Dom.Basic

/-!
Changes to the trees of a store. A node is moved by unlinking it first, so it never has two parents,
and a move that would put a node below itself is refused.
-/

namespace LiveMarkup.Dom

def setMarker (d : Dom) (id : NodeId) (marker : Option Nat) : Dom :=
  d.update id ({ · with marker })

def setAttribute (d : Dom) (id : NodeId) (name value : String) : Dom :=
  d.update id fun n => { n with content := n.content.setAttribute name value }

def eraseAttribute (d : Dom) (id : NodeId) (name : String) : Dom :=
  d.update id fun n => { n with content := n.content.eraseAttribute name }

/-- Sets an attribute, or removes it for no value. -/
def putAttribute (d : Dom) (id : NodeId) (name : String) : Option String → Dom
  | some value => d.setAttribute id name value
  | none => d.eraseAttribute id name

/-- Unlinks a node from its parent; says whether it had one. -/
def detach (d : Dom) (id : NodeId) : Dom × Bool :=
  match d.parent id with
  | some parent =>
    ((d.update id ({ · with parent := none })).update parent fun n =>
      { n with children := n.children.filter (· ≠ id) }, true)
  | none => (d, false)

/-- Makes a node without a parent the last child of `parent`. -/
def link (d : Dom) (parent child : NodeId) : Dom :=
  (d.update child ({ · with parent := some parent })).update parent fun n =>
    { n with children := n.children ++ [child] }

/-- Moves `child` to the end of `parent`'s children, unless `parent` is `child` or below it. -/
def appendChild (d : Dom) (parent child : NodeId) : Dom :=
  if d.contains child parent then d else (d.detach child).1.link parent child

/-- `node` placed `offset` places after `reference`, or last without a `reference`. -/
def placeAt (siblings : List NodeId) (reference node : NodeId) (offset : Nat) : List NodeId :=
  match siblings.idxOf? reference with
  | some position => siblings.take (position + offset) ++ node :: siblings.drop (position + offset)
  | none => siblings ++ [node]

/-- Moves `node` beside `reference`; refused, without effect, when `reference` has no parent or when
the parent lies at or below `node`. -/
def insertBeside (d : Dom) (offset : Nat) (reference node : NodeId) : Dom × Bool :=
  match d.parent reference with
  | none => (d, false)
  | some parent =>
    if node = reference || d.contains node parent then (d, false)
    else
      let d := (d.detach node).1
      let d := d.update parent fun n =>
        { n with children := placeAt n.children reference node offset }
      (d.update node ({ · with parent := some parent }), true)

def insertBefore (d : Dom) (reference node : NodeId) : Dom × Bool :=
  d.insertBeside 0 reference node

def insertAfter (d : Dom) (reference node : NodeId) : Dom × Bool :=
  d.insertBeside 1 reference node

/-- Puts `new` where `old` is and unlinks `old`. -/
def replaceWith (d : Dom) (old new : NodeId) : Dom × Bool :=
  match d.insertBefore old new with
  | (d, true) => d.detach old
  | (d, false) => (d, false)

/-- Moves the children of `source` to the end of `target`'s, in their order. -/
def moveChildren (d : Dom) (source target : NodeId) : Dom :=
  (d.children source).foldl
    (fun d child => (d.update child ({ · with parent := none })).appendChild target child)
    (d.update source ({ · with children := [] }))

/-- Empties the slots of the nodes on a stack and of everything below them, at most `steps` slots.
-/
def freeAll : Nat → Dom → List NodeId → Dom
  | 0, d, _ => d
  | _, d, [] => d
  | steps + 1, d, id :: stack =>
    let children := d.children id
    let d := d.update id fun _ => Node.vacant
    freeAll steps { d with free := id :: d.free } (children.reverse ++ stack)

/-- The number of links from parents to children. Emptying a slot takes its links away, so no more
slots than these and one are ever emptied together. -/
def linkCount (d : Dom) : Nat :=
  d.nodes.toList.foldr (fun n total => n.children.length + total) 0

/-- Unlinks a node and frees it with everything below it. Freed nodes stay as they are. -/
def remove (d : Dom) (id : NodeId) : Dom :=
  if (d.node id).freed then d
  else
    let d := (d.detach id).1
    freeAll (d.linkCount + 1) d [id]

/-- Sets the text of a text or a comment; every other node gets it as its only child, or no child
when the text is empty. -/
def setTextContent (d : Dom) (id : NodeId) (s : String) : Dom :=
  match d.content id with
  | .text _ => d.update id ({ · with content := .text s })
  | .comment _ => d.update id ({ · with content := .comment s })
  | _ =>
    let d := (d.children id).foldl remove d
    if s.isEmpty then d
    else
      let (d, text) := d.create (.text s)
      d.appendChild id text

end LiveMarkup.Dom
