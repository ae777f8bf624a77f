import LiveMarkup.Page.Wire

/-!
Mounting fragments. The first mount renders a fragment; later mounts put the same nodes back and
apply what was marked in between. A fragment mounts only fragments of directives nested in its own
template, so mounting is a recursion on the nesting that is left.
-/

namespace LiveMarkup.Page

/-- Runs the effects of changed fields at one instance. -/
def runChanged (mount : InstanceId → Page → Page) (id : InstanceId)
    (state : Page × List EffectId) : Page × List EffectId :=
  let (page, seen) := state
  let (bindings, seen, effects) := (page.slot id).bindings.drain seen
  (effects.foldl (runEffect mount) (page.updateSlot id ({ · with bindings })), seen)

/-- Runs what is due in a mounted fragment and then in the fragments in it, `depth` levels down. -/
def updateFragment (mount : InstanceId → Page → Page) :
    Nat → Page × List EffectId → InstanceId → Page × List EffectId
  | 0, state, _ => state
  | depth + 1, (page, seen), id =>
    let i := page.slot id
    if !i.isAttached then (page, seen)
    else
      let (page, seen) :=
        if i.scheduled then
          runChanged mount id (page.updateSlot id ({ · with scheduled := false }), seen)
        else (page, seen)
      (page.slot id).children.foldl (updateFragment mount depth) (page, seen)

def setMounted (page : Page) (id : InstanceId) (root : NodeId) : Page :=
  let page := page.updateSlot id (·.mapFragment ({ · with root := some root, attached := true }))
  { page with stats.mounts := page.stats.mounts + 1 }

/-- Puts a rendered fragment back after its anchor. -/
def remount (mount : InstanceId → Page → Page) (depth : Nat) (page : Page) (id : InstanceId)
    (anchor root : NodeId) : Page :=
  match page.dom.insertAfter anchor root with
  | (_, false) => page.report (.anchorDetached id.number)
  | (dom, true) =>
    let page := ({ page with dom }.setMounted id root).report (.remounted id.number)
    (updateFragment mount depth (page, []) id).1

/-- Renders a fragment and puts its first element after the anchor. -/
def mountFirst (mount : InstanceId → Page → Page) (page : Page) (id : InstanceId)
    (blueprint : Blueprint) (anchor : NodeId) : Page :=
  let (dom, copy) := blueprint.instantiate page.dom
  match dom.firstElementChild? copy.root with
  | none => ({ page with dom := dom.remove copy.root }).report (.rootMissing id.number)
  | some root =>
    let marked := copy.marked.filter fun (_, node) => dom.contains root node
    let (dom, inserted) := dom.insertAfter anchor root
    let page := { page with dom := dom.remove copy.root }
    if !inserted then page.report (.anchorDetached id.number)
    else wireAll mount id blueprint marked ((page.setMounted id root).report (.mounted id.number))

/-- Mounts a fragment that is not mounted and lies in an attached instance. The number is the
nesting of directives that may still be mounted. -/
def mountWithin : Nat → InstanceId → Page → Page
  | 0, _, page => page
  | depth + 1, id, page =>
    match page.fragment? id with
    | none => page
    | some state =>
      if state.attached || !(page.slot id).parent.any page.isAttached then page
      else
        match state.root with
        | some root => remount (mountWithin depth) (depth + 1) page id state.anchor root
        | none => mountFirst (mountWithin depth) page id state.blueprint state.anchor

def mount (page : Page) (id : InstanceId) : Page :=
  match page.fragment? id with
  | some state => mountWithin state.blueprint.depth id page
  | none => page

/-- The element that a fragment rendered. -/
def fragmentRoot? (page : Page) (id : InstanceId) : Option NodeId :=
  (page.fragment? id).bind (·.root)

/-- Unmounts a fragment for good, with the fragments in it, `depth` levels down. -/
def retireWithin : Nat → Page → InstanceId → Page
  | 0, page, _ => page
  | depth + 1, page, id =>
    let page := page.unmount id
    let children := (page.slot id).children
    let page := children.foldl (retireWithin depth) (page.updateSlot id ({ · with children := [] }))
    let page := match page.fragmentRoot? id with
      | some root => page.editDom (·.remove root)
      | none => page
    page.release id

/-- Unmounts a fragment for good and frees its nodes and its slot. -/
def retire (page : Page) (id : InstanceId) : Page :=
  retireWithin page.slots.size page id

end LiveMarkup.Page
