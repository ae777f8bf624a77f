import LiveMarkup.Dom.StyleSheets
import LiveMarkup.Notice
import LiveMarkup.Page.Instance

/-!
A live page: the document, the instances in it and the passes they wait for. Components and
fragments share one row of slots.
-/

namespace LiveMarkup

/-- A handler of an event at a node. -/
structure Listener where
  node : NodeId
  event : String
  component : InstanceId
  /-- The instance in whose scope the handler evaluates. -/
  scope : InstanceId
  /-- None for a handler that cannot run. -/
  handler : Option Handler

structure Stats where
  passes : Nat
  effectsRun : Nat
  mounts : Nat
  unmounts : Nat
  deriving DecidableEq, Repr

structure Page where
  dom : Dom
  document : NodeId
  slots : Array Instance
  /-- Empty slots, the one freed last in front. -/
  free : List InstanceId
  definitions : Dict Component
  /-- In the order of their registration. -/
  listeners : List Listener
  /-- Components waiting for a pass, in the order of their requests. -/
  queue : List InstanceId
  /-- How many effects were made. -/
  effects : Nat
  /-- The effects that ran, the last one in front. -/
  ran : List EffectId
  stats : Stats
  styles : StyleAttacher
  notices : Array Notice
  /-- What scripts have noted. -/
  journal : Array Json
  /-- Whether writes of scripts were nested too deep to run them all. -/
  overrun : Bool

namespace Page

/-- An empty document. -/
def start (styles : StyleAttacher) : Page :=
  let (dom, document) := Dom.empty.create .fragment
  { dom, document, slots := #[], free := [], definitions := .empty, listeners := [], queue := [],
    effects := 0, ran := [], stats := ⟨0, 0, 0, 0⟩, styles, notices := #[], journal := #[],
    overrun := false }

def report (page : Page) (notice : Notice) : Page :=
  { page with notices := page.notices.push notice }

def editDom (page : Page) (change : Dom → Dom) : Page :=
  { page with dom := change page.dom }

def slot (page : Page) (id : InstanceId) : Instance :=
  page.slots[id.number]?.getD (.alone id .vacant)

def updateSlot (page : Page) (id : InstanceId) (f : Instance → Instance) : Page :=
  { page with slots := page.slots.modify id.number f }

def component? (page : Page) (id : InstanceId) : Option ComponentState :=
  (page.slot id).component?

def fragment? (page : Page) (id : InstanceId) : Option FragmentState :=
  (page.slot id).fragment?

def isAttached (page : Page) (id : InstanceId) : Bool :=
  (page.slot id).isAttached

/-- The number of components and fragments. -/
def liveCount (page : Page) : Nat :=
  page.slots.size - page.free.length

def hasPendingPass (page : Page) : Bool :=
  !page.queue.isEmpty

/-- The slot that the next instance gets. -/
def nextSlot (page : Page) : InstanceId :=
  match page.free with
  | id :: _ => id
  | [] => ⟨page.slots.size⟩

/-- Puts an instance into the next slot. -/
def occupy (page : Page) (i : Instance) : Page :=
  match page.free with
  | id :: rest => { page with slots := page.slots.setIfInBounds id.number i, free := rest }
  | [] => { page with slots := page.slots.push i }

/-- Empties a slot for use by a later instance. -/
def release (page : Page) (id : InstanceId) : Page :=
  if (page.slot id).isVacant then page
  else { page.updateSlot id fun _ => .alone id .vacant with free := id :: page.free }

/-- `id`, the instance around it and so on, at most `steps` instances. -/
def climb (page : Page) : Nat → InstanceId → List InstanceId
  | 0, _ => []
  | steps + 1, id =>
    id :: match (page.slot id).parent with
      | some parent => page.climb steps parent
      | none => []

/-- `id` and the instances around it, nearest first. -/
def path (page : Page) (id : InstanceId) : List InstanceId :=
  page.climb page.slots.size id

/-- `id` and the fragments in it, at most `depth` levels down. -/
def descend (page : Page) : Nat → InstanceId → List InstanceId
  | 0, id => [id]
  | depth + 1, id => id :: (page.slot id).children.flatMap (page.descend depth)

/-- `id` and all fragments in it, each before its own. -/
def family (page : Page) (id : InstanceId) : List InstanceId :=
  page.descend page.slots.size id

/-- Whether a field is bound at an instance or around it. -/
def resolves (page : Page) (id : InstanceId) (field : String) : Bool :=
  (page.path id).any fun i => (page.slot i).bindings.contains field

/-- What expressions at an instance see: the names of the fragments around it, nearest first, then
the fields and the exposed values of its component. -/
def scope (page : Page) (id : InstanceId) : Scope :=
  (page.path id).filterMap fun i => (page.slot i).frame?

def shown (page : Page) : String :=
  let stats := Text.shownRecord "RuntimeStats"
    [("passes", toString page.stats.passes), ("effects_run", toString page.stats.effectsRun),
      ("mounts", toString page.stats.mounts), ("unmounts", toString page.stats.unmounts)]
  Text.shownPartly "Runtime"
    [("instances", toString page.liveCount),
      ("definitions", Text.shownList (page.definitions.keys.map Text.quoted)),
      ("pending_frames", toString page.queue.length), ("stats", stats)]

end Page

end LiveMarkup
