import LiveMarkup.Page.Mount
import LiveMarkup.Page.Write

/-!
The life of a component: defined under its tag, created, connected and disconnected, as often as
wanted.
-/

namespace LiveMarkup.Page

def isDefined (page : Page) (tag : String) : Bool :=
  page.definitions.contains tag

def define (page : Page) (definition : Component) : Except DefinitionError Page :=
  if !Component.isValidTag definition.tag then .error (.invalidTag definition.tag)
  else if page.isDefined definition.tag then .error (.duplicateTag definition.tag)
  else
    let definitions := page.definitions.insert definition.tag definition
    .ok ({ page with definitions }.report (.componentDefined definition.tag))

/-- A new component with its host, which has no parent yet. -/
def create (page : Page) (tag : String) : Except PageError (Page × InstanceId) :=
  match page.definitions.get? tag with
  | none => .error (.unknownTag tag)
  | some definition =>
    let (dom, host) := page.dom.createElement tag
    let id := page.nextSlot
    let fields := definition.defaults
    let state : ComponentState := ⟨definition, host, host, fields, .empty, false⟩
    let bindings := fields.keys.foldl Bindings.ensure .empty
    .ok ({ page with dom }.occupy { Instance.alone id (.component state) with bindings }, id)

/-- Renders the template of a component into its root. -/
def render (page : Page) (id : InstanceId) (definition : Component) (root : NodeId) : Page :=
  let blueprint := definition.blueprint
  let (dom, copy) := blueprint.instantiate page.dom
  let page := wireAll (mountWithin blueprint.depth) id blueprint copy.marked { page with dom }
  page.editDom fun dom => (dom.moveChildren copy.root root).remove copy.root

/-- A root of its own for a component, or its host. -/
def makeRoot (page : Page) (state : ComponentState) : Page × NodeId :=
  if state.definition.usesShadow then
    let (dom, root) := page.dom.create .fragment
    ({ page with dom }, root)
  else (page, state.host)

/-- Appends the host of a component to `parent` and renders the component. -/
def connect (page : Page) (id : InstanceId) (parent : NodeId) : Except PageError Page :=
  match page.component? id with
  | none => .error (.notAComponent id)
  | some state =>
    if state.connected then .ok page
    else
      let definition := state.definition
      let page := page.editDom (·.appendChild parent state.host)
      let page := definition.forcedProperties.foldl (fun page p => page.reflect id p.name) page
      let (page, root) := page.makeRoot state
      let page := page.updateSlot id fun i =>
        (i.mapBindings (·.clearChanges)).mapComponent ({ · with root, connected := true })
      let page := page.render id definition root
      let page := page.editDom fun dom => page.styles.attach dom root definition.styles
      .ok ((page.report (.connected definition.tag id.number)).callHook id (·.started))

/-- Frees what a component rendered. -/
def clearRoot (page : Page) (host root : NodeId) : Page :=
  if root = host then page.editDom fun dom => (dom.children root).foldl (·.remove ·) dom
  else page.editDom (·.remove root)

/-- Drops the references, the effects and the rendered root of a component. -/
def resetComponent (i : Instance) : Instance :=
  ({ i with scheduled := false }.mapBindings (·.clearEffects)).mapComponent fun state =>
    { state with references := .empty, connected := false, root := state.host }

/-- Tears a component down to its host and its fields. -/
def disconnect (page : Page) (id : InstanceId) : Except PageError Page :=
  match page.component? id with
  | none => .error (.notAComponent id)
  | some state =>
    if !state.connected then .ok page
    else
      let page := page.callHook id (·.removed)
      let children := (page.slot id).children
      let page := children.foldl retire (page.updateSlot id ({ · with children := [] }))
      let page := page.updateSlot id resetComponent
      let page := { page with
        queue := page.queue.filter (· ≠ id)
        listeners := page.listeners.filter (·.component ≠ id) }
      let page := page.clearRoot state.host state.root
      let page := page.editDom fun dom => (dom.detach state.host).1
      .ok (page.report (.disconnected id.number))

/-- Sets or removes an attribute of the host, whatever the case of its name. The property that
reflects it takes over the value. -/
def setHostAttribute (page : Page) (id : InstanceId) (name : String) (value : Option String) :
    Except PageError Page :=
  match page.component? id with
  | none => .error (.notAComponent id)
  | some state =>
    let name := Text.asciiLower name
    if page.dom.attribute? state.host name = value then .ok page
    else
      let page := page.editDom (·.putAttribute state.host name value)
      match state.definition.attributeProperty? name with
      | none => .ok page
      | some property =>
        match property.converter with
        | none => .ok page
        | some converter =>
          let value := converter.toValue value
          match page.field? id property.name with
          | some old => if old == value then .ok page else page.set id property.name value
          | none => page.set id property.name value

/-- The markup that a component shows. -/
def html? (page : Page) (id : InstanceId) : Option String :=
  (page.component? id).map fun state => page.dom.innerHtml state.root

end LiveMarkup.Page
