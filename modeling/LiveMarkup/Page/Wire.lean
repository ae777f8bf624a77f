import LiveMarkup.Page.Reaction

/-!
Wiring a fresh copy of a template: every claimed node gets its effects, its handlers, its reference
and its fragment.
-/

namespace LiveMarkup.Page

/-- A new fragment in `parent`, not mounted yet. -/
def createFragment (page : Page) (parent : InstanceId) (blueprint : Blueprint) (anchor : NodeId)
    (locals : Dict Expr.Value) : Page × InstanceId :=
  let id := page.nextSlot
  let state : FragmentState := ⟨blueprint, anchor, none, false, locals⟩
  let component := (page.slot parent).component
  let page := page.occupy ⟨some parent, component, .empty, [], false, .fragment state⟩
  (page.updateSlot parent fun p => { p with children := p.children ++ [id] }, id)

def setReference (page : Page) (owner : InstanceId) (name : String) (node : NodeId) : Page :=
  page.updateSlot (page.slot owner).component
    (·.mapComponent fun state => { state with references := state.references.insert name node })

/-- A method that a handler names and that the component at `owner` does not have. -/
def missingMethod? (page : Page) (owner : InstanceId) (handler : Handler) : Option String :=
  let has := fun (name : String) =>
    match page.component? (page.slot owner).component with
    | some state => state.definition.hasMethod name
    | none => false
  handler.methods.find? (!has ·)

/-- Registers the handler of an event; one that names a missing method never runs. -/
def listen (owner : InstanceId) (node : NodeId) (page : Page) (binding : EventBinding) : Page :=
  let (handler, page) := match binding.handler with
    | none => (none, page)
    | some handler =>
      match page.missingMethod? owner handler with
      | none => (some handler, page)
      | some method => (none, page.report (.missingMethod binding.name method))
  let listener : Listener :=
    ⟨node, Text.asciiLower binding.name, (page.slot owner).component, owner, handler⟩
  { page with listeners := page.listeners ++ [listener] }

def anchorText : String :=
  "enso:fragment"

/-- Puts an anchor in place of the element that stands for a conditional one. -/
def placeAnchor (page : Page) (node : NodeId) : Page × NodeId :=
  let (dom, anchor) := page.dom.create (.comment anchorText)
  match dom.replaceWith node anchor with
  | (dom, true) => ({ page with dom := dom.remove node }, anchor)
  | (dom, false) => ({ page with dom }, anchor)

def reportMismatch (page : Page) (index : Nat) (directive : Directive Blueprint) (node : NodeId) :
    Page :=
  if page.dom.attribute? node "id" = some directive.placeholder then page
  else page.report (.placeholderMismatch index)

/-- Brings one feature of a claimed node to life. -/
def wire (mount : InstanceId → Page → Page) (owner : InstanceId)
    (definition : NodeDefinition Blueprint) (node : NodeId) (page : Page) : Feature → Page
  | .text =>
    definition.content.foldl
      (fun page i => page.install mount owner i.dependencies node none (.writeText i)) page
  | .upper =>
    definition.content.foldl
      (fun page i => page.install mount owner i.dependencies node none (.writeUpper i)) page
  | .binding =>
    definition.attributes.foldl
      (fun page a => page.install mount owner a.interpolation.dependencies node none
        (.writeAttribute a.name a.interpolation)) page
  | .event => definition.events.foldl (listen owner node) page
  | .reference =>
    match definition.reference with
    | some name => page.setReference owner name node
    | none => page
  | .conditional =>
    match definition.directive with
    | none => page
    | some directive =>
      let (page, anchor) := (page.reportMismatch definition.index directive node).placeAnchor node
      let (page, fragment) := page.createFragment owner directive.blueprint anchor .empty
      page.install mount owner directive.dependencies anchor (some fragment)
        (.guardFragment directive.guard)
  | .scope | .inner =>
    match definition.directive with
    | none => page
    | some directive =>
      let locals := Dict.empty.insert "item" (.ofString directive.placeholder)
      let (page, fragment) := page.createFragment owner directive.blueprint node locals
      page.install mount owner [] node (some fragment) .mountFragment

/-- Brings the claimed nodes of a fresh copy to life. -/
def wireAll (mount : InstanceId → Page → Page) (owner : InstanceId) (blueprint : Blueprint) :
    List (Nat × NodeId) → Page → Page
  | [], page => page
  | (index, node) :: rest, page =>
    match blueprint.definition? index with
    | none => wireAll mount owner blueprint rest (page.report (.undefinedMarker index))
    | some definition =>
      let page := page.editDom (·.setMarker node none)
      wireAll mount owner blueprint rest
        (definition.features.foldl (wire mount owner definition node) page)

end LiveMarkup.Page
