import LiveMarkup.Markup.Parse
import LiveMarkup.Template.Registry

/-!
Compilation of templates. One walk over the markup, each node before its children, takes the
directives out and writes a definition for every node that a feature claims. An element with a
directive leaves the template; what lies in it is compiled as a template of its own.
-/

namespace LiveMarkup

/-- A template in the making. -/
structure Workbench where
  registry : Registry
  dom : Dom
  definitions : List (NodeDefinition Blueprint)

/-- Compilation may fail. What the registry has learned by then stays. -/
abbrev Compile := ExceptT CompileError (StateM Workbench)

namespace Compile

/-- The tag of the element that stands for a conditional one. -/
def placeholderTag : String :=
  "enso-placeholder"

def askRegistry {α : Type} (ask : Registry → Except CompileError (Shared α) × Registry) :
    Compile α := do
  let w ← get
  let (answer, registry) := ask w.registry
  set { w with registry }
  match answer with
  | .ok made => pure made.value
  | .error e => throw e

def report (notice : Notice) : Compile Unit :=
  modify fun w => { w with registry := w.registry.report notice }

def edit (change : Dom → Dom) : Compile Unit :=
  modify fun w => { w with dom := change w.dom }

def create (content : Content) : Compile NodeId := do
  let w ← get
  let (dom, id) := w.dom.create content
  set { w with dom }
  pure id

/-- Puts a node in place of another one; says whether there was a place. -/
def replace (old new : NodeId) : Compile Bool := do
  let w ← get
  let (dom, replaced) := w.dom.replaceWith old new
  set { w with dom }
  pure replaced

/-- The digits of `n` in the layout of a unique identifier. -/
def uniqueText (n : Nat) : String :=
  let digits := Text.hexDigits n
  "00000000-0000-4000-8000-" ++ String.ofList (List.replicate (12 - digits.length) '0' ++ digits)

/-- A word that no other template holds. -/
def freshWord : Compile String := do
  let w ← get
  let (made, registry) := w.registry.share ()
  set { w with registry }
  pure (uniqueText made.stamp)

/-- The definition of the next node to be claimed. -/
def nextDefinition : Compile (NodeDefinition Blueprint) := do
  pure (.unclaimed (← get).definitions.length)

/-- Gives a node its definition. -/
def claim (node : NodeId) (definition : NodeDefinition Blueprint) : Compile Unit :=
  modify fun w =>
    { w with
      dom := w.dom.setMarker node (some definition.index)
      definitions := w.definitions ++ [definition] }

/-- Makes a template of its own by `build`, which answers with the root. -/
def nested (build : Compile NodeId) : Compile Blueprint := do
  let outer ← get
  set { outer with dom := Dom.empty, definitions := [] }
  let root ← build
  let inner ← get
  report (.templateCompiled inner.definitions.length)
  modify fun w => { w with dom := outer.dom, definitions := outer.definitions }
  pure ⟨inner.dom, root, inner.definitions⟩

/-- Takes an attribute off its node for a feature that applies to it. -/
def prepareAttribute (definition : NodeDefinition Blueprint) (node : NodeId) (a : Attribute) :
    Feature → Compile (Option (NodeDefinition Blueprint))
  | .reference => do
    edit (·.eraseAttribute node a.name)
    pure (some { definition with reference := some a.markedName })
  | .event => do
    let handler ← try
        let handler ← askRegistry (·.handler a.value)
        pure (some handler)
      catch e =>
        report (.badHandler a.markedName a.value e)
        pure none
    edit (·.eraseAttribute node a.name)
    let events := definition.events ++ [⟨a.markedName, a.value, handler⟩]
    pure (some { definition with events })
  | .binding => do
    let interpolation ← askRegistry (·.interpolation a.value)
    edit (·.eraseAttribute node a.name)
    let attributes := definition.attributes ++ [⟨a.markedName, interpolation⟩]
    pure (some { definition with attributes })
  | .upper => do
    let interpolation ← askRegistry (·.expression a.value)
    edit (·.eraseAttribute node a.name)
    pure (some { definition with content := definition.content ++ [interpolation] })
  | _ => pure none

/-- Offers an attribute to the features that apply to it, up to the first that claims it. -/
def offerAttribute (definition : NodeDefinition Blueprint) (node : NodeId) (a : Attribute) :
    List Feature → Compile (NodeDefinition Blueprint)
  | [] => pure definition
  | feature :: rest => do
    if feature.accepts ((← get).dom.content node) (some a) then
      match ← prepareAttribute definition node a feature with
      | some definition => pure (definition.claim feature)
      | none => offerAttribute definition node a rest
    else offerAttribute definition node a rest

def offerAttributes (definition : NodeDefinition Blueprint) (node : NodeId) :
    List Attribute → Compile (NodeDefinition Blueprint)
  | [] => pure definition
  | a :: rest => do
    let definition ← offerAttribute definition node a (← get).registry.attributeFeatures
    offerAttributes definition node rest

/-- An element without a directive. -/
def visitPlain (node : NodeId) : Compile Unit := do
  let w ← get
  let definition ← offerAttributes (← nextDefinition) node (w.dom.content node).attributes
  if definition.isClaimed then claim node definition

/-- An element by itself, without its directive. `inside` compiles what lies below an element. -/
def nestedElement (inside : List NodeId → Compile Unit) (node : NodeId) (directive : String) :
    Compile Blueprint := do
  let source := (← get).dom
  nested do
    let root ← create .fragment
    let (dom, copy) := (← get).dom.importFrom source node
    let dom := (dom.eraseAttribute copy.root directive).appendChild root copy.root
    edit fun _ => dom
    visitPlain copy.root
    inside (dom.children copy.root)
    pure root

/-- What lies below an element, without the element, of which an empty copy is left beside it. -/
def nestedChildren (inside : List NodeId → Compile Unit) (node : NodeId) (directive : String) :
    Compile Blueprint := do
  let source := (← get).dom
  nested do
    let root ← create .fragment
    let (dom, copy) := (← get).dom.importFrom source node
    let dom := (dom.eraseAttribute copy.root directive).moveChildren copy.root root
    edit fun _ => dom
    inside (dom.children root)
    pure root

/-- Leaves a comment for a directive that binds a word. -/
def bindWord (definition : NodeDefinition Blueprint) (node : NodeId) (a : Attribute) (kind : String)
    (blueprint : Blueprint) : Compile (Option (NodeDefinition Blueprint × NodeId)) := do
  let anchor ← create (.comment kind)
  if ← replace node anchor then
    let guard ← askRegistry (·.expression "true")
    pure (some ({ definition with directive := some ⟨kind, a.value, blueprint, guard⟩ }, anchor))
  else pure none

/-- Takes an element with a directive out of the template. The result is the node left in its place,
or nothing when the element has no place. -/
def prepareDirective (inside : List NodeId → Compile Unit) (definition : NodeDefinition Blueprint)
    (node : NodeId) (a : Attribute) : Feature → Compile (Option (NodeDefinition Blueprint × NodeId))
  | .conditional => do
    let guard ← if Markup.hasSpan a.value then askRegistry (·.interpolation a.value)
      else askRegistry (·.expression a.value)
    let blueprint ← nestedElement inside node a.name
    let id := "enso-" ++ toString definition.index ++ "-" ++ (← freshWord)
    let placeholder ← create (.element placeholderTag [⟨"id", id⟩])
    if ← replace node placeholder then
      pure (some ({ definition with directive := some ⟨"if", id, blueprint, guard⟩ }, placeholder))
    else pure none
  | .scope => do
    let blueprint ← nestedElement inside node a.name
    bindWord definition node a "scope" blueprint
  | .inner => do
    let blueprint ← nestedChildren inside node a.name
    bindWord definition node a "inner" blueprint
  | _ => pure none

/-- Offers a directive to the features that apply to it, up to the first that claims it. -/
def offerDirective (inside : List NodeId → Compile Unit) (definition : NodeDefinition Blueprint)
    (node : NodeId) (a : Attribute) : List Feature → Compile Unit
  | [] => throw (.unsupportedDirective a.name)
  | feature :: rest => do
    if feature.accepts ((← get).dom.content node) (some a) then
      match ← prepareDirective inside definition node a feature with
      | some (definition, place) => claim place (definition.claim feature)
      | none => offerDirective inside definition node a rest
    else offerDirective inside definition node a rest

/-- An element with a directive; the other directives on it are dropped. -/
def visitDirective (inside : List NodeId → Compile Unit) (node : NodeId) (kept : Attribute)
    (discarded : List Attribute) : Compile Unit := do
  let definition ← nextDefinition
  if !discarded.isEmpty then
    report (.directivesDiscarded kept.name (discarded.map (·.name)))
    edit fun dom => discarded.foldl (fun dom a => dom.eraseAttribute node a.name) dom
  offerDirective inside definition node kept (← get).registry.nodeFeatures

/-- Offers a text to the features that apply to it. -/
def visitText (node : NodeId) (s : String) : Compile Unit := do
  let w ← get
  if w.registry.nodeFeatures.any (·.accepts (.text s) none) then
    let definition ← nextDefinition
    let interpolation ← askRegistry (·.interpolation s)
    edit (·.setTextContent node "")
    claim node ({ definition with content := [interpolation] }.claim .text)

mutual

/-- Compiles what is at and below a node; the tree is the shape of it. -/
def walk : Tree → NodeId → Compile Unit
  | .node _ _ below, id => do
    match (← get).dom.content id with
    | .text s => visitText id s
    | .comment _ => pure ()
    | .fragment => walkAll below ((← get).dom.children id)
    | .element _ attributes =>
      match attributes.filter (·.isDirective) with
      | kept :: discarded => visitDirective (walkAll below) id kept discarded
      | [] => do
        visitPlain id
        walkAll below ((← get).dom.children id)

def walkAll : List Tree → List NodeId → Compile Unit
  | tree :: trees, id :: ids => do
    walk tree id
    walkAll trees ids
  | _, _ => pure ()

end

end Compile

namespace Registry

/-- Compiles markup that is parsed already. -/
def compileFragment (r : Registry) (dom : Dom) (root : NodeId) :
    Except CompileError (Shared Blueprint) × Registry :=
  match Compile.walk (dom.tree root) root ⟨r, dom, []⟩ with
  | (.error e, w) => (.error e, w.registry)
  | (.ok (), w) =>
    let (made, r) := w.registry.share ⟨w.dom, root, w.definitions⟩
    (.ok made, r.report (.templateCompiled w.definitions.length))

/-- Compiles markup anew. -/
def compileUncached (r : Registry) (markup : String) :
    Except CompileError (Shared Blueprint) × Registry :=
  match Dom.empty.parse markup with
  | (_, .error e) => (.error (.markup e), r)
  | (dom, .ok root) => r.compileFragment dom root

/-- Compiles markup, once for every text. -/
def compile (r : Registry) (markup : String) : Except CompileError (Shared Blueprint) × Registry :=
  match r.templates.get? markup with
  | some held => (.ok held, r)
  | none =>
    match r.compileUncached markup with
    | (.error e, r) => (.error e, r)
    | (.ok made, r) => (.ok made, { r with templates := r.templates.insert markup made })

end Registry

end LiveMarkup
