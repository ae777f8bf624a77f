import LiveMarkup.Page.Mark
import LiveMarkup.Text.Case

/-!
What effects do. An effect evaluates at its owner and then writes to its node, or mounts or unmounts
its fragment; how to mount one is left open here.
-/

namespace LiveMarkup.Page

/-- The outcome of an interpolation at an instance; an evaluation that fails counts as falsy. -/
def evaluate (page : Page) (owner : InstanceId) (i : Interpolation) : Outcome × Page :=
  match i.evaluate (page.scope owner) with
  | .ok outcome => (outcome, page)
  | .error e => (.falsy, page.report (.evaluationFailed owner.number i.source e))

def writeText (page : Page) (node : NodeId) : Option String → Page
  | some s => page.editDom (·.setTextContent node s)
  | none => page

def upperText (s : String) : String :=
  String.ofList (Text.upper s.toList)

def writeAttribute (page : Page) (node : NodeId) (name : String) : Outcome → Page
  | .true => page.editDom (·.setAttribute node name "")
  | .text s => page.editDom (·.setAttribute node name s)
  | .falsy => page.editDom (·.eraseAttribute node name)

/-- Takes a fragment out of the document and keeps what it rendered. -/
def unmount (page : Page) (id : InstanceId) : Page :=
  match page.fragment? id with
  | some state =>
    if !state.attached then page
    else
      let page := match state.root with
        | some root => page.editDom fun dom => (dom.detach root).1
        | none => page
      let page := page.updateSlot id (·.mapFragment ({ · with attached := false }))
      { page with stats.unmounts := page.stats.unmounts + 1 }.report (.unmounted id.number)
  | none => page

/-- Runs an effect; `mount` mounts a fragment. -/
def runEffect (mount : InstanceId → Page → Page) (page : Page) (e : Effect) : Page :=
  let page := { page with stats.effectsRun := page.stats.effectsRun + 1, ran := e.id :: page.ran }
  match e.task, e.fragment with
  | .writeText i, _ =>
    let (outcome, page) := page.evaluate e.owner i
    page.writeText e.node outcome.text?
  | .writeUpper i, _ =>
    let (outcome, page) := page.evaluate e.owner i
    page.writeText e.node (outcome.text?.map upperText)
  | .writeAttribute name i, _ =>
    let (outcome, page) := page.evaluate e.owner i
    page.writeAttribute e.node name outcome
  | .guardFragment guard, some fragment =>
    let (outcome, page) := page.evaluate e.owner guard
    if outcome.isTruthy then mount fragment page else page.unmount fragment
  | .mountFragment, some fragment => mount fragment page
  | _, none => page

/-- Registers an effect under the fields that are bound at its owner or around it, and runs it. -/
def install (mount : InstanceId → Page → Page) (page : Page) (owner : InstanceId)
    (fields : Names) (node : NodeId) (fragment : Option InstanceId) (task : Task) : Page :=
  let e : Effect := ⟨⟨page.effects + 1⟩, owner, node, fragment, task⟩
  let page := { page with effects := page.effects + 1 }
  let bind := fun (page : Page) (field : String) =>
    if page.resolves owner field then
      page.updateSlot owner (·.mapBindings fun b => (b.ensure field).add field e)
    else page
  runEffect mount (fields.foldl bind page) e

end LiveMarkup.Page
