import LiveMarkup.Page.Mark

/-!
Writes to fields, and the scripts that they run. A hook may write again, so writes nest; a write
nested deeper than `nestingLimit` still stores its value, but its hook does not run.
-/

namespace LiveMarkup

namespace Page

def field? (page : Page) (id : InstanceId) (field : String) : Option Json :=
  (page.component? id).bind fun state => state.fields.get? field

/-- Writes the attribute that reflects a field, if there is one and it differs. -/
def reflect (page : Page) (id : InstanceId) (field : String) : Page :=
  match page.component? id with
  | none => page
  | some state =>
    match state.definition.converter? field with
    | none => page
    | some converter =>
      let name := Text.asciiLower field
      let wanted := converter.toAttribute ((state.fields.get? field).getD .null)
      if wanted = page.dom.attribute? state.host name then page
      else page.editDom (·.putAttribute state.host name wanted)

/-- Stores a value, marks its field and reflects it. -/
def store (page : Page) (id : InstanceId) (field : String) (value : Json) : Page :=
  let page := page.updateSlot id
    (·.mapComponent fun state => { state with fields := state.fields.insert field value })
  (page.markChanged id field).reflect id field

/-- Runs a script of a component; `write` writes a field. -/
def run (write : String → Json → Page → Page) (id : InstanceId) : Script → Page → Page
  | .done, page => page
  | .get field next, page => run write id (next (page.field? id field)) page
  | .look next, page =>
    match page.component? id with
    | some ⟨_, host, root, _, references, _⟩ =>
      run write id (next ⟨id, references, host, root, page.dom⟩) page
    | none => page
  | .set field value next, page => run write id next (write field value page)
  | .mark field next, page => run write id next (page.markChanged id field)
  | .edit change next, page => run write id next (page.editDom change)
  | .note entry next, page => run write id next { page with journal := page.journal.push entry }

/-- Runs a hook of a component that has a script. -/
def runHook (write : String → Json → Page → Page) (page : Page) (id : InstanceId)
    (hook : Hooks → Script) : Page :=
  match (page.component? id).bind (·.definition.hooks) with
  | some hooks => run write id (hook hooks) page
  | none => page

def nestingLimit : Nat :=
  100000

/-- Writes a field, where hooks may nest that many more writes. -/
def writeWithin : Nat → InstanceId → String → Json → Page → Page
  | 0, id, field, value, page => { page.store id field value with overrun := true }
  | nesting + 1, id, field, value, page =>
    (page.store id field value).runHook (writeWithin nesting id) id fun hooks =>
      hooks.changed field value

/-- Writes a field of a component, even with the value it has. -/
def write (id : InstanceId) : String → Json → Page → Page :=
  writeWithin nestingLimit id

def callHook (page : Page) (id : InstanceId) (hook : Hooks → Script) : Page :=
  page.runHook (write id) id hook

/-- Writes a field; instances that are not components have none. -/
def set (page : Page) (id : InstanceId) (field : String) (value : Json) :
    Except PageError Page :=
  match page.component? id with
  | some _ => .ok (write id field value page)
  | none => .error (.notAComponent id)

end Page

end LiveMarkup
