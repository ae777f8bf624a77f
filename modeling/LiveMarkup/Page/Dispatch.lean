import LiveMarkup.Page.Write

/-!
Events. An event goes from its node up to the root and runs the handlers on its way.
-/

namespace LiveMarkup.Page

/-- The handlers of an event at a node, in the order of their registration. -/
def listenersAt (page : Page) (node : NodeId) (event : String) : List Listener :=
  page.listeners.filter fun l => l.node = node && l.event = event

/-- The value that a statement stores. -/
def assigned (page : Page) (scope : InstanceId) (value : Expr.Term) :
    Except AssignmentFault Json :=
  match Expr.eval (page.scope scope).lookup value with
  | .error e => .error (.evaluation e)
  | .ok v =>
    match v.json? with
    | some json => .ok json
    | none => .error .unstorable

/-- Runs a statement of a handler. One that fails leaves the rest to run. -/
def runStatement (event : String) (source : String) (l : Listener) (page : Page) :
    Statement → Page
  | .assign field _ value =>
    match page.assigned l.scope value with
    | .ok json =>
      match page.set l.component field json with
      | .ok page => page
      | .error e => page.report (.assignmentRefused event field e)
    | .error fault => page.report (.assignmentFailed event source fault)
  | .call method =>
    match (page.component? l.component).bind (·.definition.methods.get? method) with
    | some body => run (write l.component) l.component body page
    | none => page.report (.methodUndefined event method)

def fire (event : String) (page : Page) (l : Listener) : Page :=
  match l.handler with
  | none => page.report (.badHandlerFired event l.component.number)
  | some handler => handler.statements.foldl (runStatement event handler.source l) page

/-- Fires an event at a node and at the nodes above it, at most `steps` nodes; counts the handlers.
-/
def bubble (event : String) : Nat → NodeId → Page → Page × Nat
  | 0, _, page => (page, 0)
  | steps + 1, node, page =>
    let listeners := page.listenersAt node event
    let page := listeners.foldl (fire event) page
    match page.dom.parent node with
    | none => (page, listeners.length)
    | some parent =>
      let (page, more) := bubble event steps parent page
      (page, listeners.length + more)

/-- Fires an event, whatever the case of its name. -/
def dispatch (page : Page) (node : NodeId) (event : String) : Page × Nat :=
  bubble (Text.asciiLower event) page.dom.nodes.size node page

def listenerCount (page : Page) (node : NodeId) (event : String) : Nat :=
  (page.listenersAt node (Text.asciiLower event)).length

end LiveMarkup.Page
