import LiveMarkup.Component.Basic
import LiveMarkup.Page.Bindings
import LiveMarkup.Scope

/-!
Instances: components that were created and fragments of their templates. A fragment names the
instance it lies in and brings names of its own into scope.
-/

namespace LiveMarkup

structure ComponentState where
  definition : Component
  host : NodeId
  /-- The node that the template renders into. -/
  root : NodeId
  fields : Dict Json
  references : Dict NodeId
  connected : Bool

structure FragmentState where
  blueprint : Blueprint
  /-- The comment that a mounted fragment follows. -/
  anchor : NodeId
  /-- The element rendered by the first mount; it stays while the fragment is not mounted. -/
  root : Option NodeId
  attached : Bool
  /-- Names that only the fragment sees. -/
  locals : Dict Expr.Value

inductive Kind where
  | component (state : ComponentState)
  | fragment (state : FragmentState)
  /-- An empty slot. -/
  | vacant

structure Instance where
  parent : Option InstanceId
  /-- The component that the instance belongs to, which may be itself. -/
  component : InstanceId
  bindings : Bindings
  /-- Fragments in it, in the order of their making. -/
  children : List InstanceId
  /-- Whether it waits for a pass. -/
  scheduled : Bool
  kind : Kind

namespace Instance

def alone (id : InstanceId) (kind : Kind) : Instance :=
  ⟨none, id, .empty, [], false, kind⟩

def component? (i : Instance) : Option ComponentState :=
  match i.kind with
  | .component state => some state
  | _ => none

def fragment? (i : Instance) : Option FragmentState :=
  match i.kind with
  | .fragment state => some state
  | _ => none

/-- Connected components and mounted fragments are attached. -/
def isAttached (i : Instance) : Bool :=
  match i.kind with
  | .component state => state.connected
  | .fragment state => state.attached
  | .vacant => false

def isVacant (i : Instance) : Bool :=
  match i.kind with
  | .vacant => true
  | _ => false

def mapComponent (f : ComponentState → ComponentState) (i : Instance) : Instance :=
  match i.kind with
  | .component state => { i with kind := .component (f state) }
  | _ => i

def mapFragment (f : FragmentState → FragmentState) (i : Instance) : Instance :=
  match i.kind with
  | .fragment state => { i with kind := .fragment (f state) }
  | _ => i

def mapBindings (f : Bindings → Bindings) (i : Instance) : Instance :=
  { i with bindings := f i.bindings }

/-- The names that an instance brings into scope. -/
def frame? (i : Instance) : Option Frame :=
  match i.kind with
  | .component state =>
    some ⟨Dict.empty.insert "this" (fieldsValue state.fields), state.definition.exposed⟩
  | .fragment state => if state.locals.isEmpty then none else some ⟨state.locals, .empty⟩
  | .vacant => none

end Instance

end LiveMarkup
