import LiveMarkup.Page.Basic

/-!
Marking fields as changed. However many fields are marked before a pass, a component asks for one
pass.
-/

namespace LiveMarkup.Page

/-- Puts a connected component into the queue unless it waits there. -/
def requestPass (page : Page) (id : InstanceId) : Page :=
  match page.component? id with
  | some state =>
    if (page.slot id).scheduled || !state.connected then page
    else
      let page := page.updateSlot id ({ · with scheduled := true })
      { page with queue := page.queue ++ [id] }.report (.passRequested id.number)
  | none => page

/-- Asks for a pass; a fragment waits for the pass of its component. -/
def schedule (page : Page) (id : InstanceId) : Page :=
  match (page.slot id).kind with
  | .component _ => page.requestPass id
  | .fragment _ =>
    (page.updateSlot id ({ · with scheduled := true })).requestPass (page.slot id).component
  | .vacant => page

/-- Marks a field at one instance, if it is bound there. -/
def markAt (field : String) (page : Page) (id : InstanceId) : Page :=
  if (page.slot id).bindings.contains field then
    (page.updateSlot id (·.mapBindings (·.mark field))).schedule id
  else page

/-- Marks a field at an instance and at every fragment in it. -/
def markChanged (page : Page) (id : InstanceId) (field : String) : Page :=
  (page.family id).foldl (markAt field) page

end LiveMarkup.Page
