import LiveMarkup.Page.Lifecycle

/-!
Passes. A frame runs the passes that were asked for before it; what they ask for waits for the next
one.
-/

namespace LiveMarkup.Page

/-- Runs the changed effects of a component and of the fragments mounted in it. -/
def runEffects (page : Page) (id : InstanceId) (depth : Nat) : Page :=
  let mount := mountWithin depth
  let (page, seen) := runChanged mount id (page, [])
  ((page.slot id).children.foldl (updateFragment mount depth) (page, seen)).1

/-- The pass of a component, which does nothing once the component is disconnected. -/
def runPass (page : Page) (id : InstanceId) : Page :=
  let page := page.updateSlot id ({ · with scheduled := false })
  match page.component? id with
  | none => page
  | some state =>
    if !state.connected then page
    else
      let page := { page with stats.passes := page.stats.passes + 1 }
      let page := page.report (.passStarted id.number)
      let page := page.callHook id (·.beforeUpdate)
      (page.runEffects id state.definition.blueprint.depth).callHook id (·.afterUpdate)

/-- Runs the passes in the queue and counts them. -/
def runFrame (page : Page) : Page × Nat :=
  (page.queue.foldl runPass { page with queue := [] }, page.queue.length)

/-- Runs frames until no pass is asked for, at most `limit` frames, and counts them. -/
def runUntilIdle : Nat → Page → Page × Nat
  | 0, page => (page, 0)
  | limit + 1, page =>
    if page.hasPendingPass then
      let (page, frames) := runUntilIdle limit page.runFrame.1
      (page, frames + 1)
    else (page, 0)

end LiveMarkup.Page
