import LiveMarkup.Dom.Shown
import LiveMarkup.Id
import LiveMarkup.Template.Interpolation

/-!
Effects: what is done again whenever a field that it reads has changed.
-/

namespace LiveMarkup

/-- What an effect does to its node or its fragment. -/
inductive Task where
  /-- Writes a text, unless there is none to write. -/
  | writeText (i : Interpolation)
  | writeUpper (i : Interpolation)
  | writeAttribute (name : String) (i : Interpolation)
  /-- Mounts the fragment while a guard is truthy. -/
  | guardFragment (guard : Interpolation)
  | mountFragment

structure Effect where
  id : EffectId
  /-- The instance in whose scope the effect evaluates. -/
  owner : InstanceId
  node : NodeId
  fragment : Option InstanceId
  task : Task

def Effect.shown (e : Effect) : String :=
  Text.shownPartly "Effect"
    [("id", e.id.shown), ("owner", e.owner.shown), ("node", e.node.shown),
      ("fragment", Text.shownOption (e.fragment.map InstanceId.shown))]

end LiveMarkup
