import LiveMarkup.Dict
import LiveMarkup.Dom.Basic
import LiveMarkup.Json.Basic
import LiveMarkup.Id

/-!
The behaviour of a component, step by step. A step that asks goes on with the answer, so a script is
a tree of everything it may come to do.
-/

namespace LiveMarkup

/-- What a script sees of its component besides the fields. -/
structure View where
  id : InstanceId
  references : Dict NodeId
  host : NodeId
  root : NodeId
  dom : Dom

inductive Script where
  | done
  /-- Asks for the value of a field. -/
  | get (field : String) (next : Option Json → Script)
  | look (next : View → Script)
  /-- Writes a field, with everything that follows from it. -/
  | set (field : String) (value : Json) (next : Script)
  /-- Marks a field as changed. -/
  | mark (field : String) (next : Script)
  | edit (change : Dom → Dom) (next : Script)
  /-- Writes an entry into the journal. -/
  | note (entry : Json) (next : Script)

instance : Inhabited Script :=
  ⟨.done⟩

/-- What a component does at the turns of its life. -/
structure Hooks where
  /-- After the template was rendered. -/
  started : Script
  /-- After a field was written. -/
  changed : String → Json → Script
  /-- Before the effects of a pass. -/
  beforeUpdate : Script
  /-- At the end of a pass. -/
  afterUpdate : Script
  /-- Before the component is torn down. -/
  removed : Script

/-- Hooks that do nothing. -/
def Hooks.silent : Hooks :=
  ⟨.done, fun _ _ => .done, .done, .done, .done⟩

end LiveMarkup
