import LiveMarkup.Dict
import LiveMarkup.Page.Effect

/-!
The fields of an instance and the effects that read them. Draining hands out every effect of a
changed field, each once.
-/

namespace LiveMarkup

structure Binding where
  changed : Bool
  /-- In the order in which they were added. -/
  effects : List Effect

/-- The bindings of an instance by field. -/
structure Bindings where
  fields : Dict Binding

namespace Bindings

def empty : Bindings :=
  ⟨.empty⟩

instance : Inhabited Bindings :=
  ⟨empty⟩

def contains (b : Bindings) (field : String) : Bool :=
  b.fields.contains field

/-- Binds a field, without effects, unless it is bound. -/
def ensure (b : Bindings) (field : String) : Bindings :=
  if b.contains field then b else ⟨b.fields.insert field ⟨false, []⟩⟩

/-- Adds an effect to a bound field; other fields are left alone. -/
def add (b : Bindings) (field : String) (e : Effect) : Bindings :=
  ⟨b.fields.modify field fun binding => { binding with effects := binding.effects ++ [e] }⟩

/-- Marks a bound field as changed; other fields are left alone. -/
def mark (b : Bindings) (field : String) : Bindings :=
  ⟨b.fields.modify field ({ · with changed := true })⟩

def hasChanges (b : Bindings) : Bool :=
  b.fields.values.any (·.changed)

def clearChanges (b : Bindings) : Bindings :=
  ⟨b.fields.mapValues ({ · with changed := false })⟩

/-- Drops the effects and keeps the fields. -/
def clearEffects (b : Bindings) : Bindings :=
  ⟨b.fields.mapValues fun _ => ⟨false, []⟩⟩

def effectCount (b : Bindings) : Nat :=
  b.fields.values.foldr (fun binding total => binding.effects.length + total) 0

/-- The effects that are not among the seen ones, each once. -/
def unseen (seen : List EffectId) : List Effect → List Effect
  | [] => []
  | e :: rest =>
    if seen.contains e.id then unseen seen rest else e :: unseen (e.id :: seen) rest

/-- The effects of the changed fields, field by field. -/
def due (b : Bindings) : List Effect :=
  (b.fields.values.filter (·.changed)).flatMap (·.effects)

/-- The effects to run, after which they are seen and no field is changed. -/
def drain (b : Bindings) (seen : List EffectId) : Bindings × List EffectId × List Effect :=
  let effects := unseen seen b.due
  (b.clearChanges, seen ++ effects.map (·.id), effects)

end Bindings

end LiveMarkup
