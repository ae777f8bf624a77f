/-!
The names of instances and effects.
-/

namespace LiveMarkup

/-- The slot of a component or a fragment. -/
structure InstanceId where
  number : Nat
  deriving DecidableEq, Repr

structure EffectId where
  number : Nat
  deriving DecidableEq, Repr

def InstanceId.shown (id : InstanceId) : String :=
  "InstanceId(" ++ toString id.number ++ ")"

def EffectId.shown (id : EffectId) : String :=
  "EffectId(" ++ toString id.number ++ ")"

end LiveMarkup
