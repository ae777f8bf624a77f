import LiveMarkup.Expr.Eval
import LiveMarkup.Expr.Field

/-!
Names that expressions see. A frame is searched before the frames around it, and in a frame the
names put there come before the fields it shows. Reading a name that was put there gives one and the
same value each time; a field gives a new value.
-/

namespace LiveMarkup

namespace Expr.Value

mutual

/-- A value as a scope holds it, with the path that leads to it, the last key first. -/
def heldAt (path : List String) : Value → Value
  | sequence (.list _) items => sequence (.list (.held path)) (itemsHeldAt path 0 items)
  | map _ entries => map (.held path) (entriesHeldAt path entries)
  | v => v

def itemsHeldAt (path : List String) (place : Nat) : List Value → List Value
  | [] => []
  | item :: rest => heldAt (toString place :: path) item :: itemsHeldAt path (place + 1) rest

def entriesHeldAt (path : List String) : List (Value × Value) → List (Value × Value)
  | [] => []
  | (key, value) :: rest =>
    (key, heldAt (key.display :: path) value) :: entriesHeldAt path rest

end

/-- The value of a name that is put into a frame. -/
def held (name : String) (value : Json) : Value :=
  (ofJson value).heldAt [name]

end Expr.Value

structure Frame where
  names : Dict Expr.Value
  fields : Dict Json

/-- Frames, the innermost first. -/
abbrev Scope := List Frame

def Frame.lookup (frame : Frame) (name : String) : Option Expr.Value :=
  match frame.names.get? name with
  | some value => some value
  | none => (frame.fields.get? name).map Expr.Value.ofJson

def Scope.lookup (scope : Scope) (name : String) : Option Expr.Value :=
  scope.findSome? (·.lookup name)

/-- The fields of a component as one value, a map from their names. It is the same value each time,
and what lies in it is made anew. -/
def fieldsValue (fields : Dict Json) : Expr.Value :=
  .map (.held ["this"]) (Expr.Value.ofJsonFields fields.entries)

end LiveMarkup
