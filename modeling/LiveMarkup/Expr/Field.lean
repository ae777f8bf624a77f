import LiveMarkup.Expr.Order

/-!
Values and fields. Every field is a value; a value is a field unless it holds an integer that fields
cannot hold.
-/

namespace LiveMarkup.Expr.Value

mutual

/-- The value of a field. -/
def ofJson : Json → Value
  | .null => none
  | .bool b => bool b
  | .int (.ofNat n) => natural n
  | .int n => int n
  | .float x => float x
  | .text s => ofString s
  | .list items => list (ofJsonItems items)
  | .object fields => map .fresh (ofJsonFields fields)

def ofJsonItems : List Json → List Value
  | [] => []
  | item :: rest => ofJson item :: ofJsonItems rest

def ofJsonFields : List (String × Json) → List (Value × Value)
  | [] => []
  | (name, value) :: rest => (ofString name, ofJson value) :: ofJsonFields rest

end

/-- The text of a key in a field's value; lists, maps and nothing are no keys there. -/
def keyText? : Value → Option String
  | text s _ => some s
  | natural n => some (toString n)
  | int n => some (toString n)
  | bool b => some (if b then "true" else "false")
  | float x => if x.isFinite then some (Decimal.Layout.json.text x) else .none
  | _ => .none

def jsonInteger? (n : Int) : Option Json :=
  if Json.minInt ≤ n ∧ n ≤ Json.maxUnsigned then some (.int n) else .none

mutual

/-- A value that is written out as a field holds it; what does not run is held by none. -/
def jsonExpanded? : Value → Option Json
  | undefined => some .null
  | none => some .null
  | bool b => some (.bool b)
  | natural n => jsonInteger? n
  | int n => jsonInteger? n
  | float x => some (if x.isFinite then .float x else .null)
  | text s _ => some (.text s)
  | sequence .broken _ => .none
  | sequence _ items => (jsonItems? items).map .list
  | map _ entries => (jsonFields? entries).map .ofFields
  | function f => some (.text f.shown)

def jsonItems? : List Value → Option (List Json)
  | [] => some []
  | item :: rest => do
    let item ← jsonExpanded? item
    let rest ← jsonItems? rest
    pure (item :: rest)

def jsonFields? : List (Value × Value) → Option (List (String × Json))
  | [] => some []
  | (key, value) :: rest => do
    let name ← keyText? key
    let value ← jsonExpanded? value
    let rest ← jsonFields? rest
    pure ((name, value) :: rest)

end

/-- The value as a field holds it. Integers outside the range of fields have none. -/
def json? (v : Value) : Option Json :=
  v.expand.jsonExpanded?

end LiveMarkup.Expr.Value
