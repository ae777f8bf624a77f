import LiveMarkup.Dict

/-!
The values of component fields. An integer and a float are different values even where they are
equal as numbers; the fields of an object stand in the order of their names.
-/

namespace LiveMarkup

inductive Json where
  | null
  | bool (b : Bool)
  | int (n : Int)
  | float (x : Float)
  | text (s : String)
  | list (items : List Json)
  | object (fields : List (String × Json))

namespace Json

instance : Inhabited Json :=
  ⟨null⟩

/-- An object of the given fields, the last one of each name. -/
def ofFields (fields : List (String × Json)) : Json :=
  .object (Dict.ofList fields).entries

mutual

/-- Equality of values; the two zeros among floats are equal. -/
def same : Json → Json → Bool
  | null, null => true
  | bool a, bool b => a == b
  | int a, int b => a == b
  | float a, float b => a == b
  | text a, text b => a == b
  | list a, list b => sameItems a b
  | object a, object b => sameFields a b
  | _, _ => false

def sameItems : List Json → List Json → Bool
  | [], [] => true
  | a :: as, b :: bs => same a b && sameItems as bs
  | _, _ => false

def sameFields : List (String × Json) → List (String × Json) → Bool
  | [], [] => true
  | (n, a) :: as, (m, b) :: bs => n == m && same a b && sameFields as bs
  | _, _ => false

end

instance : BEq Json :=
  ⟨same⟩

def isNull : Json → Bool
  | null => true
  | _ => false

/-- Null, false, zero and empty values are false. -/
def isTruthy : Json → Bool
  | null => false
  | bool b => b
  | int n => n != 0
  | float x => x != 0.0
  | text s => !s.isEmpty
  | list items => !items.isEmpty
  | object fields => !fields.isEmpty

def minInt : Int := -Int.pow 2 63

def maxInt : Int := Int.pow 2 63 - 1

/-- The largest integer that a value holds; the ones above `maxInt` have no sign. -/
def maxUnsigned : Int := Int.pow 2 64 - 1

def int? : Json → Option Int
  | int n => if n ≤ maxInt then some n else none
  | _ => none

end Json

end LiveMarkup
