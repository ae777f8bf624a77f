import LiveMarkup.Expr.Value

/-!
The order and the equality of values, and maps, which are sorted by it. Two numbers are compared on
a common footing if there is one that loses nothing, and exactly otherwise.
-/

namespace LiveMarkup.Expr

namespace Value

def maxSize : Int := Int.pow 2 127 - 1

def minSize : Int := -Int.pow 2 127

/-- Where the integers of two words begin. -/
def wide : Nat := Nat.pow 2 64

/-- An integer of any width. -/
def anyInteger? : Value → Option Int
  | natural n => some n
  | int n => some n
  | _ => .none

/-- A value that counts as an integer in arithmetic. -/
def integer? : Value → Option Int
  | bool b => some (if b then 1 else 0)
  | natural n => if n ≤ maxSize then some n else .none
  | int n => some n
  | _ => .none

def floatOfInt (n : Int) : Float :=
  let size := Decimal.nearest n.natAbs 1
  if n < 0 then -size else size

/-- The least and the greatest integer of the width that holds the value. -/
def bounds : Value → Int × Int
  | natural n => (0, if n < wide then Json.maxUnsigned else Int.pow 2 128 - 1)
  | int n => if Json.minInt ≤ n ∧ n ≤ Json.maxInt then (Json.minInt, Json.maxInt)
    else (minSize, maxSize)
  | _ => (0, 0)

/-- A value as a float. -/
def float? : Value → Option Float
  | bool b => some (if b then 1.0 else 0.0)
  | float x => some x
  | v => v.anyInteger?.map floatOfInt

/-- A value as a float that turns back into it. -/
def exactFloat? (v : Value) : Option Float :=
  match v.anyInteger? with
  | some n =>
    let x := floatOfInt n
    if Decimal.clampedWhole v.bounds.1 v.bounds.2 x = n then some x else .none
  | .none => v.float?

end Value

/-- Two numbers of one kind. -/
inductive Numbers where
  | integers (a b : Int)
  | floats (a b : Float)

namespace Numbers

open Value

/-- Two numbers as floats if one of them is a float, read by `toFloat?`, and as integers otherwise.
Two integers of two words each are taken with a sign. -/
def ofValues? (toFloat? : Value → Option Float) (a b : Value) : Option Numbers :=
  match a, b with
  | .float x, b => (toFloat? b).map (floats x)
  | a, .float y => (toFloat? a).map (floats · y)
  | .natural m, .natural n =>
    if wide ≤ m ∧ wide ≤ n then
      some (integers (Int.bmod m (Nat.pow 2 128)) (Int.bmod n (Nat.pow 2 128)))
    else both (.natural m) (.natural n)
  | a, b => both a b
where
  both (a b : Value) : Option Numbers := do
    let m ← a.integer?
    let n ← b.integer?
    pure (integers m n)

/-- Two numbers for an operator, which may round them. -/
def rounded? : Value → Value → Option Numbers :=
  ofValues? Value.float?

/-- Two numbers for a comparison, which must not round them. -/
def lossless? : Value → Value → Option Numbers :=
  ofValues? exactFloat?

end Numbers

namespace Value

/-- Floats in ascending order. The two zeros are equal, and what is no number comes first. -/
def orderFloats (x y : Float) : Ordering :=
  if x.isNaN || y.isNaN then compare (!x.isNaN) (!y.isNaN)
  else if x < y then .lt
  else if x == y then .eq
  else .gt

/-- The order of an integer and a float that have no common footing. -/
def orderApart (a b : Value) : Ordering :=
  match a, b with
  | a, float y =>
    match a.anyInteger? with
    | some m => if y.isNaN then .gt else Decimal.compareToFloat m y
    | .none => .eq
  | float x, b =>
    match b.anyInteger? with
    | some n => if x.isNaN then .lt else (Decimal.compareToFloat n x).swap
    | .none => .eq
  | _, _ => .eq

/-- The order of numbers. Two integers are compared exactly. -/
def orderNumbers (a b : Value) : Ordering :=
  match a.anyInteger?, b.anyInteger? with
  | some m, some n => compare m n
  | _, _ =>
    match Numbers.lossless? a b with
    | some (.integers m n) => compare m n
    | some (.floats x y) => orderFloats x y
    | .none => orderApart a b

mutual

/-- The order of values that are written out: by kind, then by value. -/
def orderExpanded (a b : Value) : Ordering :=
  match compare a.kind b.kind with
  | .eq =>
    match a, b with
    | text s _, text t _ => compare s t
    | sequence _ as, sequence _ bs => orderItems as bs
    | map _ as, map _ bs => orderEntries as bs
    | function f, function g => compare f.shown g.shown
    | a, b => orderNumbers a b
  | other => other

def orderItems : List Value → List Value → Ordering
  | [], [] => .eq
  | [], _ :: _ => .lt
  | _ :: _, [] => .gt
  | a :: as, b :: bs =>
    match orderExpanded a b with
    | .eq => orderItems as bs
    | other => other

def orderEntries : List (Value × Value) → List (Value × Value) → Ordering
  | [], [] => .eq
  | [], _ :: _ => .lt
  | _ :: _, [] => .gt
  | (k, a) :: as, (l, b) :: bs =>
    match orderExpanded k l with
    | .eq =>
      match orderExpanded a b with
      | .eq => orderEntries as bs
      | other => other
    | other => other

end

/-- The order of all values. -/
def order (a b : Value) : Ordering :=
  orderExpanded a.expand b.expand

def equalNumbers (a b : Value) : Bool :=
  match Numbers.lossless? a b with
  | some (.integers m n) => m == n
  | some (.floats x y) => x == y
  | .none => false

mutual

/-- Equality of values that are written out. -/
def equalExpanded : Value → Value → Bool
  | undefined, undefined => true
  | none, none => true
  | text s _, text t _ => s == t
  | sequence _ as, sequence _ bs => equalItems as bs
  | map _ as, map _ bs => equalEntries as bs
  | function f, function g => f == g
  | a, b => equalNumbers a b

def equalItems : List Value → List Value → Bool
  | [], [] => true
  | a :: as, b :: bs => equalExpanded a b && equalItems as bs
  | _, _ => false

def equalEntries : List (Value × Value) → List (Value × Value) → Bool
  | [], [] => true
  | (k, a) :: as, (l, b) :: bs =>
    orderExpanded k l == .eq && equalExpanded a b && equalEntries as bs
  | _, _ => false

end

/-- Equality of values: numbers and truth values by size, sequences and maps by content. -/
def equal (a b : Value) : Bool :=
  equalExpanded a.expand b.expand

/-- Puts an entry at its place, over an entry of an equal key. -/
def insertEntry (key value : Value) : List (Value × Value) → List (Value × Value)
  | [] => [(key, value)]
  | (other, old) :: rest =>
    match order key other with
    | .lt => (key, value) :: (other, old) :: rest
    | .eq => (other, value) :: rest
    | .gt => (other, old) :: insertEntry key value rest

/-- The entries in order, the last one of each key. -/
def sortEntries (entries : List (Value × Value)) : List (Value × Value) :=
  entries.foldl (fun all (key, value) => insertEntry key value all) []

def ofEntries (entries : List (Value × Value)) : Value :=
  map .fresh (sortEntries entries)

def lookup? (entries : List (Value × Value)) (key : Value) : Option Value :=
  (entries.find? fun (other, _) => order key other == .eq).map Prod.snd

end Value

end LiveMarkup.Expr
