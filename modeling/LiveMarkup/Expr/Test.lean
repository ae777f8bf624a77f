import LiveMarkup.Expr.Argument
import LiveMarkup.Expr.Operator
import LiveMarkup.Text.Case

/-!
The tests that an expression can apply to a value.
-/

namespace LiveMarkup.Expr

inductive Test where
  | defined
  | undefined
  | none
  | safe
  | boolean
  | true
  | false
  | odd
  | even
  | divisibleBy
  | number
  | integer
  | float
  | string
  | sequence
  | iterable
  | mapping
  | startingWith
  | endingWith
  | lower
  | upper
  | sameAs
  | compare (comparison : Comparison)
  | isIn
  /-- Whether a filter has the name. -/
  | filter
  /-- Whether a test has the name. -/
  | test
  deriving DecidableEq, Repr

/-- The test of a name. -/
def Test.named? (name : String) : Option Test :=
  match name with
  | "defined" => some defined
  | "undefined" => some undefined
  | "none" => some none
  | "safe" | "escaped" => some safe
  | "boolean" => some boolean
  | "true" => some true
  | "false" => some false
  | "odd" => some odd
  | "even" => some even
  | "divisibleby" => some divisibleBy
  | "number" => some number
  | "integer" | "int" => some integer
  | "float" => some float
  | "string" => some string
  | "sequence" => some sequence
  | "iterable" => some iterable
  | "mapping" => some mapping
  | "startingwith" => some startingWith
  | "endingwith" => some endingWith
  | "lower" => some lower
  | "upper" => some upper
  | "sameas" => some sameAs
  | "eq" | "equalto" | "==" => some (compare .eq)
  | "ne" | "!=" => some (compare .ne)
  | "lt" | "lessthan" | "<" => some (compare .lt)
  | "le" | "<=" => some (compare .le)
  | "gt" | "greaterthan" | ">" => some (compare .gt)
  | "ge" | ">=" => some (compare .ge)
  | "in" => some isIn
  | "filter" => some filter
  | "test" => some test
  | _ => .none

namespace Value

def isInteger (v : Value) : Bool :=
  v.anyInteger?.isSome

def isOdd (v : Value) : Bool :=
  v.index?.any (· % 2 != 0)

def isEven (v : Value) : Bool :=
  v.index?.any (· % 2 == 0)

/-- Whether a number goes into another one; zero goes into none. -/
def isDivisibleBy (a b : Value) : Bool :=
  match Numbers.lossless? a b with
  | some (.integers m n) => n != 0 && m % n == 0
  | some (.floats x y) => Decimal.remainder x y == 0.0
  | .none => false

/-- Whether two values are one and the same: of one kind and equal, and held at one place if they
are lists or maps. -/
def isSame (a b : Value) : Bool :=
  match a, b with
  | function f, function g => f == g
  | sequence (.list origin) _, sequence (.list other) _ => origin.isSame other
  | map origin _, map other _ => origin.isSame other
  | sequence _ _, _ | map _ _, _ => false
  | a, b => a.kind == b.kind && a.isInteger == b.isInteger && a.equal b

end Value

/-- Applies a test; `isFilter` tells which names filters have. -/
def Test.apply (isFilter : String → Bool) (t : Test) (v : Value) (args : List Argument) :
    Except EvalError Bool :=
  match t, args with
  | defined, [] => .ok !v.isUndefined
  | undefined, [] => .ok v.isUndefined
  | none, [] => .ok (v.kind == .none)
  | safe, [] => .ok v.isSafe
  | boolean, [] => .ok (v.kind == .bool)
  | true, [] => .ok (v.kind == .bool && v.isTrue)
  | false, [] => .ok (v.kind == .bool && !v.isTrue)
  | odd, [] => .ok v.isOdd
  | even, [] => .ok v.isEven
  | divisibleBy, [other] => .ok (v.isDivisibleBy other.toValue)
  | number, [] => .ok (v.kind == .number)
  | integer, [] => .ok v.isInteger
  | float, [] => .ok (v.kind == .number && !v.isInteger)
  | string, [] => .ok (v.kind == .text)
  | sequence, [] => .ok (v.kind == .list)
  | iterable, [] => .ok v.elements?.isSome
  | mapping, [] => .ok (v.kind == .map)
  | startingWith, [front] => do
    let front ← front.text
    pure (front.toList.isPrefixOf v.display.toList)
  | endingWith, [back] => do
    let back ← back.text
    pure (back.toList.isSuffixOf v.display.toList)
  | lower, [] => (Argument.value v).string.map fun s => s.toList.all Text.isLower
  | upper, [] => (Argument.value v).string.map fun s => s.toList.all Text.isUpper
  | sameAs, [other] => .ok (v.isSame other.toValue)
  | compare comparison, [other] => comparison.holds v other.toValue
  | isIn, [container] => .ok ((Expr.isIn v container.toValue).toOption.getD Bool.false)
  | filter, [] => (Argument.value v).string.map isFilter
  | test, [] => (Argument.value v).string.map fun name => (Test.named? name).isSome
  | _, _ => .error .badArguments

end LiveMarkup.Expr
