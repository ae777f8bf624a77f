import LiveMarkup.Decimal.Read
import LiveMarkup.Expr.Argument
import LiveMarkup.Expr.Operator

/-!
Filters that make numbers.
-/

namespace LiveMarkup.Expr.NumberFilter

open Value

/-- A value without its sign. -/
def abs (v : Value) : Except EvalError Value :=
  match v with
  | .natural n => .ok (.natural n)
  | .int n => checkSize n.natAbs
  | .float x => .ok (.float x.abs)
  | _ => .error .badOperands

/-- `product` times the power of `base` to `count`, found by squaring from the lowest digit on. -/
def timesPower (product base : Float) (count : Nat) : Float :=
  if count = 0 then product
  else timesPower (if count % 2 = 1 then product * base else product) (base * base) (count / 2)
termination_by count

/-- A power of ten; a negative one is the inverse of a positive one. -/
def powerOfTen (exponent : Int) : Float :=
  let power := timesPower 1.0 10.0 exponent.natAbs
  if exponent < 0 then 1.0 / power else power

/-- A number with the given decimal places; a half is rounded away from zero. -/
def round (v : Value) (places : Option Argument) : Except EvalError Value := do
  let places := (← Argument.optional (Argument.integer (-Int.pow 2 31) (Int.pow 2 31 - 1)) places).getD 0
  match v with
  | .natural _ | .int _ => pure v
  | .float x => pure (.float ((x * powerOfTen places).round / powerOfTen places))
  | _ => .error .badOperands

def ofFloat (x : Float) : Value :=
  .int (Decimal.clampedWhole minSize maxSize x)

/-- A value as an integer. A text is read as an integer, or as a float whose fraction is left out.
-/
def int (v : Value) : Except EvalError Value :=
  match v with
  | .undefined | .none => .ok (.int 0)
  | .bool b => .ok (.natural (if b then 1 else 0))
  | .natural _ | .int _ => .ok v
  | .float x => .ok (ofFloat x)
  | .text s _ =>
    match (Decimal.readInt? s.toList).filter fun n => minSize ≤ n ∧ n ≤ maxSize with
    | some n => .ok (.int n)
    | .none =>
      match Decimal.readFloat? s.toList with
      | some x => .ok (ofFloat x)
      | .none => .error .badOperands
  | _ => .error .badOperands

/-- A value as a float. -/
def float (v : Value) : Except EvalError Value :=
  match v with
  | .undefined | .none => .ok (.float 0.0)
  | .text s _ =>
    match Decimal.readFloat? s.toList with
    | some x => .ok (.float x)
    | .none => .error .badOperands
  | v =>
    match v.float? with
    | some x => .ok (.float x)
    | .none => .error .badOperands

/-- The sum of the numbers among the elements; undefined ones do not count. -/
def sum (v : Value) : Except EvalError Value :=
  match v.elements? with
  | some items => items.foldlM plus (.int 0)
  | .none => .error .badOperands
where
  plus (total item : Value) : Except EvalError Value :=
    if item.isUndefined then .ok total
    else if item.kind = .number then add total item
    else .error .badOperands

end LiveMarkup.Expr.NumberFilter
