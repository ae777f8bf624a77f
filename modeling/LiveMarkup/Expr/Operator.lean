import LiveMarkup.Decimal.Whole
import LiveMarkup.Expr.Access
import LiveMarkup.Expr.Basic
import LiveMarkup.Expr.Shown
import LiveMarkup.Text.Find

/-!
The operators. Integers stay integers, and a result that does not fit 128 bits is an error; one
float makes the other operand a float.
-/

namespace LiveMarkup.Expr

open Value

/-- The result of a computation with integers. -/
def checkSize (n : Int) : Except EvalError Value :=
  if minSize ≤ n ∧ n ≤ maxSize then .ok (.int n) else .error .outOfRange

/-- An operator on numbers from what it does to integers and to floats. -/
def arithmetic (onInts : Int → Int → Except EvalError Value) (onFloats : Float → Float → Float)
    (a b : Value) : Except EvalError Value :=
  match Numbers.rounded? a b with
  | some (.integers m n) => onInts m n
  | some (.floats x y) => .ok (.float (onFloats x y))
  | .none => .error .badOperands

/-- Two sequences one after the other; the length is known if both lengths are. -/
def append (first second : Form) (as bs : List Value) : Value :=
  let form :=
    if first = .broken ∨ second = .broken then .broken
    else if first = .stream ∨ second = .stream then .stream
    else .computed 1
  .sequence form (itemsOf first as ++ itemsOf second bs)

def add : Value → Value → Except EvalError Value
  | .text s _, .text t _ => .ok (.ofString (s ++ t))
  | .sequence first as, .sequence second bs => .ok (append first second as bs)
  | a, b => arithmetic (fun m n => checkSize (m + n)) (· + ·) a b

def sub (a b : Value) : Except EvalError Value :=
  arithmetic (fun m n => checkSize (m - n)) (· - ·) a b

/-- How often a text or a sequence is repeated. -/
def repetitions (v : Value) : Except EvalError Nat :=
  match v.index? with
  | some n => if 0 ≤ n ∧ n < wide then .ok n.toNat else .error .badOperands
  | .none => .error .badOperands

/-- The most bytes of a repeated text. -/
def maxTextSize : Nat := 100000000

/-- A text `n` times, made of two halves. -/
def copies (s : String) (n : Nat) : String :=
  if n = 0 then ""
  else
    let half := copies s (n / 2)
    if n % 2 = 0 then half ++ half else half ++ half ++ s
termination_by n

def repeatText (s : String) (n : Nat) : Except EvalError Value :=
  if maxTextSize < s.utf8ByteSize * n then .error .outOfRange
  else .ok (.ofString (copies s n))

/-- A sequence several times; its length is known. -/
def repeatSequence (form : Form) (items : List Value) (n : Nat) : Except EvalError Value :=
  match form with
  | .computed copies => .ok (.sequence (.computed (copies * n)) items)
  | .stream | .broken => .error .badOperands
  | _ => .ok (.sequence (.computed n) items)

def mul (a b : Value) : Except EvalError Value :=
  match a, b with
  | .text s _, v | v, .text s _ => (repetitions v).bind (repeatText s)
  | .sequence form items, v | v, .sequence form items =>
    (repetitions v).bind (repeatSequence form items)
  | a, b => arithmetic (fun m n => checkSize (m * n)) (· * ·) a b

def div (a b : Value) : Except EvalError Value :=
  match a.float?, b.float? with
  | some x, some y => .ok (.float (x / y))
  | _, _ => .error .badOperands

def floorDiv (a b : Value) : Except EvalError Value :=
  arithmetic (fun m n => if n = 0 then .error .outOfRange else checkSize (m / n))
    Decimal.quotient a b

/-- What division leaves: never a negative integer, and a float with the sign of `a`. The one
quotient that does not fit leaves an error. -/
def rem (a b : Value) : Except EvalError Value :=
  arithmetic
    (fun m n =>
      if n = 0 ∨ (m = minSize ∧ n = -1) then .error .outOfRange else checkSize (m % n))
    Decimal.remainder a b

/-- A power of an integer. The exponent is not negative, and no base but zero and the units has a
large power within the range. -/
def intPower (base exponent : Int) : Except EvalError Value :=
  if exponent < 0 ∨ Int.pow 2 32 ≤ exponent then .error .outOfRange
  else if base.natAbs ≤ 1 then
    checkSize (if exponent = 0 then 1 else if exponent % 2 = 0 then base * base else base)
  else if 128 < exponent then .error .outOfRange
  else checkSize (Int.pow base exponent.toNat)

def pow (a b : Value) : Except EvalError Value :=
  arithmetic intPower Float.pow a b

def BinaryOp.eval (op : BinaryOp) (a b : Value) : Except EvalError Value :=
  match op with
  | add => Expr.add a b
  | sub => Expr.sub a b
  | mul => Expr.mul a b
  | div => Expr.div a b
  | floorDiv => Expr.floorDiv a b
  | rem => Expr.rem a b
  | pow => Expr.pow a b
  | concat => .ok (.ofString (a.display ++ b.display))

/-- Whether a value lies in a container: a text, a sequence or the keys of a map. -/
def isIn (item container : Value) : Except EvalError Bool :=
  match container with
  | .undefined => .ok false
  | .text s _ => .ok (Text.contains s item.display)
  | .sequence .broken _ => .error .badOperands
  | .sequence form items => .ok ((itemsOf form items).any fun other => other.equal item)
  | .map _ entries => .ok (Value.lookup? entries item).isSome
  | .function _ => .ok false
  | _ => .error .badOperands

def Comparison.holds (comparison : Comparison) (a b : Value) : Except EvalError Bool :=
  match comparison with
  | eq => .ok (a.equal b)
  | ne => .ok (!a.equal b)
  | lt => .ok (a.order b == .lt)
  | le => .ok (a.order b != .gt)
  | gt => .ok (a.order b == .gt)
  | ge => .ok (a.order b != .lt)
  | isIn => Expr.isIn a b
  | isNotIn => (Expr.isIn a b).map (!·)

/-- The negative of a number. The least integer is written as the negative of one that has no sign,
and stays that one. -/
def negate : Value → Except EvalError Value
  | .float x => .ok (.float (-x))
  | .int n => checkSize (-n)
  | .natural n =>
    if (n : Int) = -minSize then .ok (.natural n)
    else if n ≤ maxSize then .ok (.int (-n))
    else .error .badOperands
  | _ => .error .badOperands

end LiveMarkup.Expr
