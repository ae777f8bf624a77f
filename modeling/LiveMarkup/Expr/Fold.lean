import LiveMarkup.Expr.Basic
import LiveMarkup.Expr.Operator

/-!
Constants in expressions. A list or a map of constants is a constant, and so is an operator on
constants that has a result. Of two constants, `and` gives the second one where both are true and
otherwise the truth value `False`, whichever of them is false.
-/

namespace LiveMarkup.Expr.Term

def constant? : Term → Option Value
  | constant v => some v
  | _ => none

def constantEntry? : Term × Term → Option (Value × Value)
  | (constant key, constant value) => some (key, value)
  | _ => none

/-- The value of a term that is made of constants. -/
def value? : Term → Option Value
  | constant v => some v
  | list items => (items.mapM constant?).map .list
  | map entries => (entries.mapM constantEntry?).map .ofEntries
  | negate e => e.constant?.bind fun v => (Expr.negate v).toOption
  | not e => e.constant?.map fun v => .bool (!v.isTrue)
  | and left right => do
    let a ← left.constant?
    let b ← right.constant?
    pure (if a.isTrue && b.isTrue then b else .bool false)
  | or left right => do
    let a ← left.constant?
    let b ← right.constant?
    pure (if a.isTrue then a else b)
  | binary op left right => do
    let a ← left.constant?
    let b ← right.constant?
    (op.eval a b).toOption
  | compare first [(comparison, second)] => do
    let a ← first.constant?
    let b ← second.constant?
    (comparison.holds a b).toOption.map .bool
  | _ => none

/-- A term, or the constant that it stands for. -/
def settled (e : Term) : Term :=
  match e.value? with
  | some v => constant v
  | none => e

mutual

/-- Replaces each part of a term that is made of constants by its value, the inner ones first. -/
def fold : Term → Term
  | constant v => constant v
  | name s => name s
  | member base s => member (fold base) s
  | item base key => item (fold base) (fold key)
  | slice base start stop step => slice (fold base) (fold start) (fold stop) (fold step)
  | list items => settled (list (foldItems items))
  | map entries => settled (map (foldEntries entries))
  | negate e => settled (negate (fold e))
  | not e => settled (not (fold e))
  | and left right => settled (and (fold left) (fold right))
  | or left right => settled (or (fold left) (fold right))
  | binary op left right => settled (binary op (fold left) (fold right))
  | compare first links => settled (compare (fold first) (foldLinks links))
  | choose condition whenTrue otherwise =>
    choose (fold condition) (fold whenTrue) (fold otherwise)
  | call callee args => call (fold callee) (foldArguments args)
  | filter s subject args => filter s (fold subject) (foldArguments args)
  | test s subject args => test s (fold subject) (foldArguments args)

def foldItems : List Term → List Term
  | [] => []
  | e :: rest => fold e :: foldItems rest

def foldEntries : List (Term × Term) → List (Term × Term)
  | [] => []
  | (key, value) :: rest => (fold key, fold value) :: foldEntries rest

def foldLinks : List (Comparison × Term) → List (Comparison × Term)
  | [] => []
  | (comparison, e) :: rest => (comparison, fold e) :: foldLinks rest

def foldArguments : List (ArgumentForm × Term) → List (ArgumentForm × Term)
  | [] => []
  | (form, e) :: rest => (form, fold e) :: foldArguments rest

end

end LiveMarkup.Expr.Term
