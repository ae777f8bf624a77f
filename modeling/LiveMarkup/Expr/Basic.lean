import LiveMarkup.Expr.Value

/-!
Expressions.
-/

namespace LiveMarkup.Expr

inductive BinaryOp where
  | add
  | sub
  | mul
  | div
  | floorDiv
  | rem
  | pow
  | concat
  deriving DecidableEq, Repr

inductive Comparison where
  | eq
  | ne
  | lt
  | le
  | gt
  | ge
  | isIn
  | isNotIn
  deriving DecidableEq, Repr

/-- How an argument enters a call. -/
inductive ArgumentForm where
  | positional
  /-- All elements of a value, one after the other. -/
  | spread
  | named (name : String)
  /-- All entries of a map, by their keys. -/
  | spreadNamed
  deriving DecidableEq, Repr

def ArgumentForm.isNamed : ArgumentForm → Bool
  | named _ | spreadNamed => true
  | positional | spread => false

inductive Term where
  | constant (value : Value)
  | name (name : String)
  | member (base : Term) (name : String)
  | item (base key : Term)
  /-- The items from `start` to `stop` at a distance of `step`; nothing leaves a bound out. -/
  | slice (base start stop step : Term)
  | list (items : List Term)
  | map (entries : List (Term × Term))
  | negate (e : Term)
  | not (e : Term)
  | and (left right : Term)
  | or (left right : Term)
  | binary (op : BinaryOp) (left right : Term)
  /-- Holds if each operand and the next one stand in the relation between them. -/
  | compare (first : Term) (links : List (Comparison × Term))
  /-- `whenTrue` where `test` holds, else `otherwise`. -/
  | choose (test whenTrue otherwise : Term)
  | call (callee : Term) (args : List (ArgumentForm × Term))
  | filter (name : String) (subject : Term) (args : List (ArgumentForm × Term))
  | test (name : String) (subject : Term) (args : List (ArgumentForm × Term))

instance : Inhabited Term :=
  ⟨.constant .undefined⟩

end LiveMarkup.Expr
