import LiveMarkup.Expr.Access
import LiveMarkup.Expr.Shown

/-!
The arguments of a call. Named arguments make up one more argument after the positional ones: a map
for whoever takes any value, and an error for whoever takes a text or a number.
-/

namespace LiveMarkup.Expr

inductive Argument where
  | value (v : Value)
  | named (entries : List (Value × Value))

structure Arguments where
  positional : List Value
  /-- What is given by name, if anything was written that could give it. -/
  named : Option (List (Value × Value))

namespace Argument

def toValue : Argument → Value
  | value v => v
  | named entries => .map .fresh entries

/-- The argument as a text, which every value has. -/
def text : Argument → Except EvalError String
  | value v => .ok v.display
  | named _ => .error .badArguments

/-- The argument as a text that nothing was turned into. -/
def string : Argument → Except EvalError String
  | value (.text s _) => .ok s
  | _ => .error .badArguments

def integer (low high : Int) : Argument → Except EvalError Int
  | value v =>
    match v.index? with
    | some n => if low ≤ n ∧ n ≤ high then .ok n else .error .badArguments
    | none => .error .badArguments
  | named _ => .error .badArguments

/-- An integer of one word. -/
def word : Argument → Except EvalError Int :=
  integer Json.minInt Json.maxInt

/-- A count. -/
def size (a : Argument) : Except EvalError Nat :=
  (integer 0 Json.maxUnsigned a).map Int.toNat

def bool : Argument → Except EvalError Bool
  | value (.bool b) => .ok b
  | _ => .error .badArguments

/-- An argument that may be left out. -/
def optional {α : Type} (read : Argument → Except EvalError α) :
    Option Argument → Except EvalError (Option α)
  | none => .ok none
  | some (value v) => if v.isAbsent then .ok none else (read (value v)).map some
  | some a => (read a).map some

end Argument

namespace Arguments

def all (args : Arguments) : List Argument :=
  args.positional.map .value ++ (args.named.map .named).toList

/-- The arguments by name. -/
def entries (args : Arguments) : List (Value × Value) :=
  args.named.getD []

/-- What is given under a name. -/
def named? (args : Arguments) (name : String) : Option Argument :=
  (Value.lookup? args.entries (.ofString name)).map .value

/-- The argument at a place among the positional ones, which may be given by name instead. -/
def at? (args : Arguments) (place : Nat) (name : String) : Except EvalError (Option Argument) :=
  match args.positional[place]?, args.named? name with
  | some _, some _ => .error .badArguments
  | some v, none => .ok (some (.value v))
  | none, found => .ok found

/-- Whether only the given names are used. -/
def onlyNames (args : Arguments) (names : List String) : Except EvalError Unit :=
  if args.entries.all fun (key, _) => key.text?.any names.contains then .ok ()
  else .error .badArguments

/-- A switch that is off unless it is given. -/
def switch (args : Arguments) (name : String) : Except EvalError Bool := do
  pure ((← Argument.optional Argument.bool (args.named? name)).getD false)

end Arguments

end LiveMarkup.Expr
