import LiveMarkup.Expr.Argument
import LiveMarkup.Text.Chars

/-!
The functions of expressions.
-/

namespace LiveMarkup.Expr

/-- Joins the true arguments with spaces. -/
def classList (classes : List Value) : Value :=
  .ofString (" ".intercalate ((classes.filter Value.isTrue).map Value.display))

/-- Writes a dash before each ASCII capital that follows a word character, and lowercases it. -/
def dashed (afterWord : Bool) : List Char → List Char
  | [] => []
  | c :: rest =>
    (if c.isUpper ∧ afterWord then ['-'] else []) ++
      c.toLower :: dashed (Text.isAlphanumeric c || c = '_') rest

def declarationName (key : Value) : String :=
  String.ofList (dashed false key.display.toList)

mutual

/-- Declarations from a map; a map inside it is a rule of its own, and values that are false are
left out. -/
def declarations : Value → String
  | .map _ entries => declarationsOf entries
  | _ => ""

def declarationsOf : List (Value × Value) → String
  | [] => ""
  | (key, value) :: rest =>
    let own :=
      if !value.isTrue then ""
      else
        match value with
        | .map _ _ => declarationName key ++ " \x7b" ++ declarations value ++ "\x7d\n"
        | _ => declarationName key ++ ":" ++ value.display ++ ";"
    own ++ declarationsOf rest

end

def cssObj : List Argument → Except EvalError Value
  | [arg] =>
    match arg.toValue with
    | .map _ entries => .ok (.ofString (declarationsOf entries))
    | _ => .error .declarationsExpected
  | _ => .error .badArguments

/-- The most numbers that a range has. -/
def maxRange : Nat := 100000

/-- The numbers from `first` up to `stop`, which is not among them, or down to it. -/
def numbers (first stop step : Int) : Except EvalError Value :=
  let distance := if 0 < step then stop - first else first - stop
  let count := (distance.toNat + step.natAbs - 1) / step.natAbs
  if step = 0 ∨ maxRange < count then .error .badArguments
  else .ok (.computed ((List.range count).map fun i : Nat => .int (first + (i : Int) * step)))

/-- A range from its first number, or zero, to its end in steps, or steps of one. -/
def range (args : List Argument) : Except EvalError Value := do
  let fromTo := fun (first stop : Argument) (step : Option Argument) => do
    let first ← first.word
    let stop ← Argument.optional Argument.word (some stop)
    let step := (← Argument.optional Argument.word step).getD 1
    match stop with
    | some stop => numbers first stop step
    | none => numbers 0 first step
  match args with
  | [stop] => fromTo stop (.value .none) none
  | [first, stop] => fromTo first stop none
  | [first, stop, step] => fromTo first stop (some step)
  | _ => .error .badArguments

/-- The entries of a map, and none of an argument that is left out. -/
def entriesOf : Value → Except EvalError (List (Value × Value))
  | .map _ entries => .ok entries
  | v => if v.isAbsent then .ok [] else .error .badArguments

/-- A map of the entries of a map and of the named arguments. -/
def dict (args : Arguments) : Except EvalError Value :=
  match args.positional with
  | [] => .ok (.ofEntries args.entries)
  | [v] => do
    let entries ← entriesOf v
    pure (.ofEntries (entries ++ args.entries))
  | _ => .error .badArguments

/-- A map of the entries whose keys are texts. -/
def space (args : List Argument) : Except EvalError Value :=
  match args with
  | [] => .ok (.map .fresh [])
  | [arg] => do
    let entries ← entriesOf arg.toValue
    pure (.map .fresh (entries.filter fun (key, _) => key.text?.isSome))
  | _ => .error .badArguments

/-- The arguments, laid out on several lines. -/
def debug (args : List Argument) : Except EvalError Value :=
  match args with
  | [] => .error .badArguments
  | [arg] => .ok (.ofString arg.toValue.laidOut)
  | args => .ok (.ofString (Value.list (args.map Argument.toValue)).laidOut)

def Function.call (f : Function) (args : Arguments) : Except EvalError Value :=
  match f with
  | classList => .ok (Expr.classList (args.all.map Argument.toValue))
  | cssObj => Expr.cssObj args.all
  | range => Expr.range args.all
  | dict => Expr.dict args
  | space => Expr.space args.all
  | debug => Expr.debug args.all

end LiveMarkup.Expr
