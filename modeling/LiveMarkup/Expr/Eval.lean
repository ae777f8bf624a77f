import LiveMarkup.Expr.Filter
import LiveMarkup.Expr.Function

/-!
Evaluation. A name is looked up in the scope first and then among the functions; one that is found
in neither is undefined. The arguments of a call are evaluated before what is called is looked for.
-/

namespace LiveMarkup.Expr

/-- What a name stands for; none for a name that the scope does not know. -/
abbrev Env := String → Option Value

def resolve (env : Env) (name : String) : Value :=
  match env name with
  | some v => v
  | none => ((Function.all.find? (·.name = name)).map .function).getD .undefined

/-- Calls a value; what is no function cannot be called. -/
def callValue (f : Value) (args : Arguments) : Except EvalError Value :=
  match f with
  | .function f => f.call args
  | _ => .error .notCallable

/-- Calls what a name stands for. -/
def callName (env : Env) (name : String) (args : Arguments) : Except EvalError Value :=
  match resolve env name with
  | .undefined => .error (.unknownFunction name)
  | f => callValue f args

def applyFilter (name : String) (v : Value) (args : Arguments) : Except EvalError Value :=
  match Filter.named? name with
  | some filter => filter.apply v args
  | none => .error (.unknownFilter name)

def applyTest (name : String) (v : Value) (args : Arguments) : Except EvalError Value :=
  match Test.named? name with
  | some found => (found.apply Filter.isName v args.all).map .bool
  | none => .error (.unknownTest name)

/-- The positional arguments from the values of the ones that are written out. -/
def spreadOut : List (ArgumentForm × Value) → Except EvalError (List Value)
  | [] => .ok []
  | (.positional, v) :: rest => do
    let values ← spreadOut rest
    pure (v :: values)
  | (.spread, v) :: rest =>
    match v.elements? with
    | some values => do
      let more ← spreadOut rest
      pure (values ++ more)
    | none => .error .badArguments
  | (.named _, _) :: rest | (.spreadNamed, _) :: rest => spreadOut rest

/-- The entries of a map, which become named arguments. -/
def namedEntries (v : Value) : Except EvalError (List (Value × Value)) :=
  match v with
  | .map _ entries => .ok entries
  | _ => .error .badArguments

def gatherNamed : List (ArgumentForm × Value) → Except EvalError (List (Value × Value))
  | [] => .ok []
  | (.named name, v) :: rest => do
    let entries ← gatherNamed rest
    pure ((.ofString name, v) :: entries)
  | (.spreadNamed, v) :: rest => do
    let entries ← namedEntries v
    let more ← gatherNamed rest
    pure (entries ++ more)
  | (.positional, _) :: rest | (.spread, _) :: rest => gatherNamed rest

/-- The arguments of a call from the values of the ones that are written out, the positional ones
before the others. -/
def Arguments.gather (positional others : List (ArgumentForm × Value)) :
    Except EvalError Arguments := do
  let entries ← gatherNamed others
  let values ← spreadOut positional
  pure ⟨values, if others.isEmpty then none else some (Value.sortEntries entries)⟩

mutual

def eval (env : Env) : Term → Except EvalError Value
  | .constant v => .ok v
  | .name name => .ok (resolve env name)
  | .member base name => do
    let base ← eval env base
    member base name
  | .item base key => do
    let base ← eval env base
    let key ← eval env key
    item base key
  | .slice base start stop step => do
    let base ← eval env base
    let start ← eval env start
    let stop ← eval env stop
    let step ← eval env step
    let bounds ← Slice.ofValues start stop step
    slice base bounds
  | .list items => do
    let items ← evalAll env items
    pure (.list items)
  | .map entries => do
    let entries ← evalEntries env entries
    pure (.ofEntries entries)
  | .negate e => do
    let v ← eval env e
    negate v
  | .not e => do
    let v ← eval env e
    pure (.bool (!v.isTrue))
  | .and left right => do
    let v ← eval env left
    if v.isTrue then eval env right else pure v
  | .or left right => do
    let v ← eval env left
    if v.isTrue then pure v else eval env right
  | .binary op left right => do
    let a ← eval env left
    let b ← eval env right
    op.eval a b
  | .compare first links => do
    let v ← eval env first
    let holds ← evalLinks env v links
    pure (.bool holds)
  | .choose test whenTrue otherwise => do
    let v ← eval env test
    if v.isTrue then eval env whenTrue else eval env otherwise
  | .call (.name name) args => do
    let args ← evalArguments env args
    callName env name args
  | .call (.member (.name "self") _) _ => .error .notCallable
  | .call (.member base name) args => do
    let base ← eval env base
    let args ← evalArguments env args
    let f ← member base name
    callValue f args
  | .call callee args => do
    let f ← eval env callee
    let args ← evalArguments env args
    callValue f args
  | .filter name subject args => do
    let v ← eval env subject
    let args ← evalArguments env args
    applyFilter name v args
  | .test name subject args => do
    let v ← eval env subject
    let args ← evalArguments env args
    applyTest name v args
termination_by e => 2 * sizeOf e
decreasing_by
  all_goals
    simp only [Term.call.sizeOf_spec, Term.member.sizeOf_spec, Term.filter.sizeOf_spec,
      Term.test.sizeOf_spec, Term.item.sizeOf_spec, Term.slice.sizeOf_spec, Term.negate.sizeOf_spec,
      Term.not.sizeOf_spec, Term.map.sizeOf_spec, Term.compare.sizeOf_spec, Term.list.sizeOf_spec,
      Term.binary.sizeOf_spec, Term.and.sizeOf_spec, Term.or.sizeOf_spec, Term.choose.sizeOf_spec]
    omega

def evalAll (env : Env) : List Term → Except EvalError (List Value)
  | [] => .ok []
  | e :: rest => do
    let v ← eval env e
    let values ← evalAll env rest
    pure (v :: values)
termination_by items => 2 * sizeOf items
decreasing_by
  all_goals
    simp only [List.cons.sizeOf_spec]
    omega

def evalEntries (env : Env) : List (Term × Term) → Except EvalError (List (Value × Value))
  | [] => .ok []
  | (key, value) :: rest => do
    let k ← eval env key
    let v ← eval env value
    let entries ← evalEntries env rest
    pure ((k, v) :: entries)
termination_by entries => 2 * sizeOf entries
decreasing_by
  all_goals
    simp only [List.cons.sizeOf_spec, Prod.mk.sizeOf_spec]
    omega

/-- Whether the comparisons after a value hold, from left to right up to the first that fails. -/
def evalLinks (env : Env) (left : Value) : List (Comparison × Term) → Except EvalError Bool
  | [] => .ok true
  | (comparison, e) :: rest => do
    let right ← eval env e
    let holds ← comparison.holds left right
    if holds then evalLinks env right rest else pure false
termination_by links => 2 * sizeOf links
decreasing_by
  all_goals
    simp only [List.cons.sizeOf_spec, Prod.mk.sizeOf_spec]
    omega

/-- Evaluates arguments: the positional ones first, the named ones after them. -/
def evalArguments (env : Env) (args : List (ArgumentForm × Term)) : Except EvalError Arguments := do
  let positional ← evalSome env false args
  let others ← evalSome env true args
  Arguments.gather positional others
termination_by 2 * sizeOf args + 1
decreasing_by all_goals exact Nat.lt_succ_self _

/-- Evaluates the arguments that are given by name, or those that are not. -/
def evalSome (env : Env) (named : Bool) :
    List (ArgumentForm × Term) → Except EvalError (List (ArgumentForm × Value))
  | [] => .ok []
  | (form, e) :: rest =>
    if form.isNamed = named then do
      let v ← eval env e
      let values ← evalSome env named rest
      pure ((form, v) :: values)
    else evalSome env named rest
termination_by args => 2 * sizeOf args
decreasing_by
  all_goals
    simp only [List.cons.sizeOf_spec, Prod.mk.sizeOf_spec]
    omega

end

end LiveMarkup.Expr
