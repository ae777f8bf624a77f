import LiveMarkup.Expr.Filter.Format
import LiveMarkup.Expr.Filter.Number
import LiveMarkup.Expr.Filter.Sequence
import LiveMarkup.Expr.Filter.Text
import LiveMarkup.Expr.Test

/-!
The filters that an expression can apply to a value.
-/

namespace LiveMarkup.Expr

inductive Filter where
  | safe
  | escape
  | lower
  | upper
  | title
  | capitalize
  | string
  | replace
  | length
  | sortEntries
  | items
  | reverse
  | trim
  | join
  | split
  | lines
  | default
  | round
  | abs
  | int
  | float
  | attr
  | first
  | last
  | min
  | max
  | sort
  | bool
  | list
  | batch
  | slice
  | sum
  | indent
  | format
  | select
  | reject
  | selectBy
  | rejectBy
  | map
  | groupBy
  | unique
  | chain
  | zip
  | layOut
  deriving DecidableEq, Repr

namespace Filter

/-- The filter of a name. -/
def named? (name : String) : Option Filter :=
  match name with
  | "safe" => some safe
  | "escape" | "e" => some escape
  | "lower" => some lower
  | "upper" => some upper
  | "title" => some title
  | "capitalize" => some capitalize
  | "string" => some string
  | "replace" => some replace
  | "length" | "count" => some length
  | "dictsort" => some sortEntries
  | "items" => some items
  | "reverse" => some reverse
  | "trim" => some trim
  | "join" => some join
  | "split" => some split
  | "lines" => some lines
  | "default" | "d" => some default
  | "round" => some round
  | "abs" => some abs
  | "int" => some int
  | "float" => some float
  | "attr" => some attr
  | "first" => some first
  | "last" => some last
  | "min" => some min
  | "max" => some max
  | "sort" => some sort
  | "bool" => some bool
  | "list" => some list
  | "batch" => some batch
  | "slice" => some slice
  | "sum" => some sum
  | "indent" => some indent
  | "format" => some format
  | "select" => some select
  | "reject" => some reject
  | "selectattr" => some selectBy
  | "rejectattr" => some rejectBy
  | "map" => some map
  | "groupby" => some groupBy
  | "unique" => some unique
  | "chain" => some chain
  | "zip" => some zip
  | "pprint" => some layOut
  | _ => none

def isName (name : String) : Bool :=
  (named? name).isSome

/-- Replaces the undefined value by another one, and every false one if the second argument is true.
-/
def orDefault (v : Value) (args : List Argument) : Except EvalError Value :=
  match args with
  | [] => .ok (replaced (.ofString "") false)
  | [other] => .ok (replaced other.toValue false)
  | [other, always] => .ok (replaced other.toValue always.toValue.isTrue)
  | _ => .error .badArguments
where
  replaced (other : Value) (always : Bool) : Value :=
    if v.isUndefined || always && !v.isTrue then other else v

/-- The elements for which a test holds or, if `keep` is false, fails. It is applied to the element,
or to what a path leads to in it, and without a test to name the truth of that counts. -/
def chosen (keep : Bool) (v : Value) (path : Option String) (args : List Argument) :
    Except EvalError Value := do
  let name ← Argument.optional Argument.text args.head?
  let applied ← match name with
    | none => pure none
    | some name =>
      match Test.named? name with
      | some found => pure (some found)
      | none => .error (.unknownTest name)
  let picked ← (← SequenceFilter.elements v).filterM fun item => do
    let tested ← match path with
      | some path => follow item path
      | none => pure item
    let holds ← match applied with
      | some found => found.apply isName tested (args.drop 1)
      | none => pure tested.isTrue
    pure (holds == keep)
  pure (.list picked)

/-- What a path or a key leads to in an item. -/
def reach (item path : Value) : Except EvalError Value :=
  match path with
  | .text path _ => follow item path
  | key => Expr.item item key

/-- What a path leads to in each element, or the argument `default` where it leads nowhere. -/
def reached (path : Value) (args : Arguments) (v : Value) : Except EvalError Value := do
  let other := ((args.named? "default").map Argument.toValue).getD .undefined
  args.onlyNames ["attribute", "default"]
  let found ← (← SequenceFilter.elements v).mapM fun item =>
    match reach item path with
    | .ok found => .ok (if found.isUndefined then other else found)
    | .error e => if other.isUndefined then .error e else .ok other
  pure (.list found)

/-- Applies a filter that names no other one. -/
def applyAlone (filter : Filter) (v : Value) (args : Arguments) : Except EvalError Value :=
  match filter, args.all with
  | safe, [] => .ok (.text v.display true)
  | escape, [] => .ok (TextFilter.escape v)
  | lower, [] => .ok (TextFilter.onText Text.lower v)
  | upper, [] => .ok (TextFilter.onText Text.upper v)
  | title, [] => .ok (TextFilter.onText (TextFilter.titled true) v)
  | capitalize, [] => .ok (TextFilter.onText Text.capitalize v)
  | string, [] => .ok (TextFilter.string v)
  | replace, [mark, new] => TextFilter.replace v mark new
  | length, [] => SequenceFilter.length v
  | sortEntries, _ => if args.positional.isEmpty then SequenceFilter.sortEntries v args else wrong
  | items, [] => SequenceFilter.items v
  | reverse, [] => SequenceFilter.reverse v
  | trim, [] => TextFilter.trim v none
  | trim, [characters] => TextFilter.trim v (some characters)
  | join, [] => TextFilter.join v none
  | join, [separator] => TextFilter.join v (some separator)
  | split, [] => TextFilter.split v none none
  | split, [separator] => TextFilter.split v (some separator) none
  | split, [separator, cuts] => TextFilter.split v (some separator) (some cuts)
  | lines, [] => TextFilter.lines v
  | default, args => orDefault v args
  | round, [] => NumberFilter.round v none
  | round, [places] => NumberFilter.round v (some places)
  | abs, [] => NumberFilter.abs v
  | int, [] => NumberFilter.int v
  | float, [] => NumberFilter.float v
  | attr, [key] => Expr.item v key.toValue
  | first, [] => SequenceFilter.first v
  | last, [] => SequenceFilter.last v
  | min, [] => SequenceFilter.least v
  | max, [] => SequenceFilter.greatest v
  | sort, _ => if args.positional.isEmpty then SequenceFilter.sort v args else wrong
  | bool, [] => .ok (.bool v.isTrue)
  | list, [] => (SequenceFilter.elements v).map .list
  | batch, [size] => SequenceFilter.batch v size none
  | batch, [size, fill] => SequenceFilter.batch v size (some fill)
  | slice, [count] => SequenceFilter.slices v count none
  | slice, [count, fill] => SequenceFilter.slices v count (some fill)
  | sum, [] => NumberFilter.sum v
  | format, _ => Format.apply v args
  | indent, _ => if args.positional.length ≤ 3 then TextFilter.indent v args else wrong
  | select, args => chosen true v none args
  | reject, args => chosen false v none args
  | selectBy, path :: args => path.text.bind fun path => chosen true v (some path) args
  | rejectBy, path :: args => path.text.bind fun path => chosen false v (some path) args
  | groupBy, _ => SequenceFilter.groupBy v args
  | unique, _ => if args.positional.isEmpty then SequenceFilter.unique v args else wrong
  | chain, others => .ok (SequenceFilter.chain (v :: others.map Argument.toValue))
  | zip, others => SequenceFilter.zip (v :: others.map Argument.toValue)
  | layOut, [] => .ok (.ofString v.laidOut)
  | _, _ => wrong
where
  wrong : Except EvalError Value :=
    .error .badArguments

/-- Applies a filter. `map` applies the filter that its first argument names to each element, with
the other arguments, or follows a path that is given instead. -/
def applyWith (named : Option (List (Value × Value))) (filter : Filter) (v : Value)
    (positional : List Value) : Except EvalError Value :=
  match filter, positional with
  | map, positional =>
    match pathGiven, positional with
    | some path, [] => reached path ⟨[], named⟩ v
    | none, name :: rest =>
      match name.text?.bind named? with
      | some inner => do
        let mapped ← (← SequenceFilter.elements v).mapM fun item => applyWith none inner item rest
        pure (.list mapped)
      | none => .error .badArguments
    | _, _ => .error .badArguments
  | filter, positional => filter.applyAlone v ⟨positional, named⟩
where
  pathGiven : Option Value :=
    (((⟨[], named⟩ : Arguments).named? "attribute").map Argument.toValue).filter (!·.isAbsent)

def apply (filter : Filter) (v : Value) (args : Arguments) : Except EvalError Value :=
  applyWith args.named filter v args.positional

end Filter

end LiveMarkup.Expr
