import LiveMarkup.Expr.Argument
import LiveMarkup.Text.Case
import Std.Data.TreeSet.Basic

/-!
Filters that make or take sequences. Texts are compared without regard to the case of ASCII letters
where that is not asked for.
-/

namespace LiveMarkup.Expr.SequenceFilter

/-- The elements of a value, which has to have some kind of elements. -/
def elements (v : Value) : Except EvalError (List Value) :=
  match v.elements? with
  | some items => .ok items
  | none => .error .badOperands

def length (v : Value) : Except EvalError Value :=
  match v.length? with
  | some n => .ok (.natural n)
  | none => .error .badOperands

def first (v : Value) : Except EvalError Value :=
  match v with
  | .text s _ => .ok ((s.toList.head?.map Value.ofChar).getD .undefined)
  | .sequence form items => .ok ((itemAt? form items 0).getD .undefined)
  | .map _ entries => .ok ((entries.head?.map Prod.fst).getD .undefined)
  | _ => .error .badOperands

def last (v : Value) : Except EvalError Value :=
  match v with
  | .text s safe =>
    .ok ((s.toList.getLast?.map fun c => .text (String.singleton c) safe).getD .undefined)
  | .sequence form items => .ok (((Value.itemsOf form items).getLast?).getD .undefined)
  | _ => .error .badOperands

def reverse (v : Value) : Except EvalError Value :=
  match v with
  | .undefined | .none => .ok v
  | .text s safe => .ok (.text (String.ofList s.toList.reverse) safe)
  | .sequence form items => .ok (.computed (Value.itemsOf form items).reverse)
  | .map _ entries => .ok (.computed (entries.map Prod.fst).reverse)
  | _ => .error .badOperands

def pairs (entries : List (Value × Value)) : List Value :=
  entries.map fun (key, value) => .list [key, value]

def items (v : Value) : Except EvalError Value :=
  match v with
  | .map _ entries => .ok (.computed (pairs entries))
  | _ => .error .badOperands

/-- The order of values in which texts differ by more than the case of ASCII letters. -/
def orderBy (caseSensitive : Bool) (a b : Value) : Ordering :=
  match caseSensitive, a.text?, b.text? with
  | false, some s, some t => compare (Text.asciiLower s) (Text.asciiLower t)
  | _, _, _ => a.order b

/-- Sorts by an order or against it; items that are equal in it stay as they stand. -/
def sortedBy {α : Type} (reversed : Bool) (order : α → α → Ordering) (items : List α) : List α :=
  items.mergeSort fun a b => (if reversed then order b a else order a b) != .gt

/-- The paths in a text, which stand between commas. -/
def pathsOf (s : String) : List String :=
  let paths := (s.splitOn ",").map fun path => String.ofList (Text.trim path.toList)
  paths.filter (!·.isEmpty)

/-- What items are sorted by: what lies at a path in them, or the list of it if there are several
paths. -/
def sortKey (paths : List String) (item : Value) : Except EvalError Value :=
  match paths with
  | [path] => follow item path
  | paths => (paths.mapM (follow item)).map .list

/-- The order of two items by what lies at paths in them; items without it have no order. -/
def orderAt (caseSensitive : Bool) (paths : List String) (a b : Value) : Ordering :=
  match sortKey paths a, sortKey paths b with
  | .ok a, .ok b => orderBy caseSensitive a b
  | _, _ => .eq

def sort (v : Value) (args : Arguments) : Except EvalError Value := do
  let items ← elements v
  let caseSensitive ← args.switch "case_sensitive"
  let path ← Argument.optional Argument.string (args.named? "attribute")
  let reversed ← args.switch "reverse"
  args.onlyNames ["case_sensitive", "attribute", "reverse"]
  let order := match path with
    | some path => orderAt caseSensitive (pathsOf path)
    | none => orderBy caseSensitive
  pure (.list (sortedBy reversed order items))

/-- The entries of a map as pairs, sorted by their values if that is asked for and else by their
keys. -/
def sortEntries (v : Value) (args : Arguments) : Except EvalError Value := do
  match v with
  | .map _ entries =>
    let field ← Argument.optional Argument.string (args.named? "by")
    let caseSensitive ← args.switch "case_sensitive"
    let reversed ← args.switch "reverse"
    args.onlyNames ["by", "case_sensitive", "reverse"]
    let read : Value × Value → Value := if field = some "value" then Prod.snd else Prod.fst
    let order := fun a b => orderBy caseSensitive (read a) (read b)
    pure (.list (pairs (sortedBy reversed order entries)))
  | _ => .error .badOperands

/-- What tells an item from others: itself or what lies at a path in it, in lower case. -/
def mark (caseSensitive : Bool) (path : Option String) (item : Value) : Value :=
  let found := match path with
    | some path => followOr item path .undefined
    | none => item
  match caseSensitive, found with
  | false, .text s _ => .ofChars (Text.lower s.toList)
  | _, found => found

/-- The items whose marks are not among the given ones, or those of items before them. -/
def distinct (markOf : Value → Value) (seen : Std.TreeSet Value Value.order) :
    List Value → List Value
  | [] => []
  | item :: rest =>
    if seen.contains (markOf item) then distinct markOf seen rest
    else item :: distinct markOf (seen.insert (markOf item)) rest

def unique (v : Value) (args : Arguments) : Except EvalError Value := do
  let path ← Argument.optional Argument.string (args.named? "attribute")
  let caseSensitive ← args.switch "case_sensitive"
  args.onlyNames ["attribute", "case_sensitive"]
  let items ← elements v
  pure (.list (distinct (mark caseSensitive path) ∅ items))

/-- Items of one group: their common value and then the items. -/
def group (common : Value) (members : List Value) : Value :=
  .sequence .group [common, .computed members]

/-- Groups of neighbours whose common values are equal; a group shows the one of its last member. -/
def groups (commonOf : Value → Value) (equal : Value → Value → Bool) :
    List Value → List (Value × List Value)
  | [] => []
  | item :: rest =>
    match groups commonOf equal rest with
    | (common, members) :: more =>
      if rest.head?.any fun next => equal (commonOf item) (commonOf next) then
        (common, item :: members) :: more
      else (commonOf item, [item]) :: (common, members) :: more
    | [] => [(commonOf item, [item])]

/-- Sorts items by what lies at a path in them and puts equal ones into one group. -/
def groupBy (v : Value) (args : Arguments) : Except EvalError Value := do
  let other ← Argument.optional (fun a => .ok a.toValue) (args.named? "default")
  let caseSensitive ← args.switch "case_sensitive"
  let path ← match args.positional with
    | [] => namedPath
    | [path] => do
      match ← Argument.optional Argument.string (some (.value path)) with
      | some path => pure path
      | none => namedPath
    | _ => .error .badArguments
  args.onlyNames ["attribute", "default", "case_sensitive"]
  let commonOf := fun item => followOr item path (other.getD .undefined)
  let order := fun a b => orderBy caseSensitive a b
  let sorted := sortedBy false (fun a b => order (commonOf a) (commonOf b)) (← elements v)
  let found := groups commonOf (fun a b => order a b == .eq) sorted
  pure (.list (found.map fun (common, members) => group common members))
where
  namedPath : Except EvalError String :=
    match args.named? "attribute" with
    | some path => path.string
    | none => .error .badArguments

/-- Cuts items into lists of `size`, the last of which is filled up. -/
def batches (size : Nat) (filler : Option Value) (items : List Value) : Nat → List Value
  | 0 => []
  | count + 1 =>
    if items.isEmpty then []
    else
      let part := items.take size
      let filled := match filler with
        | some filler => part ++ List.replicate (size - part.length) filler
        | none => part
      .list filled :: batches size filler (items.drop size) count

/-- An item that fills a list up, unless it is left out. -/
def filler (arg : Option Argument) : Except EvalError (Option Value) :=
  Argument.optional (fun a => .ok a.toValue) arg

def batch (v : Value) (size : Argument) (fill : Option Argument) : Except EvalError Value := do
  let size ← size.size
  let fill ← filler fill
  let items ← elements v
  if size = 0 then .error .badArguments
  else pure (.list (batches size fill items items.length))

/-- Cuts items into `left` lists of equal length, of which the first `longer` ones have one more
item; the others are filled up. -/
def columns (length longer : Nat) (filler : Option Value) (items : List Value) : Nat → List Value
  | 0 => []
  | left + 1 =>
    let size := if longer = 0 then length else length + 1
    let fill := if longer = 0 then filler.toList else []
    .list (items.take size ++ fill) :: columns length (longer - 1) filler (items.drop size) left

def slices (v : Value) (count : Argument) (fill : Option Argument) : Except EvalError Value := do
  let count ← count.size
  let fill ← filler fill
  let items ← elements v
  if count = 0 then .error .badArguments
  else pure (.list (columns (items.length / count) (items.length % count) fill items count))

/-- One sequence of the elements of several values, or one map of the entries of several maps, the
last of which win. -/
def chain (values : List Value) : Value :=
  if values.all (·.kind = .map) then
    .ofEntries (values.flatMap fun
      | .map _ entries => entries
      | _ => [])
  else
    match values.mapM Value.elements? with
    | some parts =>
      if values.all (·.kind = .list) then .list parts.flatten else .sequence .stream parts.flatten
    | none => .sequence .broken []

/-- Lists of the first elements, of the second ones and so on, as far as all parts reach. -/
def rows (parts : List (List Value)) : Nat → List Value
  | 0 => []
  | count + 1 =>
    match parts.mapM List.head? with
    | some row => .list row :: rows (parts.map List.tail) count
    | none => []

def zip (values : List Value) : Except EvalError Value := do
  let parts ← values.mapM elements
  pure (.list (rows parts (parts.headD []).length))

/-- The least element by the order of values, the first one of those. -/
def least (v : Value) : Except EvalError Value := do
  let items ← elements v
  pure (items.foldl (fun found item =>
    match found with
    | some least => if item.order least == .lt then some item else some least
    | none => some item) none |>.getD .undefined)

/-- The greatest element by the order of values, the last one of those. -/
def greatest (v : Value) : Except EvalError Value := do
  let items ← elements v
  pure (items.foldl (fun found item =>
    match found with
    | some greatest => if item.order greatest == .lt then some greatest else some item
    | none => some item) none |>.getD .undefined)

end LiveMarkup.Expr.SequenceFilter
