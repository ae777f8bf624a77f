import LiveMarkup.Expr.Error
import LiveMarkup.Expr.Order

/-!
What lies inside a value: its items, its members and its slices. An index counts from the end where
it is negative; whatever is not there is undefined.
-/

namespace LiveMarkup.Expr

namespace Value

/-- The integer that a float stands for, if it has no fraction and fits a machine word. -/
def wholeOfFloat? (x : Float) : Option Int :=
  let whole := x.toInt64
  if whole.toFloat == x then some whole.toInt else .none

/-- A value as a count or an index; floats without a fraction count too. -/
def index? : Value → Option Int
  | float x => wholeOfFloat? x
  | v => v.integer?

/-- A value as an integer of one word. -/
def word? (v : Value) : Option Int :=
  v.index?.filter fun n => Json.minInt ≤ n ∧ n ≤ Json.maxInt

end Value

/-- The place that an index names in a sequence; negative indexes count from its end, which a
sequence of unknown length does not have. -/
def place? (index : Int) (length : Option Nat) : Option Nat :=
  if 0 ≤ index then some index.toNat
  else length.bind fun length => if 0 ≤ length + index then some (length + index).toNat else none

/-- The item at a place of a sequence whose items follow each other as its form says. -/
def itemAt? (form : Form) (items : List Value) (place : Nat) : Option Value :=
  match form with
  | .computed copies =>
    if place < copies * items.length then items[place % items.length]? else none
  | _ => items[place]?

/-- The member of a value that a name stands for, if it is there. A group names its two items. -/
def member? (base : Value) (name : String) : Option Value :=
  match base with
  | .map _ entries => Value.lookup? entries (.ofString name)
  | .sequence .group items =>
    if name = "grouper" then items[0]? else if name = "list" then items[1]? else none
  | _ => none

/-- The item of a value under a key, if it is there. -/
def item? (base key : Value) : Option Value :=
  match base with
  | .map _ entries => Value.lookup? entries key
  | .sequence form items =>
    match key.index? with
    | some i => (place? i base.length?).bind (itemAt? form items)
    | none => key.text?.bind (member? base)
  | .text s safe =>
    let characters := s.toList
    (key.index?.bind fun i => (place? i characters.length).bind (characters[·]?)).map fun c =>
      .text (String.singleton c) safe
  | _ => none

/-- The item of a value under a key; the undefined value has none. -/
def item (base key : Value) : Except EvalError Value :=
  if base.isUndefined then .error .undefinedBase else .ok ((item? base key).getD .undefined)

def member (base : Value) (name : String) : Except EvalError Value :=
  if base.isUndefined then .error .undefinedBase else .ok ((member? base name).getD .undefined)

/-- A number at the front of a path, which is an index. -/
def pathIndex? (part : List Char) : Option Nat :=
  let digits := if part.head? = some '+' then part.drop 1 else part
  if digits.isEmpty ∨ !digits.all Char.isDigit then none
  else
    let n := digits.foldl (fun n c => 10 * n + (c.toNat - '0'.toNat)) 0
    if n < Value.wide then some n else none

/-- Follows a path of names and indexes with dots between them. -/
def follow (v : Value) (path : String) : Except EvalError Value :=
  (path.splitOn ".").foldlM
    (fun v part =>
      match pathIndex? part.toList with
      | some n => item v (.natural n)
      | none => member v part)
    v

/-- What lies at the end of a path, or `other` where nothing does. -/
def followOr (v : Value) (path : String) (other : Value) : Value :=
  match follow v path with
  | .ok found => if found.isUndefined then other else found
  | .error _ => other

/-- The bounds of a slice; a step is not zero. -/
structure Slice where
  start : Option Int
  stop : Option Int
  step : Int

/-- A bound counts from the end where it is negative, and lies at the front at the least. -/
def Slice.bound (length : Nat) (n : Int) : Nat :=
  (if n < 0 then n + length else n).toNat

/-- The places that a slice picks going up, of `available` ones. -/
def Slice.ascending (slice : Slice) (length available : Nat) : List Nat :=
  let start := bound length (slice.start.getD 0)
  let stop := min available ((slice.stop.map (bound length)).getD length)
  let size := slice.step.natAbs
  (List.range ((stop - start + size - 1) / size)).map fun i => start + i * size

/-- The places that a slice picks going down. It goes on to the first place, and takes that in,
where no bound stops it before. -/
def Slice.descending (slice : Slice) (length : Nat) : List Nat :=
  if length = 0 then []
  else
    let last := length - 1
    let start := min last ((slice.start.map (bound length)).getD last)
    let stop := (slice.stop.map (bound length)).getD 0
    let size := slice.step.natAbs
    let distance := if stop = 0 then start + 1 else start - stop
    (List.range ((distance + size - 1) / size)).map fun i => start - i * size

/-- The places that a slice picks out of `length` ones, in its order. -/
def Slice.places (slice : Slice) (length : Nat) : List Nat :=
  if 0 < slice.step then slice.ascending length length else slice.descending length

def Slice.ofValues (start stop step : Value) : Except EvalError Slice := do
  let start ← bound? start
  let stop ← bound? stop
  let step := (← bound? step).getD 1
  if step = 0 then .error .outOfRange else pure ⟨start, stop, step⟩
where
  bound? : Value → Except EvalError (Option Int)
    | .none => .ok none
    | v =>
      match v.word? with
      | some n => .ok (some n)
      | none => .error .badOperands

/-- A part of a text or a sequence; nothing has no parts. Going up through a sequence of unknown
length, bounds count as if it had none; going down finds the length. -/
def slice (v : Value) (bounds : Slice) : Except EvalError Value :=
  match v with
  | .undefined | .none => .ok (.list [])
  | .text s safe =>
    let characters := s.toList.toArray
    let picked := (bounds.places characters.size).filterMap (characters[·]?)
    .ok (.text (String.ofList picked) safe)
  | .sequence .broken items => .ok (.sequence .broken items)
  | .sequence .stream items =>
    if 0 < bounds.step then .ok (.sequence .stream (pick items (bounds.ascending 0 items.length)))
    else .ok (.computed (pick items (bounds.descending items.length)))
  | .sequence _ items =>
    let unit := items.toArray
    let places := bounds.places ((v.length?).getD items.length)
    .ok (.computed (places.filterMap fun place => unit[place % unit.size]?))
  | _ => .error .badOperands
where
  pick (items : List Value) (places : List Nat) : List Value :=
    let items := items.toArray
    places.filterMap (items[·]?)

end LiveMarkup.Expr
