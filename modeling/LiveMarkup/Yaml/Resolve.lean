import LiveMarkup.Decimal.Read
import LiveMarkup.Json.Basic
import LiveMarkup.Yaml.Read

/-!
The values that documents write. Plain text that reads as a number, a truth value or null is that
value.
-/

namespace LiveMarkup.Yaml

def isNull (s : String) : Bool :=
  s = "null" || s = "Null" || s = "NULL" || s = "~"

def bool? (s : String) : Option Bool :=
  if s = "true" ∨ s = "True" ∨ s = "TRUE" then some true
  else if s = "false" ∨ s = "False" ∨ s = "FALSE" then some false
  else none

def hasSign (s : List Char) : Bool :=
  s.head? = some '+' || s.head? = some '-'

/-- Digits after a zero are a text. -/
def isPaddedDigits (s : List Char) : Bool :=
  let digits := if hasSign s then s.drop 1 else s
  digits.length > 1 && digits.head? = some '0' && digits.all Char.isDigit

/-- The digits of a number in base `base`. -/
def natInBase? (base : Nat) (s : List Char) : Option Nat :=
  if s.isEmpty then none
  else
    (s.mapM hexDigit?).bind fun digits =>
      if digits.all (· < base) then some (digits.foldl (fun n d => base * n + d) 0) else none

/-- A number without its sign, in the base that its first letters name. -/
def natOfText? (s : List Char) : Option Nat :=
  match s with
  | '0' :: 'x' :: digits => natInBase? 16 digits
  | '0' :: 'o' :: digits => natInBase? 8 digits
  | '0' :: 'b' :: digits => natInBase? 2 digits
  | digits => if isPaddedDigits digits then none else natInBase? 10 digits

def int? (s : List Char) : Option Int :=
  match s with
  | '-' :: rest => (natOfText? rest).map fun n => -(n : Int)
  | '+' :: rest => (natOfText? rest).map Int.ofNat
  | s => (natOfText? s).map Int.ofNat

/-- A finite float, or the null that stands for one that is not finite. -/
def float? (s : List Char) : Option Json :=
  let size := if s.head? = some '+' then s.drop 1 else s
  let names := [".inf", ".Inf", ".INF"].map String.toList
  if names.contains size || names.contains (s.drop 1) && s.head? = some '-' ||
    [".nan", ".NaN", ".NAN"].contains (String.ofList s) then some .null
  else if s.head? = some '+' && hasSign size then none
  else ((Decimal.readFloat? size).filter (·.isFinite)).map .float

/-- The value of plain text that is no integer: a float or the text itself. -/
def floatOrText (s : String) : Json :=
  if isPaddedDigits s.toList then .text s else (float? s.toList).getD (.text s)

/-- An integer, unless no field holds it. -/
def fieldInt? (n : Int) : Option Json :=
  if Json.minInt ≤ n ∧ n ≤ Json.maxUnsigned then some (.int n) else none

/-- The value of plain text; nothing for an integer that no field holds, unless it is too long to be
read as one. -/
def plainValue? (s : String) : Option Json :=
  if s.isEmpty || isNull s then some .null
  else
    match bool? s, int? s.toList with
    | some b, _ => some (.bool b)
    | none, some n =>
      if n < Int.pow 2 128 ∧ -Int.pow 2 127 ≤ n then fieldInt? n else some (floatOrText s)
    | none, none => some (floatOrText s)

/-- The tags that tell how a scalar is read. -/
def boolTag : String := "tag:yaml.org,2002:bool"

def intTag : String := "tag:yaml.org,2002:int"

def floatTag : String := "tag:yaml.org,2002:float"

def nullTag : String := "tag:yaml.org,2002:null"

/-- A tag of the document's own, which stands for no known kind of value. -/
def isLocal (tag : Option String) : Bool :=
  tag.any (·.startsWith "!")

/-- The value of a scalar with a tag. -/
def taggedValue? (tag s : String) : Option Json :=
  if isLocal (some tag) then none
  else if tag = boolTag then (bool? s).map .bool
  else if tag = intTag then (int? s.toList).bind fieldInt?
  else if tag = floatTag then float? s.toList
  else if tag = nullTag then (if isNull s then some .null else none)
  else some (.text s)

mutual

/-- The value of a node. Of entries with the same key the last one counts. -/
def json? : Yaml → Option Json
  | .scalar _ (some tag) s => taggedValue? tag s
  | .scalar .plain none s => plainValue? s
  | .scalar _ none s => some (.text s)
  | .sequence tag items => if isLocal tag then none else (jsons? items).map .list
  | .mapping tag entries =>
    if isLocal tag then none else (jsonFields? entries).map Json.ofFields

def jsons? : List Yaml → Option (List Json)
  | [] => some []
  | item :: rest => do
    let value ← json? item
    let values ← jsons? rest
    pure (value :: values)

def jsonFields? : List (String × Yaml) → Option (List (String × Json))
  | [] => some []
  | (key, item) :: rest => do
    let value ← json? item
    let fields ← jsonFields? rest
    pure ((key, value) :: fields)

end

/-- A text: any scalar as it is written. -/
def text? : Yaml → Option String
  | .scalar _ _ s => some s
  | _ => none

/-- A truth value, written plainly, or as a block with the tag of truth values. -/
def flag? : Yaml → Option Bool
  | .scalar .plain _ s => bool? s
  | .scalar .literal tag s => if tag = some boolTag then bool? s else none
  | _ => none

/-- The value of an optional field, which plain text for nothing leaves out. -/
def optional? {α : Type} (read : Yaml → Option α) (node : Yaml) : Option (Option α) :=
  match node with
  | .scalar .plain none s => if s.isEmpty || isNull s then some none else (read node).map some
  | .scalar .plain (some tag) s =>
    if tag = nullTag then (if isNull s then some none else none) else (read node).map some
  | node => (read node).map some

/-- The items of a sequence; nothing at all is an empty one. -/
def items? : Yaml → Option (List Yaml)
  | .sequence _ items => some items
  | .scalar .plain _ "" => some []
  | _ => none

/-- The entries of a mapping; nothing at all is an empty one. -/
def entries? : Yaml → Option (List (String × Yaml))
  | .mapping _ entries => some entries
  | .scalar .plain _ "" => some []
  | _ => none

/-- The entries of a record that has the given fields. No field is given twice. -/
def fields? (names : List String) (node : Yaml) : Option (List (String × Yaml)) := do
  let entries ← node.entries?
  let keys := entries.map Prod.fst
  if keys.all names.contains && keys.eraseDups.length = keys.length then some entries else none

/-- The value of a field, or what it is without one. -/
def field? {α : Type} (entries : List (String × Yaml)) (name : String) (default : Option α)
    (read : Yaml → Option α) : Option α :=
  match entries.lookup name with
  | some node => read node
  | none => default

end LiveMarkup.Yaml
