import LiveMarkup.Decimal.Read
import LiveMarkup.Decimal.Whole
import LiveMarkup.Json.Text

/-!
The values of expressions. Besides what a field can hold there are the undefined value, functions
and sequences that a computation made, and a map may have keys of every kind.
-/

namespace LiveMarkup.Expr

/-- The functions that an expression can call. -/
inductive Function where
  | classList
  | cssObj
  | range
  | dict
  | space
  | debug
  deriving DecidableEq, Repr

def Function.all : List Function :=
  [.classList, .cssObj, .range, .dict, .space, .debug]

def Function.name : Function → String
  | classList => "class_list"
  | cssObj => "css_obj"
  | range => "range"
  | dict => "dict"
  | space => "namespace"
  | debug => "debug"

/-- What a function looks like where it is displayed. -/
def Function.shown (f : Function) : String :=
  match f with
  | classList | cssObj => "enso::expr::environment::" ++ f.name
  | range | dict | space | debug => "minijinja::functions::builtins::" ++ f.name

/-- Where a list or a map comes from. -/
inductive Origin where
  /-- Made anew each time that it is read. -/
  | fresh
  /-- Held by a scope, under a name and the keys that follow the name, the last key first. -/
  | held (path : List String)
  deriving DecidableEq, Repr

/-- Whether two origins give one and the same value. -/
def Origin.isSame : Origin → Origin → Bool
  | held path, held other => path == other
  | _, _ => false

/-- How a sequence came about. -/
inductive Form where
  /-- Written as a list, or held by a field or a scope. -/
  | list (origin : Origin)
  /-- A common value and then the items that have it. -/
  | group
  /-- Computed from other sequences: the items follow each other `copies` times. -/
  | computed (copies : Nat)
  /-- Computed item by item, so that its length is not known. -/
  | stream
  /-- Made of parts one of which has no items. That is not known before it runs, which fails. -/
  | broken
  deriving DecidableEq, Repr

inductive Value where
  | undefined
  | none
  | bool (b : Bool)
  /-- An integer without a sign, as an expression writes it or a field holds it. -/
  | natural (n : Nat)
  /-- An integer with a sign: a negative one of a field, or the result of a computation. -/
  | int (n : Int)
  | float (x : Float)
  /-- A safe text needs no escaping. -/
  | text (s : String) (safe : Bool)
  | sequence (form : Form) (items : List Value)
  /-- Entries in ascending order of their keys. -/
  | map (origin : Origin) (entries : List (Value × Value))
  | function (f : Function)

/-- The kinds of values, in the order in which they are sorted. -/
inductive Kind where
  | undefined
  | none
  | bool
  | number
  | text
  | list
  | map
  | computed
  | function
  deriving DecidableEq, Repr, Ord

namespace Value

instance : Inhabited Value :=
  ⟨undefined⟩

@[match_pattern]
abbrev list (items : List Value) : Value :=
  sequence (.list .fresh) items

@[match_pattern]
abbrev computed (items : List Value) : Value :=
  sequence (.computed 1) items

abbrev ofString (s : String) : Value :=
  text s false

abbrev ofChars (s : List Char) : Value :=
  text (String.ofList s) false

abbrev ofChar (c : Char) : Value :=
  text (String.singleton c) false

def kind : Value → Kind
  | undefined => .undefined
  | none => .none
  | bool _ => .bool
  | natural _ | int _ | float _ => .number
  | text _ _ => .text
  | sequence (.list _) _ | sequence .group _ => .list
  | sequence _ _ => .computed
  | map _ _ => .map
  | function _ => .function

def isUndefined : Value → Bool
  | undefined => true
  | _ => false

/-- Nothing and the undefined value leave an argument out. -/
def isAbsent : Value → Bool
  | undefined | none => true
  | _ => false

def isTrue : Value → Bool
  | undefined => false
  | none => false
  | bool b => b
  | natural n => n != 0
  | int n => n != 0
  | float x => x != 0.0
  | text s _ => !s.isEmpty
  | sequence (.computed copies) items => copies != 0 && !items.isEmpty
  | sequence .stream _ | sequence .broken _ => true
  | sequence _ items => !items.isEmpty
  | map _ entries => !entries.isEmpty
  | function _ => true

def text? : Value → Option String
  | text s _ => some s
  | _ => .none

def isSafe : Value → Bool
  | text _ safe => safe
  | _ => false

/-- The items of a sequence, written out. -/
def itemsOf (form : Form) (items : List Value) : List Value :=
  match form with
  | .computed copies => if copies = 1 then items else (List.replicate copies items).flatten
  | _ => items

/-- The number of characters, items or entries. -/
def length? : Value → Option Nat
  | text s _ => some s.length
  | sequence (.computed copies) items => some (copies * items.length)
  | sequence .stream _ | sequence .broken _ => .none
  | sequence _ items => some items.length
  | map _ entries => some entries.length
  | _ => .none

/-- The values that a loop over a value runs through: items, characters or keys. -/
def elements? : Value → Option (List Value)
  | undefined | none => some []
  | text s _ => some (s.toList.map ofChar)
  | sequence .broken _ => .none
  | sequence form items => some (itemsOf form items)
  | map _ entries => some (entries.map Prod.fst)
  | _ => .none

/-- A sequence whose items are followed by no copies of them. -/
def writtenOut (form : Form) (items : List Value) : Value :=
  match form with
  | .computed _ => computed (itemsOf form items)
  | form => sequence form items

mutual

/-- Writes out the sequences in a value that follow each other several times. -/
def expand : Value → Value
  | sequence form items => writtenOut form (expandItems items)
  | map origin entries => map origin (expandEntries entries)
  | v => v

def expandItems : List Value → List Value
  | [] => []
  | item :: rest => expand item :: expandItems rest

def expandEntries : List (Value × Value) → List (Value × Value)
  | [] => []
  | (key, value) :: rest => (expand key, expand value) :: expandEntries rest

end

end Value

end LiveMarkup.Expr
