import LiveMarkup.Expr.Value

/-!
The texts of values: as they are displayed, as they look inside a list, and laid out on several
lines.
-/

namespace LiveMarkup.Expr.Value

/-- The text of a sequence that is not known before it runs. -/
def streamText : String :=
  "<iterator>"

/-- The text of a value that holds no other values, inside a list or a map. -/
def shownPlain : Value → String
  | undefined => "undefined"
  | none => "None"
  | bool b => if b then "True" else "False"
  | natural n => toString n
  | int n => toString n
  | float x => Decimal.Layout.listed.text x
  | text s _ => Text.quoted s
  | sequence _ _ => streamText
  | map _ _ => ""
  | function f => f.shown

mutual

def shownExpanded : Value → String
  | sequence .stream _ | sequence .broken _ => streamText
  | sequence _ items => "[" ++ ", ".intercalate (shownItems items) ++ "]"
  | map _ entries => "\x7b" ++ ", ".intercalate (shownEntries entries) ++ "\x7d"
  | v => v.shownPlain

def shownItems : List Value → List String
  | [] => []
  | item :: rest => shownExpanded item :: shownItems rest

def shownEntries : List (Value × Value) → List String
  | [] => []
  | (key, value) :: rest => (shownExpanded key ++ ": " ++ shownExpanded value) :: shownEntries rest

end

/-- The text of a value inside a list or a map. -/
def shown (v : Value) : String :=
  v.expand.shownExpanded

/-- The text of a value where it is displayed. -/
def display : Value → String
  | undefined => ""
  | float x => Decimal.Layout.plain.text x
  | text s _ => s
  | v => v.shown

/-- The break before a line that stands `depth` levels deep. -/
def lineBreak (depth : Nat) : String :=
  "\n" ++ String.join (List.replicate depth "    ")

/-- Parts between brackets, each on a line of its own. -/
def block (depth : Nat) (opening closing : String) (parts : List String) : String :=
  if parts.isEmpty then opening ++ closing
  else
    opening ++ String.join (parts.map fun part => lineBreak (depth + 1) ++ part ++ ",") ++
      lineBreak depth ++ closing

mutual

def laidOutExpanded (depth : Nat) : Value → String
  | sequence .stream _ | sequence .broken _ => streamText
  | sequence _ items => block depth "[" "]" (laidOutItems depth items)
  | map _ entries => block depth "\x7b" "\x7d" (laidOutEntries depth entries)
  | v => v.shownPlain

def laidOutItems (depth : Nat) : List Value → List String
  | [] => []
  | item :: rest => laidOutExpanded (depth + 1) item :: laidOutItems depth rest

def laidOutEntries (depth : Nat) : List (Value × Value) → List String
  | [] => []
  | (key, value) :: rest =>
    (laidOutExpanded (depth + 1) key ++ ": " ++ laidOutExpanded (depth + 1) value) ::
      laidOutEntries depth rest

end

/-- The text of a value on several lines. -/
def laidOut (v : Value) : String :=
  laidOutExpanded 0 v.expand

end LiveMarkup.Expr.Value
