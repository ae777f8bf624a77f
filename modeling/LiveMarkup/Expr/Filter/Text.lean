import LiveMarkup.Expr.Argument
import LiveMarkup.Text.Case
import LiveMarkup.Text.Split

/-!
Filters that make or take texts.
-/

namespace LiveMarkup.Expr.TextFilter

/-- A text made of a value's text, as safe as that. -/
def part (v : Value) (s : List Char) : Value :=
  .text (String.ofList s) v.isSafe

/-- The list of several parts of a value's text. -/
def parts (v : Value) (pieces : List (List Char)) : Value :=
  .list (pieces.map (part v))

/-- A filter from what it does to the characters of a value's text. -/
def onText (f : List Char → List Char) (v : Value) : Value :=
  part v (f v.display.toList)

def isPunctuation (c : Char) : Bool :=
  Text.isAscii c && 0x20 < c.toNat && c.toNat < 0x7F && !c.isAlphanum

/-- Each word with its first character in upper case and the others in lower case. A blank or an
ASCII punctuation sign begins a new word. -/
def titled (atStart : Bool) : List Char → List Char
  | [] => []
  | c :: rest =>
    if isPunctuation c || Text.isBlank c then c :: titled true rest
    else (if atStart then Text.upperChar c else Text.lowerChar c) ++ titled false rest

/-- A character as markup writes it in text. -/
def escapedChar (c : Char) : List Char :=
  if c = '<' then "&lt;".toList
  else if c = '>' then "&gt;".toList
  else if c = '&' then "&amp;".toList
  else if c = '"' then "&quot;".toList
  else if c = '\'' then "&#x27;".toList
  else if c = '/' then "&#x2f;".toList
  else [c]

/-- A text that needs no escaping any more; a safe one stays as it is. -/
def escape (v : Value) : Value :=
  match v with
  | .text s true => .text s true
  | v => .text (String.ofList (v.display.toList.flatMap escapedChar)) true

/-- A value as a text; a text stays as it is. -/
def string (v : Value) : Value :=
  match v with
  | .text s safe => .text s safe
  | v => .ofString v.display

def trim (v : Value) (characters : Option Argument) : Except EvalError Value := do
  match ← Argument.optional Argument.text characters with
  | some characters => pure (onText (Text.trimOf characters.toList) v)
  | none => pure (onText Text.trim v)

def replace (v : Value) (mark new : Argument) : Except EvalError Value := do
  let mark ← mark.text
  let new ← new.text
  pure (.ofChars (Text.replace v.display.toList mark.toList new.toList))

/-- The texts of the elements with a separator between them. -/
def join (v : Value) (separator : Option Argument) : Except EvalError Value := do
  let separator := (← Argument.optional Argument.text separator).getD ""
  match v.elements? with
  | some items => pure (.ofString (separator.intercalate (items.map Value.display)))
  | none => .error .badOperands

/-- The pieces of a text between separators, or its words. A number of cuts that is not negative
limits them. -/
def split (v : Value) (separator cuts : Option Argument) : Except EvalError Value := do
  let s := (← (Argument.value v).string).toList
  let separator ← Argument.optional Argument.string separator
  let cuts ← Argument.optional Argument.word cuts
  let limit := (cuts.filter (0 ≤ ·)).map fun n => n.toNat + 1
  let upTo := min (limit.getD (Text.noLimit s)) (Text.noLimit s)
  pure (parts v (match separator with
    | some separator => Text.pieces separator.toList upTo s
    | none => Text.words upTo s))

def lines (v : Value) : Except EvalError Value := do
  let s ← (Argument.value v).string
  pure (parts v (Text.lines s.toList))

/-- A text without the line end at its end. -/
def withoutLineEnd (s : List Char) : List Char :=
  Text.withoutReturn (if s.getLast? = some '\n' then s.dropLast else s)

/-- The lines after each other, each of which `width` spaces go before, the first line and empty
ones only if that is asked for. -/
def indented (width : Nat) (first empty : Bool) (s : List Char) : List Char :=
  let lines := Text.splitUpTo ['\n'] (Text.noLimit s) (withoutLineEnd s)
  let space := List.replicate width ' '
  let before := fun (line : List Char) => if line.isEmpty ∧ !empty then line else space ++ line
  let lines :=
    match lines with
    | [] => []
    | line :: rest => (if first then before line else line) :: rest.map before
  withoutLineEnd (lines.flatMap fun line => line ++ ['\n'])

def indent (v : Value) (args : Arguments) : Except EvalError Value := do
  let width ← Argument.optional Argument.size (← args.at? 0 "width")
  let first ← Argument.optional Argument.bool (← args.at? 1 "first")
  let empty ← Argument.optional Argument.bool (← args.at? 2 "blank")
  args.onlyNames ["width", "first", "blank"]
  pure (onText (indented (width.getD 4) (first.getD false) (empty.getD false)) v)

end LiveMarkup.Expr.TextFilter
