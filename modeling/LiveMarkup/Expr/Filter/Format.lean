import LiveMarkup.Decimal.Places
import LiveMarkup.Decimal.Read
import LiveMarkup.Decimal.Whole
import LiveMarkup.Expr.Argument

/-!
Patterns with values put into them. A directive begins with a percent sign; it may name the value,
and says how wide the value is written, how exactly and in which notation. Directives that name no
value take the given ones in their order, all of which have to be taken.
-/

namespace LiveMarkup.Expr.Format

/-- A number that stands in a directive, or that a value gives. -/
inductive Amount where
  | number (n : Nat)
  | taken
  deriving DecidableEq, Repr

structure Directive where
  key : Option String
  flags : List Char
  width : Option Amount
  /-- The number of digits of a number, or of characters of a text. -/
  precision : Option Amount
  /-- The notation. -/
  conversion : Char
  deriving DecidableEq, Repr

/-- A stretch of a pattern. -/
inductive Piece where
  | literal (c : Char)
  | directive (d : Directive)
  deriving DecidableEq, Repr

/-- The characters before the parenthesis that closes, and those after it. -/
def toClosing? (depth : Nat) : List Char → Option (List Char × List Char)
  | [] => none
  | c :: rest =>
    if c = ')' ∧ depth = 0 then some ([], rest)
    else
      let depth := if c = '(' then depth + 1 else if c = ')' then depth - 1 else depth
      (toClosing? depth rest).map fun (before, after) => (c :: before, after)

def key? : List Char → Option (Option String × List Char)
  | '(' :: rest => (toClosing? 0 rest).map fun (name, rest) => (some (String.ofList name), rest)
  | s => some (none, s)

def amount : List Char → Option Amount × List Char
  | '*' :: rest => (some .taken, rest)
  | s =>
    let (digits, rest) := Decimal.spanDigits s
    (if digits.isEmpty then none else some (.number (Decimal.natOfDigits digits)), rest)

/-- A point without digits after it means zero. -/
def precision : List Char → Option Amount × List Char
  | '.' :: rest =>
    let (found, rest) := amount rest
    (some (found.getD (.number 0)), rest)
  | s => (none, s)

def isFlag (c : Char) : Bool :=
  c = '-' || c = '+' || c = ' ' || c = '#' || c = '0'

/-- A letter for the size of a number, which has no meaning. -/
def dropSize : List Char → List Char
  | c :: rest => if c = 'h' ∨ c = 'l' ∨ c = 'L' then rest else c :: rest
  | [] => []

/-- The directive after a percent sign, and what follows it. -/
def directive? (s : List Char) : Option (Directive × List Char) := do
  let (key, s) ← key? s
  let flags := s.takeWhile isFlag
  let (width, s) := amount (s.dropWhile isFlag)
  let (precision, s) := precision s
  match dropSize s with
  | [] => none
  | conversion :: rest => some (⟨key, flags, width, precision, conversion⟩, rest)

/-- The pieces of a pattern; the number bounds them. -/
def pieces? : Nat → List Char → Option (List Piece)
  | 0, _ => none
  | _ + 1, [] => some []
  | limit + 1, '%' :: rest => do
    let (d, rest) ← directive? rest
    let more ← pieces? limit rest
    pure (.directive d :: more)
  | limit + 1, c :: rest => (pieces? limit rest).map (.literal c :: ·)

/-- How a value is written, with all amounts known. -/
structure Style where
  toLeft : Bool
  plus : Bool
  blank : Bool
  zeros : Bool
  alternate : Bool
  width : Nat
  precision : Option Nat

/-- The most characters that a directive asks for. -/
def maxWidth : Nat := 10000000

/-- A text in its width. -/
def Style.padded (style : Style) (s : List Char) : List Char :=
  let space := List.replicate (style.width - s.length) ' '
  if style.toLeft then s ++ space else space ++ s

/-- A number in its width, with zeros between the sign and the digits if that is asked for. -/
def Style.number (style : Style) (negative : Bool) (mark digits : List Char) : List Char :=
  let sign :=
    if negative then ['-'] else if style.plus then ['+'] else if style.blank then [' '] else []
  let front := sign ++ mark
  let zeros :=
    if style.zeros ∧ !style.toLeft then
      List.replicate (style.width - (front.length + digits.length)) '0'
    else []
  style.padded (front ++ zeros ++ digits)

/-- An integer in a base, with a mark of the base before it if that is asked for. -/
def Style.integer (style : Style) (base : Nat) (mark : List Char) (n : Int) : List Char :=
  let digits := Nat.toDigits base n.natAbs
  let zeros := List.replicate (style.precision.getD 0 - digits.length) '0'
  style.number (n < 0) (if style.alternate then mark else []) (zeros ++ digits)

/-- A float in the notation of a letter, with six digits where no number of them is given. -/
def Style.float (style : Style) (conversion : Char) (x : Float) : List Char :=
  let negative := x.toBits ≥ 0x8000000000000000 && !x.isNaN
  let b := Decimal.Binary.ofBits x.toBits
  let places := style.precision.getD 6
  let digits :=
    if x.isNaN then "nan".toList
    else if x.isInf then "inf".toList
    else if conversion = 'e' then
      let (digits, power) := b.scientific style.alternate places
      digits ++ Decimal.exponentText power
    else if conversion = 'f' then b.fixed style.alternate places
    else b.general style.alternate (max 1 places)
  style.number negative [] digits

def capitals (s : List Char) : List Char :=
  s.map Char.toUpper

/-- A value as an integer, without its fraction if it has one. -/
def integerOf? : Value → Option Int
  | .bool b => some (if b then 1 else 0)
  | .float x => if x.isFinite then some (Decimal.whole x) else none
  | v => v.anyInteger?

/-- A value as an integer if it is one. -/
def exactIntegerOf? : Value → Option Int
  | .float _ => none
  | v => integerOf? v

/-- A character by its number, or a text of one character. -/
def characterOf? (v : Value) : Option Char :=
  match v with
  | .text s _ =>
    match s.toList with
    | [c] => some c
    | _ => none
  | v => (exactIntegerOf? v).bind fun n =>
    if h : 0 ≤ n ∧ n.toNat.isValidChar then some (Char.ofNatAux n.toNat h.2) else none

/-- A text whose characters beyond ASCII are written by their numbers. -/
def asciiOnly (s : List Char) : List Char :=
  s.flatMap fun c =>
    let code := Nat.toDigits 16 c.toNat
    let filled := fun (size : Nat) => List.replicate (size - code.length) '0' ++ code
    if Text.isAscii c then [c]
    else if c.toNat < 0x100 then '\\' :: 'x' :: filled 2
    else if c.toNat < 0x10000 then '\\' :: 'u' :: filled 4
    else '\\' :: 'U' :: filled 8

/-- A value in the notation of a letter, unless it has none. -/
def Style.value? (style : Style) (conversion : Char) (v : Value) : Option (List Char) :=
  let cut := fun (s : List Char) => style.padded (s.take (style.precision.getD s.length))
  match conversion with
  | 'd' | 'i' | 'u' => (integerOf? v).map (style.integer 10 [])
  | 'o' => (exactIntegerOf? v).map (style.integer 8 ['0', 'o'])
  | 'x' => (exactIntegerOf? v).map (style.integer 16 ['0', 'x'])
  | 'X' => (exactIntegerOf? v).map fun n => capitals (style.integer 16 ['0', 'x'] n)
  | 'e' | 'f' | 'g' => v.float?.map (style.float conversion)
  | 'E' | 'F' | 'G' => v.float?.map fun x => capitals (style.float conversion.toLower x)
  | 'c' => (characterOf? v).map fun c => style.padded [c]
  | 's' => some (cut v.display.toList)
  | 'r' => some (cut v.shown.toList)
  | 'a' => some (cut (asciiOnly v.shown.toList))
  | _ => none

/-- The values of a pattern. -/
structure Supply where
  /-- Values that no directive has taken yet. -/
  left : List Value
  /-- Values by name. -/
  named : Option (List (Value × Value))

/-- The number that a directive asks for, and the values that are left. A negative one is kept. -/
def Supply.amount? (supply : Supply) : Option Amount → Option (Option Int × Supply)
  | none => some (none, supply)
  | some (.number n) => some (some n, supply)
  | some .taken =>
    match supply.left with
    | [] => none
    | v :: left => (exactIntegerOf? v).map fun n => (some n, { supply with left := left })

/-- The value that a directive asks for. -/
def Supply.take? (supply : Supply) : Option String → Option (Value × Supply)
  | some name => do
    let v ← Value.lookup? (← supply.named) (.ofString name)
    pure (v, supply)
  | none =>
    match supply.left with
    | [] => none
    | v :: left => some (v, { supply with left := left })

/-- What is written for a directive, and the values that are left. -/
def Supply.directive? (supply : Supply) (d : Directive) : Option (List Char × Supply) := do
  let (width, supply) ← supply.amount? d.width
  let (precision, supply) ← supply.amount? d.precision
  let width := width.getD 0
  let has := d.flags.contains
  let style : Style :=
    ⟨has '-' || width < 0, has '+', has ' ', has '0', has '#', width.natAbs,
      precision.map Int.toNat⟩
  if maxWidth < max style.width (style.precision.getD 0) then none
  else if d.conversion = '%' then some (['%'], supply)
  else do
    let (v, supply) ← supply.take? d.key
    let written ← style.value? d.conversion v
    pure (written, supply)

/-- The text of a pattern. Values that are not named have to be used up. -/
def Supply.written? (supply : Supply) : List Piece → Option (List Char)
  | [] => if supply.left.isEmpty then some [] else none
  | .literal c :: rest => (supply.written? rest).map (c :: ·)
  | .directive d :: rest => do
    let (written, supply) ← supply.directive? d
    let more ← supply.written? rest
    pure (written ++ more)

/-- The values of a call: given in order, or by name. -/
def supply (args : Arguments) : Except EvalError Supply :=
  match args.positional, args.entries with
  | positional, [] => .ok ⟨positional, none⟩
  | [], entries => .ok ⟨[], some entries⟩
  | _, _ => .error .badArguments

/-- Puts the arguments into the pattern that a value is. -/
def apply (v : Value) (args : Arguments) : Except EvalError Value := do
  let pattern := (← (Argument.value v).string).toList
  let supply ← supply args
  match (pieces? (pattern.length + 1) pattern).bind supply.written? with
  | some s => pure (.ofChars s)
  | none => .error .badArguments

end LiveMarkup.Expr.Format
