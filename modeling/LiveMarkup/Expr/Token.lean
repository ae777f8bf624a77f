import LiveMarkup.Decimal.Read
import LiveMarkup.Markup.Reference
import LiveMarkup.Expr.Value

/-!
The tokens of an expression. Names are made of ASCII letters, digits and underscores; a dot after
the digits of a number belongs to the number unless a name follows it.
-/

namespace LiveMarkup.Expr

inductive Token where
  | name (s : String)
  | number (n : Nat)
  | float (x : Float)
  | text (s : String)
  | symbol (s : String)
  /-- What is no token, and all that stands after it. -/
  | broken

def isAsciiBlank (c : Char) : Bool :=
  c = ' ' || c = '\t' || c = '\n' || c = '\x0c' || c = '\r'

def isNameStart (c : Char) : Bool :=
  c.isAlpha || c = '_'

def isNamePart (c : Char) : Bool :=
  c.isAlphanum || c = '_'

/-- What a number has shown so far. -/
inductive NumberState where
  | whole
  | fraction
  | exponent
  | signedExponent
  deriving DecidableEq

/-- Whether a text begins with an exponent. -/
def startsExponent : List Char → Bool
  | [] => false
  | mark :: rest =>
    let digits := if rest.head?.any fun c => c = '+' || c = '-' then rest.drop 1 else rest
    (mark = 'e' || mark = 'E') && digits.head?.any Char.isDigit

/-- Whether a dot before a text belongs to the number before the dot. -/
def dotIsFraction (s : List Char) : Bool :=
  !s.head?.any isNameStart || startsExponent s

/-- What a number becomes by its next character, which `rest` follows. -/
def NumberState.next? (state : NumberState) (c : Char) (rest : List Char) : Option NumberState :=
  match state with
  | whole =>
    if c = '.' then (if dotIsFraction rest then some fraction else none)
    else if c = 'e' ∨ c = 'E' then some exponent
    else if c.isDigit ∨ c = '_' then some whole
    else none
  | fraction =>
    if c = 'e' ∨ c = 'E' then some exponent
    else if c.isDigit ∨ c = '_' then some fraction
    else none
  | exponent =>
    if c = '+' ∨ c = '-' ∨ c.isDigit then some signedExponent
    else if c = '_' then some exponent
    else none
  | signedExponent => if c.isDigit ∨ c = '_' then some signedExponent else none

/-- The characters that continue a number, and what the number has become. -/
def scanNumber (state : NumberState) : List Char → List Char × NumberState
  | [] => ([], state)
  | c :: rest =>
    match state.next? c rest with
    | none => ([], state)
    | some state =>
      let (more, final) := scanNumber state rest
      (c :: more, final)

/-- The largest integer that can be written. -/
def maxNumber : Nat := Nat.pow 2 128 - 1

/-- A number from its characters; an underscore may stand between them but not at the end. -/
def numberToken? (s : List Char) (isFloat : Bool) : Option Token :=
  let digits := s.filter (· ≠ '_')
  if s.getLast? = some '_' then none
  else if isFloat then (Decimal.readFloat? digits).map .float
  else
    let n := Decimal.natOfDigits digits
    if n ≤ maxNumber then some (.number n) else none

def baseOfMark? (c : Char) : Option Nat :=
  if c = 'x' ∨ c = 'X' then some 16
  else if c = 'o' ∨ c = 'O' then some 8
  else if c = 'b' ∨ c = 'B' then some 2
  else none

def isBaseDigit (base : Nat) (c : Char) : Bool :=
  c.isDigit || c = '_' || (base = 16 && (Markup.digitOfBase? 16 c).isSome)

def baseNumberToken? (base : Nat) (s : List Char) : Option Token :=
  if s.getLast? = some '_' then none
  else
    match Markup.numberOfBase? base (s.filter (· ≠ '_')) with
    | some n => if n ≤ maxNumber then some (.number n) else none
    | none => none

/-- The token of a number at the front of a text, and the number of its characters. -/
def number? (s : List Char) : Option (Token × Nat) :=
  match s with
  | '0' :: mark :: rest =>
    match baseOfMark? mark with
    | some base =>
      let digits := rest.takeWhile (isBaseDigit base)
      (baseNumberToken? base digits).map fun token => (token, digits.length + 2)
    | none => decimal s
  | s => decimal s
where
  decimal (s : List Char) : Option (Token × Nat) :=
    let (characters, state) := scanNumber .whole s
    (numberToken? characters (state ≠ .whole)).map fun token => (token, characters.length)

/-- The characters up to the closing quote; a backslash keeps the next character inside. -/
def scanText (quote : Char) (escaped : Bool) : List Char → Option (List Char)
  | [] => none
  | c :: rest =>
    if !escaped ∧ c = quote then some []
    else (scanText quote (!escaped && c = '\\') rest).map (c :: ·)

/-- Half of a character outside the basic plane. -/
def isSurrogate (unit : Nat) : Bool :=
  0xD800 ≤ unit && unit < 0xE000

def pairOfSurrogates? (high low : Nat) : Option Char :=
  if high < 0xDC00 ∧ 0xDC00 ≤ low then
    some (Char.ofNat (0x10000 + (high - 0xD800) * 0x400 + (low - 0xDC00)))
  else none

/-- The number of a character code; a plus sign may stand before its digits. -/
def codeOf? (s : List Char) : Option Nat :=
  match s with
  | '+' :: digits => Markup.numberOfBase? 16 digits
  | digits => Markup.numberOfBase? 16 digits

/-- Reads the escapes in a text. `pending` is the first half of a character written in two halves.
-/
def unescape? (pending : Option Nat) : List Char → Option (List Char)
  | [] => if pending.isNone then some [] else none
  | '\\' :: 'u' :: a :: b :: c :: d :: rest =>
    (codeOf? [a, b, c, d]).bind fun unit =>
      match pending, isSurrogate unit with
      | none, false => (unescape? none rest).map (Char.ofNat unit :: ·)
      | none, true => unescape? (some unit) rest
      | some high, true =>
        (pairOfSurrogates? high unit).bind fun c => (unescape? none rest).map (c :: ·)
      | some _, false => none
  | s =>
    if pending.isSome then none
    else
      match s with
      | '\\' :: 'x' :: a :: b :: rest =>
        (codeOf? [a, b]).bind fun code =>
          (unescape? none rest).map (Char.ofNat code :: ·)
      | '\\' :: c :: rest =>
        let keep := fun (c : Char) => (unescape? none rest).map (c :: ·)
        if c = 'u' ∨ c = 'x' then none
        else if c = 'n' then keep '\n'
        else if c = 't' then keep '\t'
        else if c = 'r' then keep '\r'
        else if c = 'b' then keep '\x08'
        else if c = 'f' then keep '\x0c'
        else if c = '"' ∨ c = '\'' ∨ c = '\\' ∨ c = '/' then keep c
        else if '0' ≤ c ∧ c ≤ '7' then octal 2 (c.toNat - '0'.toNat) rest
        else (unescape? none rest).map fun s => '\\' :: c :: s
      | c :: rest => if c = '\\' then none else (unescape? none rest).map (c :: ·)
      | [] => some []
where
  /-- At most `more` further digits of a character code, which fits one byte. -/
  octal (more code : Nat) : List Char → Option (List Char)
    | c :: rest =>
      if 0 < more ∧ '0' ≤ c ∧ c ≤ '7' then octal (more - 1) (code * 8 + (c.toNat - '0'.toNat)) rest
      else if code < 256 then (unescape? none (c :: rest)).map (Char.ofNat code :: ·)
      else none
    | [] => if code < 256 then some [Char.ofNat code] else none

def pairSymbols : List String :=
  ["//", "**", "==", "!=", ">=", "<="]

def singleSymbols : List Char :=
  "+-*/%.,:~|=><()[]\x7b\x7d".toList

/-- The token at the front of a text that begins with no blank, and the number of its characters. -/
def tokenAt? (s : List Char) : Option (Token × Nat) :=
  match s with
  | [] => none
  | c :: rest =>
    if pairSymbols.contains (String.ofList (s.take 2)) then
      some (.symbol (String.ofList (s.take 2)), 2)
    else if singleSymbols.contains c then some (.symbol (String.singleton c), 1)
    else if c = '"' ∨ c = '\'' then do
      let body ← scanText c false rest
      let s ← unescape? none body
      pure (.text (String.ofList s), body.length + 2)
    else if c.isDigit then number? s
    else if isNameStart c then
      let name := s.takeWhile isNamePart
      some (.name (String.ofList name), name.length)
    else none

/-- The tokens of an expression, up to the first part of it that is none. -/
def lex (s : List Char) : List Token :=
  match s with
  | [] => []
  | c :: rest =>
    if isAsciiBlank c then lex rest
    else
      match tokenAt? (c :: rest) with
      | some (token, length) => token :: lex (rest.drop (length - 1))
      | none => [.broken]
termination_by s.length

end LiveMarkup.Expr
