import LiveMarkup.Text.Chars

/-!
Reading numbers. An integer is an optional sign and digits; a float may also have a fraction, an
exponent or the name of a value that no digits write. A float is the one nearest to a fraction, an even
one where two are equally near: the last bit of the float stands for a power of two, and the fraction is
counted in units of that power and rounded once.
-/

namespace LiveMarkup.Decimal

/-- `num / den` in units of `2^power`, as a fraction again. -/
def inUnits (num den : Nat) (power : Int) : Nat × Nat :=
  (num * Nat.pow 2 (-power).toNat, den * Nat.pow 2 power.toNat)

/-- The power of two that the last of the 53 bits stands for, or the last one that floats have. -/
def lastPower (num den : Nat) : Int :=
  let power := (num.log2 : Int) - den.log2 - 52
  let (n, d) := inUnits num den power
  max (-1074) (if n / d < Nat.pow 2 52 then power - 1 else power)

def roundHalfEven (n d : Nat) : Nat :=
  let whole := n / d
  let twice := 2 * (n % d)
  if d < twice ∨ twice = d ∧ whole % 2 = 1 then whole + 1 else whole

def nearest (num den : Nat) : Float :=
  let power := lastPower num den
  let (n, d) := inUnits num den power
  (Float.ofNat (roundHalfEven n d)).scaleB power

def digitValue (c : Char) : Nat :=
  c.toNat - '0'.toNat

def natOfDigits (digits : List Char) : Nat :=
  digits.foldl (fun n c => 10 * n + digitValue c) 0

/-- The digits at the front and the rest. -/
def spanDigits (s : List Char) : List Char × List Char :=
  (s.takeWhile Char.isDigit, s.dropWhile Char.isDigit)

def splitSign : List Char → Bool × List Char
  | '-' :: rest => (true, rest)
  | '+' :: rest => (false, rest)
  | s => (false, s)

/-- A whole text as an integer. -/
def readInt? (s : List Char) : Option Int :=
  let (negative, digits) := splitSign s
  if digits.isEmpty || !digits.all Char.isDigit then none
  else some (if negative then -(natOfDigits digits : Int) else natOfDigits digits)

/-- The float nearest to `digits · 10^exponent`. Powers far outside the range of floats are cut off
before they are computed. -/
def nearestFloat (digits : Nat) (exponent : Int) : Float :=
  if digits = 0 then 0.0
  else
    let size := ((Nat.toDigits 10 digits).length : Int) + exponent
    if size > 400 then 1.0 / 0.0
    else if size < -400 then 0.0
    else nearest (digits * Nat.pow 10 exponent.toNat) (Nat.pow 10 (-exponent).toNat)

def readExponent? : List Char → Option Int
  | [] => some 0
  | c :: rest => if c = 'e' ∨ c = 'E' then readInt? rest else none

/-- Digits with an optional fraction and exponent; one digit at least stands beside the point. -/
def readMagnitude? (s : List Char) : Option Float :=
  let (whole, rest) := spanDigits s
  let (fraction, rest) := match rest with
    | '.' :: rest => spanDigits rest
    | rest => ([], rest)
  if whole.isEmpty && fraction.isEmpty then none
  else do
    let power ← readExponent? rest
    pure (nearestFloat (natOfDigits (whole ++ fraction)) (power - fraction.length))

/-- A whole text as a float, the names of infinity and of the undefined value among them. -/
def readFloat? (s : List Char) : Option Float :=
  let (negative, body) := splitSign s
  let name := Text.asciiLower (String.ofList body)
  let size :=
    if name = "inf" ∨ name = "infinity" then some (1.0 / 0.0)
    else if name = "nan" then some (0.0 / 0.0)
    else readMagnitude? body
  size.map fun x => if negative then -x else x

end LiveMarkup.Decimal
