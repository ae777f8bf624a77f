/-!
The shortest decimal that reads back as a given float. A finite float is `m · 2^q`; the reals that
round to it form an interval around it, which holds its ends when `m` is even. For one digit, two
digits and so on the two decimals of that length next to the float are tried, and the first one
inside wins.
-/

namespace LiveMarkup.Decimal

/-- The number `digits · 10^exponent`. -/
structure Numeral where
  digits : Nat
  exponent : Int
  deriving DecidableEq, Repr

/-- The number `mantissa · 2^exponent`. -/
structure Binary where
  mantissa : Nat
  exponent : Int
  deriving DecidableEq, Repr

/-- The size of a finite float. -/
def Binary.ofBits (bits : UInt64) : Binary :=
  let fraction := bits.toNat % Nat.pow 2 52
  let power := bits.toNat / Nat.pow 2 52 % Nat.pow 2 11
  if power = 0 then ⟨fraction, -1074⟩ else ⟨Nat.pow 2 52 + fraction, Int.ofNat power - 1075⟩

/-- `digits · 10^e` over a common denominator with `bound · 2^q`. -/
def scaledDecimal (digits : Nat) (e q : Int) : Nat :=
  digits * Nat.pow 10 e.toNat * Nat.pow 2 (-q).toNat

def scaledBinary (bound : Nat) (e q : Int) : Nat :=
  bound * Nat.pow 2 q.toNat * Nat.pow 10 (-e).toNat

/-- Whether `digits · 10^e` rounds to `b`. The interval reaches half a unit up, and half a unit
down, or a quarter where the float below lies closer. -/
def Binary.roundsTo (b : Binary) (digits : Nat) (e : Int) : Bool :=
  let q := b.exponent - 2
  let low :=
    if b.mantissa = Nat.pow 2 52 ∧ b.exponent ≠ -1074 then 4 * b.mantissa - 1 else 4 * b.mantissa - 2
  let value := scaledDecimal digits e q
  let lowest := scaledBinary low e q
  let highest := scaledBinary (4 * b.mantissa + 2) e q
  if b.mantissa % 2 = 0 then lowest ≤ value && value ≤ highest
  else lowest < value && value < highest

/-- The number of digits before the decimal point, negative for zeros after it. -/
def Binary.magnitude (b : Binary) : Int :=
  let shift : Nat := 400
  let scaled := 
    b.mantissa * Nat.pow 2 b.exponent.toNat * Nat.pow 10 shift / Nat.pow 2 (-b.exponent).toNat
  ((Nat.toDigits 10 scaled).length : Int) - shift

/-- Which of two decimals that lie equally near is taken. -/
inductive Tie where
  | up
  | toEven
  deriving DecidableEq, Repr

/-- Whether `below + part / unit`, where the part is less than a unit, is rounded down. -/
def Tie.goesDown (tie : Tie) (below part unit : Nat) : Bool :=
  2 * part < unit || 2 * part = unit && tie = .toEven && below % 2 = 0

/-- The decimal of `count` digits nearest to `b` among its two neighbours that round to it. -/
def Binary.onGrid? (b : Binary) (tie : Tie) (count : Nat) : Option Numeral :=
  let e := b.magnitude - count
  let value := scaledBinary b.mantissa e b.exponent
  let unit := scaledDecimal 1 e b.exponent
  let below := value / unit
  let nearest :=
    if tie.goesDown below (value - below * unit) unit then [below, below + 1]
    else [below + 1, below]
  (nearest.find? fun digits => b.roundsTo digits e).map fun digits => ⟨digits, e⟩

/-- Seventeen digits always suffice. -/
def Binary.shortest (b : Binary) (tie : Tie) : Numeral :=
  ((List.range 17).findSome? fun count => b.onGrid? tie (count + 1)).getD ⟨0, 0⟩

/-- The shortest decimal for the size of a finite float. -/
def shortest (tie : Tie) (x : Float) : Numeral :=
  let b := Binary.ofBits x.toBits
  if b.mantissa = 0 then ⟨0, 0⟩ else b.shortest tie

end LiveMarkup.Decimal
