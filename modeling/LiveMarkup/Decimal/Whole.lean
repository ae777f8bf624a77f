import LiveMarkup.Decimal.Shortest

/-!
Floats as exact numbers. A finite float is a whole number of some power of two, so that it is compared
with an integer, and divided with a remainder, without rounding.
-/

namespace LiveMarkup.Decimal

/-! ### Integers beside floats -/

/-- The bits of a finite float with its sign: the number `mantissa · 2^exponent`. -/
structure Signed where
  mantissa : Int
  exponent : Int
  deriving DecidableEq, Repr

def Signed.ofFloat (x : Float) : Signed :=
  let b := Binary.ofBits x.toBits
  ⟨if x < 0.0 then -(b.mantissa : Int) else b.mantissa, b.exponent⟩

/-- The integer next to a finite float on the side of zero. -/
def whole (x : Float) : Int :=
  let s := Signed.ofFloat x
  Int.tdiv (s.mantissa * Int.pow 2 s.exponent.toNat) (Int.pow 2 (-s.exponent).toNat)

/-- The order of an integer and a float that is a number. -/
def compareToFloat (n : Int) (x : Float) : Ordering :=
  if x.isInf then (if x > 0.0 then .lt else .gt)
  else
    let s := Signed.ofFloat x
    compare (n * Int.pow 2 (-s.exponent).toNat) (s.mantissa * Int.pow 2 s.exponent.toNat)

/-- The integer part of a float as a number between two bounds; what is no number counts as
zero. -/
def clampedWhole (low high : Int) (x : Float) : Int :=
  if x.isNaN then 0
  else if x.isInf then (if x > 0.0 then high else low)
  else min high (max low (whole x))

/-! ### Division

The remainder is exact, has the sign of the dividend and is smaller than the divisor; the quotient is
the one that would leave a remainder which is not negative. -/

/-- What is left of `x` after taking away `y` as often as it fits, with the sign of `x`. -/
def remainder (x y : Float) : Float :=
  if x.isNaN || y.isNaN || x.isInf || y == 0.0 then 0.0 / 0.0
  else if y.isInf then x
  else
    let a := Binary.ofBits x.toBits
    let b := Binary.ofBits y.toBits
    let e := min a.exponent b.exponent
    let rest :=
      a.mantissa * Nat.pow 2 (a.exponent - e).toNat % (b.mantissa * Nat.pow 2 (b.exponent - e).toNat)
    let size := (Float.ofScientific rest false 0).scaleB e
    if x.toBits ≥ 0x8000000000000000 then -size else size

def truncate (x : Float) : Float :=
  if x < 0.0 then x.ceil else x.floor

/-- How often `y` goes into `x` so that what is left is not negative. -/
def quotient (x y : Float) : Float :=
  let q := truncate (x / y)
  if remainder x y < 0.0 then (if y > 0.0 then q - 1.0 else q + 1.0) else q

end LiveMarkup.Decimal
