import LiveMarkup.Decimal.Read
import LiveMarkup.Decimal.Shortest

/-!
A float with a given number of digits: with a fixed number of decimal places, or as one digit before
the point and an exponent. The float is rounded once, to an even digit where two are equally near.
-/

namespace LiveMarkup.Decimal

/-- How often `10^e` goes into the number, rounded. -/
def Binary.countOf (b : Binary) (e : Int) : Nat :=
  roundHalfEven (scaledBinary b.mantissa e b.exponent) (scaledDecimal 1 e b.exponent)

/-- The digits of a number, at least `count` of them. -/
def digitsOf (count n : Nat) : List Char :=
  let digits := Nat.toDigits 10 n
  List.replicate (count - digits.length) '0' ++ digits

/-- Digits with a point before the last `places` of them; a point at the end is kept if that is
asked for. -/
def pointed (keepPoint : Bool) (places n : Nat) : List Char :=
  let digits := digitsOf (places + 1) n
  let (whole, fraction) := digits.splitAt (digits.length - places)
  whole ++ (if fraction.isEmpty && !keepPoint then [] else '.' :: fraction)

/-- More digits than any float has; only zeros follow them. -/
def maxPlaces : Nat := 1100

/-- The number with `places` digits after the point. -/
def Binary.fixed (b : Binary) (keepPoint : Bool) (places : Nat) : List Char :=
  let exact := min places maxPlaces
  pointed keepPoint exact (b.countOf (-exact)) ++ List.replicate (places - exact) '0'

/-- The number with one digit before the point and `places` after it, and the power of ten that the
first digit stands for. -/
def Binary.scientific (b : Binary) (keepPoint : Bool) (places : Nat) : List Char × Int :=
  let exact := min places maxPlaces
  let power := if b.mantissa = 0 then 0 else b.magnitude - 1
  let count := b.countOf (power - exact)
  let (count, power) :=
    if count = Nat.pow 10 (exact + 1) then (Nat.pow 10 exact, power + 1) else (count, power)
  (pointed keepPoint exact count ++ List.replicate (places - exact) '0', power)

/-- An exponent with its sign and two digits at least. -/
def exponentText (power : Int) : List Char :=
  'e' :: (if power < 0 then '-' else '+') :: digitsOf 2 power.natAbs

/-- Digits without the zeros that end what stands after the point. -/
def withoutZeros (s : List Char) : List Char :=
  if s.contains '.' then
    let kept := (s.reverse.dropWhile (· = '0')).reverse
    if kept.getLast? = some '.' then kept.dropLast else kept
  else s

/-- The number with `count` digits in all, at least one, of which zeros at the end are left out
unless they are asked for. It has an exponent if it is less than `0.0001` or if more than `count`
digits stand before the point. -/
def Binary.general (b : Binary) (keepZeros : Bool) (count : Nat) : List Char :=
  let shortened := fun digits => if keepZeros then digits else withoutZeros digits
  let (digits, power) := b.scientific keepZeros (count - 1)
  if -4 ≤ power ∧ power < count then shortened (b.fixed keepZeros (count - 1 - power).toNat)
  else shortened digits ++ exponentText power

end LiveMarkup.Decimal
