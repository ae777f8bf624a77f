import LiveMarkup.Decimal.Shortest

/-!
Writing a float. A `Layout` says which sizes are written with a decimal point alone, how an
exponent looks and which of two equally near decimals is taken; the digits are the shortest ones in
every layout.
-/

namespace LiveMarkup.Decimal

structure Layout where
  /-- Whether a number whose leading digit stands for this power of ten has no exponent. -/
  positional : Int → Bool
  /-- Whether a positive exponent carries its sign. -/
  plusSign : Bool
  /-- Which of two shortest decimals is written. -/
  tie : Tie

/-- Without an exponent at any size. -/
def Layout.plain : Layout :=
  ⟨fun _ => true, false, .up⟩

/-- Between `0.0001` and `10^16` without an exponent. -/
def Layout.listed : Layout :=
  ⟨fun power => -4 ≤ power && power < 16, false, .up⟩

/-- Between `0.00001` and `10^16` without an exponent, whose sign is always written. A tie goes to
the even digit. -/
def Layout.json : Layout :=
  ⟨fun power => -5 ≤ power && power < 16, true, .toEven⟩

/-- `digits` with the decimal point after the first `point` of them; at least one digit stands on
each side of it. -/
def withPoint (digits : List Char) (point : Int) : List Char :=
  if point ≤ 0 then
    '0' :: '.' :: List.replicate (-point).toNat '0' ++ digits
  else
    let whole := digits.take point.toNat
    let rest := digits.drop point.toNat
    whole ++ List.replicate (point.toNat - whole.length) '0' ++
      '.' :: (if rest.isEmpty then ['0'] else rest)

def withExponent (layout : Layout) (digits : List Char) (power : Int) : List Char :=
  let sign := if power < 0 then ['-'] else if layout.plusSign then ['+'] else []
  digits.take 1 ++ (if digits.length ≤ 1 then [] else '.' :: digits.drop 1) ++
    'e' :: sign ++ Nat.toDigits 10 power.natAbs

def dropTrailingZeros (digits : List Char) : List Char :=
  (digits.reverse.dropWhile (· = '0')).reverse

def Layout.write (layout : Layout) (d : Numeral) : List Char :=
  if d.digits = 0 then ['0', '.', '0']
  else
    let all := Nat.toDigits 10 d.digits
    let point := (all.length : Int) + d.exponent
    let digits := dropTrailingZeros all
    if layout.positional (point - 1) then withPoint digits point
    else withExponent layout digits (point - 1)

/-- The text of a float; the sign of a zero is kept. -/
def Layout.text (layout : Layout) (x : Float) : String :=
  if x.isNaN then "NaN"
  else
    let sign := if x.toBits ≥ 0x8000000000000000 then ['-'] else []
    if x.isInf then String.ofList (sign ++ "inf".toList)
    else String.ofList (sign ++ layout.write (shortest layout.tie x))

end LiveMarkup.Decimal
