import DataPlacement.Arithmetic

namespace DataPlacement.Text

/-- The size of a finite binary fraction: `mantissa * 2 ^ exponent`. The fraction below it may be
half as far away as the one above it. -/
structure Magnitude where
  mantissa : Nat
  exponent : Int
  narrowBelow : Bool
  deriving DecidableEq

/-- A decimal number: `digits * 10 ^ exponent`. -/
structure Decimal where
  digits : Nat
  exponent : Int
  deriving DecidableEq

/-- Whole numbers with the ratio `n * 2 ^ two * 10 ^ ten`. -/
def ratio (n : Nat) (two ten : Int) : Nat × Nat :=
  (n * bitRange two.toNat * Nat.pow 10 ten.toNat, bitRange (-two).toNat * Nat.pow 10 (-ten).toNat)

namespace Magnitude

/-- The magnitude behind the bits of a fraction: 11 bits of exponent above 52 of mantissa. -/
def ofBits (bits : Nat) : Magnitude :=
  let exponent := bitField 52 11 bits
  let mantissa := lowBits 52 bits
  if exponent = 0 then ⟨mantissa, -1074, false⟩
  else ⟨bitRange 52 + mantissa, exponent - 1075, mantissa = 0 && 1 < exponent⟩

/-- The decimal number lies in the interval of the fraction. The ends of the interval are halfway
to the neighbours and belong to it if the mantissa is even. -/
def contains (x : Magnitude) (d : Decimal) : Bool :=
  let (n, unit) := ratio d.digits (2 - x.exponent) d.exponent
  let low := (4 * x.mantissa - if x.narrowBelow then 1 else 2) * unit
  let high := (4 * x.mantissa + 2) * unit
  (low < n && n < high) || (x.mantissa % 2 = 0 && (n = low || n = high))

/-- The decimal number in the interval with a given exponent, if there is one. The nearest one is
taken, and of two that are as near the one with even digits. -/
def within? (x : Magnitude) (exponent : Int) : Option Decimal :=
  let (n, unit) := ratio x.mantissa x.exponent (-exponent)
  let below : Decimal := ⟨n / unit, exponent⟩
  let above : Decimal := ⟨n / unit + 1, exponent⟩
  let twice := 2 * (n % unit)
  let nearer := if twice < unit ∨ (twice = unit ∧ below.digits % 2 = 0) then below else above
  if x.contains nearer then some nearer
  else if x.contains below then some below
  else if x.contains above then some above
  else none

/-- How many digits the number has in front of its point; below a tenth, less the zeros that
follow the point. -/
def scale (x : Magnitude) : Int :=
  let (n, unit) := ratio x.mantissa x.exponent 350
  (Nat.toDigits 10 (n / unit)).length - 350

/-- The number in the interval with the fewest digits, tried from `count` digits on. -/
def shortestFrom (x : Magnitude) (count : Nat) : (tries : Nat) → Option Decimal
  | 0 => none
  | tries + 1 =>
    match x.within? (x.scale - count) with
    | some d => some d
    | none => shortestFrom x (count + 1) tries

/-- The number in the interval with the fewest digits. Without a digit below the scale there is
still the power of ten at its upper end, and seventeen digits are always enough. -/
def shortest (x : Magnitude) : Decimal := (x.shortestFrom 0 18).getD ⟨0, 0⟩

end Magnitude

/-- Positional text for numbers from 10^-5 up to 10^16, with one digit at least behind the point;
for others one digit in front of the point and an exponent with its sign. -/
def Decimal.text (d : Decimal) : String :=
  let digits := Nat.toDigits 10 d.digits
  let point : Int := digits.length + d.exponent
  let zeros (n : Int) : List Char := List.replicate n.toNat '0'
  String.ofList <|
    if 0 ≤ d.exponent ∧ point ≤ 16 then digits ++ zeros d.exponent ++ ['.', '0']
    else if 0 < point ∧ point ≤ 16 then
      digits.take point.toNat ++ '.' :: digits.drop point.toNat
    else if -5 < point ∧ point ≤ 0 then '0' :: '.' :: (zeros (-point) ++ digits)
    else
      let rest := digits.drop 1
      let mark := if 0 < point then "e+" else "e"
      digits.take 1 ++ (if rest.isEmpty then [] else '.' :: rest) ++
        (mark ++ toString (point - 1)).toList

/-- The text of a finite fraction. The fraction stands for all numbers that are rounded to it, and
the text is one of those with the fewest digits. -/
def fraction (x : Float) : String :=
  let bits := x.toBits.toNat
  let size := Magnitude.ofBits bits
  let sign := if bitField 63 1 bits = 1 then "-" else ""
  sign ++ if size.mantissa = 0 then "0.0" else size.shortest.text

end DataPlacement.Text
