import ParserAlgebra.Number.Decimal
import ParserAlgebra.Number.Remainder

/-!
# The shortest decimal

A floating-point number is written with the fewest digits from which it can be read back, and among
these with the digits nearest to it. The two neighbours of a number on the grid of decimals with so
many digits decide: if any decimal of the grid reads back, then one of the two does.
-/

namespace ParserAlgebra.Number

/-- The whole part of `mantissa · 2 ^ exponent / 10 ^ k`, and whether the rest is more than a half. -/
def scaleDown (b : Binary) (k : Int) : Nat × Bool :=
  let num := (b.mantissa <<< b.exponent.toNat) * Nat.pow 10 (-k).toNat
  let den := (1 <<< (-b.exponent).toNat) * Nat.pow 10 k.toNat
  (num / den, den < 2 * (num % den))

/-- The neighbour of `x` on the grid of the multiples of `10 ^ k` that reads back as `x`, the nearer
one if both do. -/
def neighbour? (x : Float) (k : Int) : Option Nat :=
  let (below, up) := scaleDown (Binary.ofFloat x) k
  let candidates := if up then [below + 1, below] else [below, below + 1]
  candidates.find? fun digits =>
    Decimal.toFloat { negative := false, digits, exponent := k } == x

/-- The number of digits before the point of a positive number, 0 or less for one below 1. -/
def digitsBeforePoint (x : Float) : Int :=
  let whole := (scaleDown (Binary.ofFloat x) 0).1
  if whole = 0 then
    let shifted := (scaleDown (Binary.ofFloat x) (-330)).1
    ((Nat.toDigits 10 shifted).length : Int) - 330
  else (Nat.toDigits 10 whole).length

/-- The shortest decimal for a positive number, as its digits and the exponent of the last one. -/
def shortest (x : Float) : Nat × Int :=
  let before := digitsBeforePoint x
  let found := (List.range' 1 17).findSome? fun count : Nat =>
    let k := before - count
    (neighbour? x k).map (·, k)
  found.getD (0, 0)

/-- The digits without zeros at the end, which pass into the exponent, if there are at most `limit` of
them. -/
def dropZeros : (limit : Nat) → Nat × Int → Nat × Int
  | 0, d => d
  | limit + 1, (digits, k) =>
    if digits % 10 = 0 then dropZeros limit (digits / 10, k + 1) else (digits, k)

/-- Digits with a point in them where `before` digits stand before it. Zeros fill the gaps, and one
digit at least stands on each side. -/
def positional (digits : Text) (before : Int) : Text :=
  if before ≤ 0 then "0." ++ List.replicate before.natAbs '0' ++ digits
  else
    let n := before.toNat
    digits.take n ++ List.replicate (n - digits.length) '0' ++ "."
      ++ (if digits.length ≤ n then ['0'] else digits.drop n)

/-- Digits with a point behind the first, if there are more, and a power of ten. -/
def scientific (digits : Text) (before : Int) : Text :=
  let exponent := before - 1
  digits.take 1 ++ (if digits.length ≤ 1 then [] else '.' :: digits.drop 1) ++ "e"
    ++ (if exponent < 0 then "-" else "+")
    ++ Text.padLeft '0' 2 (Text.ofNat exponent.natAbs)

/-- A positive number in the shortest writing: positional from `10 ^ -4` up to `10 ^ 16`. -/
def writePositive (x : Float) : Text :=
  let (n, k) := dropZeros 400 (shortest x)
  let digits := Text.ofNat n
  let before := k + digits.length
  if -4 < before ∧ before ≤ 16 then positional digits before else scientific digits before

/-- A floating-point number in the shortest writing. -/
def write (x : Float) : Text :=
  if x.isNaN then "nan"
  else
    let negative := x.toBits.toNat.testBit 63
    let size : Text :=
      if x.isInf then "inf" else if x == 0 then "0.0" else writePositive x.abs
    (if negative then "-" else "") ++ size

end ParserAlgebra.Number
