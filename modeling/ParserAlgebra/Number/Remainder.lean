/-!
# Remainders of floating-point numbers

The remainder of a division that rounds toward zero is exact: both numbers are whole multiples of a
power of two, and so is the remainder. The remainder with the sign of the divisor is made from it.
-/

namespace ParserAlgebra.Number

/-- The fields of a finite floating-point number: its size is `mantissa · 2 ^ exponent`. -/
structure Binary where
  mantissa : Nat
  exponent : Int

/-- The size of a finite floating-point number. -/
def Binary.ofFloat (x : Float) : Binary :=
  let bits := x.toBits.toNat
  let fraction : Nat := bits % (1 <<< 52)
  let scale : Nat := (bits >>> 52) % (1 <<< 11)
  if scale = 0 then ⟨fraction, -1074⟩ else ⟨fraction + (1 <<< 52), (scale : Int) - 1075⟩

/-- The mantissa with respect to an exponent that is not greater. -/
def Binary.scaled (b : Binary) (exponent : Int) : Nat :=
  b.mantissa <<< (b.exponent - exponent).toNat

/-- The size of `x` modulo the size of `y`, for finite numbers and `y` not zero. -/
def remainderSize (x y : Float) : Float :=
  let a := Binary.ofFloat x
  let b := Binary.ofFloat y
  let exponent := min a.exponent b.exponent
  (Float.ofNat (a.scaled exponent % b.scaled exponent)).scaleB exponent

/-- The remainder of `x / y` with the sign of `x`, for `y` not zero. -/
def truncatedRemainder (x y : Float) : Float :=
  if x.isNaN || y.isNaN || x.isInf then 0 / 0
  else if y.isInf then x
  else if x < 0 then -remainderSize x y
  else remainderSize x y

/-- The remainder of `x / y` with the sign of `y`, for `y` not zero. -/
def flooredRemainder (x y : Float) : Float :=
  let r := truncatedRemainder x y
  if r == 0 then (if y < 0 then -0.0 else 0.0)
  else if (y < 0) != (r < 0) then r + y
  else r

end ParserAlgebra.Number
