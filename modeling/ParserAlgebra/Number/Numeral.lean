import ParserAlgebra.Alphabet
import ParserAlgebra.Unicode.Decimal

/-!
# Numerals

A numeral is a sign or none, digits with a decimal point among them or not, and an exponent or none:
`[+-]? (D+ ('.' D*)? | '.' D+) ([eE] [+-]? D+)?`, where `D` are the decimal digits of all scripts.
The functions measure the longest such text at the beginning of a text.
-/

namespace ParserAlgebra.Numeral

/-- The length of the sign at the beginning, 0 if there is none. -/
def signLength : Text → Nat
  | c :: _ => if Alphabet.signs.contains c then 1 else 0
  | [] => 0

def digitsLength (t : Text) : Nat :=
  (t.takeWhile Unicode.isDecimal).length

/-- The length of the digits and the decimal point at the beginning. A point needs a digit on one of
its sides. -/
def mantissaLength? (t : Text) : Option Nat :=
  let whole := digitsLength t
  match t.drop whole with
  | '.' :: u =>
    let fraction := digitsLength u
    if whole = 0 ∧ fraction = 0 then none else some (whole + 1 + fraction)
  | _ => if whole = 0 then none else some whole

/-- The length of the exponent at the beginning, 0 if its digits are missing. -/
def exponentLength : Text → Nat
  | c :: t =>
    let sign := signLength t
    let digits := digitsLength (t.drop sign)
    if Alphabet.exponentMarks.contains c ∧ digits ≠ 0 then 1 + sign + digits else 0
  | [] => 0

/-- The length of the longest numeral at the beginning, if there is one. -/
def length? (t : Text) : Option Nat :=
  let sign := signLength t
  (mantissaLength? (t.drop sign)).map fun mantissa =>
    sign + mantissa + exponentLength (t.drop (sign + mantissa))

end ParserAlgebra.Numeral
