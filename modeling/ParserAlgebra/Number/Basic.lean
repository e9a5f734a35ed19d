import ParserAlgebra.Alphabet
import ParserAlgebra.Fault
import ParserAlgebra.Number.Decimal

/-!
# Numbers

The value of a numeral: an integer, or a floating-point number if the numeral has a decimal point or an
exponent.
-/

namespace ParserAlgebra

inductive Number where
  | int (n : Int)
  | float (x : Float)

namespace Number

/-- Whether a text has a decimal point or the letter of an exponent. -/
def isFractional (t : Text) : Bool :=
  t.any fun c => c == '.' || Alphabet.exponentMarks.contains c

/-- The value of the text of a numeral, where an integer may have at most `limit` digits. -/
def readWithin (limit : Option Nat) (t : Text) : Except Fault Number :=
  if isFractional t then
    match Decimal.read? t with
    | some d => .ok (.float d.toFloat)
    | none => .error .noNumeral
  else
    match Decimal.readInt? limit t with
    | some n => .ok (.int n)
    | none => .error .noNumeral

/-- The number of digits that an integer may have. -/
def maxDigits : Nat := 4300

def read (t : Text) : Except Fault Number :=
  readWithin (some maxDigits) t

/-- The floating-point number nearest to an integer. There is none for an integer that would be
rounded to infinity. -/
def ofInt (n : Int) : Except Fault Float :=
  let x := Decimal.toFloat { negative := n < 0, digits := n.natAbs, exponent := 0 }
  if x.isInf then .error .tooLarge else .ok x

end Number

end ParserAlgebra
