import ParserAlgebra.Text.Basic
import ParserAlgebra.Unicode.Blank
import ParserAlgebra.Unicode.Decimal

/-!
# Reading numbers

The text of a number may stand between blanks, may use the digits of any script, and may have single
underscores between digits. `readInt?` reads integers, `Decimal.read?` reads numbers with a decimal
point or an exponent; both are exact.
-/

namespace ParserAlgebra

/-- The number `± digits · 10 ^ exponent`. The sign is kept for a zero too. -/
structure Decimal where
  negative : Bool
  digits : Nat
  exponent : Int
deriving DecidableEq

namespace Decimal

/-! ## Parts of a number -/

def trim (t : Text) : Text :=
  ((t.dropWhile Unicode.isBlank).reverse.dropWhile Unicode.isBlank).reverse

/-- Whether the number is negative by its sign, and what follows the sign. -/
def splitSign : Text → Bool × Text
  | '-' :: t => (true, t)
  | '+' :: t => (false, t)
  | t => (false, t)

/-- The values of the digits that follow a digit, and the text behind them. An underscore counts as
part of the number if a digit follows it. -/
def moreDigits : Text → List Nat × Text
  | [] => ([], [])
  | '_' :: c :: t =>
    match Unicode.decimalValue? c with
    | some d =>
      let (ds, rest) := moreDigits t
      (d :: ds, rest)
    | none => ([], '_' :: c :: t)
  | c :: t =>
    match Unicode.decimalValue? c with
    | some d =>
      let (ds, rest) := moreDigits t
      (d :: ds, rest)
    | none => ([], c :: t)

/-- The values of the digits at the beginning, and the text behind them. -/
def splitDigits : Text → List Nat × Text
  | [] => ([], [])
  | c :: t =>
    match Unicode.decimalValue? c with
    | some d =>
      let (ds, rest) := moreDigits t
      (d :: ds, rest)
    | none => ([], c :: t)

def ofDigits (ds : List Nat) : Nat :=
  ds.foldl (fun n d => 10 * n + d) 0

def signed (negative : Bool) (n : Nat) : Int :=
  if negative then -n else n

/-! ## Whole numbers -/

/-- A sign or none, and digits: whether the sign is a minus, and the values of the digits. -/
def signedDigits? (t : Text) : Option (Bool × List Nat) :=
  let (negative, t) := splitSign t
  match splitDigits t with
  | ([], _) => none
  | (ds, []) => some (negative, ds)
  | (_, _ :: _) => none

/-- The integer that a text writes, if it has at most `limit` digits, zeros in front included. Without
a limit it may have any number of digits. -/
def readInt? (limit : Option Nat) (t : Text) : Option Int :=
  match signedDigits? (trim t) with
  | some (negative, ds) =>
    if limit.all (ds.length ≤ ·) then some (signed negative (ofDigits ds)) else none
  | none => none

/-! ## Numbers with a point or an exponent -/

/-- The exponent that is the rest of a number: nothing for 0, or a letter and an integer of any
length. -/
def readExponent? : Text → Option Int
  | [] => some 0
  | c :: t =>
    if c = 'e' ∨ c = 'E' then
      (signedDigits? t).map fun (negative, ds) => signed negative (ofDigits ds)
    else none

/-- The digits behind a decimal point, and the text behind them. -/
def splitFraction : Text → List Nat × Text
  | '.' :: t => splitDigits t
  | t => ([], t)

/-- The decimal number that a text writes. A digit must stand before or behind the point. -/
def read? (t : Text) : Option Decimal :=
  let (negative, t) := splitSign (trim t)
  let (whole, t) := splitDigits t
  let (fraction, t) := splitFraction t
  if whole.isEmpty && fraction.isEmpty then none
  else
    (readExponent? t).map fun exponent =>
      { negative, digits := ofDigits (whole ++ fraction), exponent := exponent - fraction.length }

/-! ## Rounding to floating point -/

/-- The greatest number of digits before the point of a number below infinity is 309, and the number
of zeros behind the point of a number above zero is at most 323. Beyond these bounds the nearest
floating-point number is known without computing a power. -/
def magnitude (d : Decimal) : Float :=
  let length : Int := (Nat.toDigits 10 d.digits).length
  if d.digits = 0 ∨ d.exponent + length < -330 then 0
  else if d.exponent + length > 310 then 1 / 0
  else Float.ofScientific d.digits (d.exponent < 0) d.exponent.natAbs

/-- The floating-point number nearest to a decimal number, infinity beyond the largest. -/
def toFloat (d : Decimal) : Float :=
  if d.negative then -d.magnitude else d.magnitude

end Decimal

end ParserAlgebra
