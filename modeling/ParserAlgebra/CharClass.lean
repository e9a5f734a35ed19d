import ParserAlgebra.Alphabet
import ParserAlgebra.Fault
import ParserAlgebra.Unicode.Alphanumeric
import ParserAlgebra.Unicode.Case
import ParserAlgebra.Unicode.Decimal
import ParserAlgebra.Wording

/-!
# Classes of characters

A class is a test for one character, with a name and a description for messages.
-/

namespace ParserAlgebra

/-- A named test for one character. -/
structure CharClass where
  test : Test Char
  name : Text := "satisfy"
  expected : List Text := []

namespace CharClass

/-- The character that is the whole of `t`. No character is if `t` has another length than 1. -/
def char (t : Text) : CharClass where
  test := .total fun ch => [ch] == t
  name := Wording.call "char" [t.quote]
  expected := [t]

def oneOf (t : Text) : CharClass where
  test := .total t.contains
  name := Wording.call "one_of" [t.quote]
  expected := t.map ([·])

def any : CharClass where
  test := .total fun _ => true
  name := Wording.call "any_char" []

/-- The decimal digits of all scripts. -/
def digit : CharClass where
  test := .total Unicode.isDecimal
  name := Wording.call "digit" []
  expected := Wording.digits

/-- The letters of all scripts. -/
def letter : CharClass where
  test := .total Unicode.isLetter
  name := Wording.call "letter" []
  expected := Wording.letters

def lowerLetter : CharClass where
  test := .total Unicode.isLowerLetter
  name := Wording.call "lower_letter" []
  expected := Wording.lowerLetters

def upperLetter : CharClass where
  test := .total Unicode.isUpperLetter
  name := Wording.call "upper_letter" []
  expected := Wording.upperLetters

/-- The letters and the characters with a numeric value. -/
def letterOrDigit : CharClass where
  test := .total Unicode.isAlphanumeric
  name := Wording.call "letter_or_digit" []
  expected := Wording.letters ++ Wording.digits

/-- Whether `ch`, as a text of one character, lies between two texts in dictionary order. -/
def between (lo hi : Text) (ch : Char) : Bool :=
  !Text.precedes [ch] lo && !Text.precedes hi [ch]

def inRange (lo hi : Text) : CharClass where
  test := .total (between lo hi)
  name := Wording.call "in_range" [lo.quote, hi.quote]
  expected := [lo ++ ['-'] ++ hi]

/-- The characters before `lo` and those after `hi`. -/
def notInRange (lo hi : Text) : CharClass where
  test := .total fun ch => !between lo hi ch
  name := Wording.call "not_in_range" [lo.quote, hi.quote]

def newline : CharClass where
  test := .total Alphabet.lineEnds.contains
  name := Wording.call "newline" []
  expected := Wording.lineEnds

def space : CharClass where
  test := .total Alphabet.spaces.contains
  name := Wording.call "space" []
  expected := Wording.spaces

def operator : CharClass := oneOf Alphabet.operators

def parenthesis : CharClass := oneOf Alphabet.parentheses

def squareBracket : CharClass := oneOf Alphabet.squareBrackets

def brace : CharClass := oneOf Alphabet.braces

end CharClass

end ParserAlgebra
