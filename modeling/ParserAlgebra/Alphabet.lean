import ParserAlgebra.Text.Basic

/-!
# Alphabets

The fixed sets of characters that the primitives know.
-/

namespace ParserAlgebra.Alphabet

def signs : Text := "+-"

/-- Letters that introduce the exponent of a number. -/
def exponentMarks : Text := "eE"

def operators : Text := "+*-/%"

def spaces : Text := " \t"

def parentheses : Text := "()"

def squareBrackets : Text := "[]"

def braces : Text := "\x7b\x7d"

def lineEnds : Text := "\n\r"

/-- The line end of two characters. -/
def crlf : Text := "\r\n"

end ParserAlgebra.Alphabet
