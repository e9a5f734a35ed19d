import ParserAlgebra.Text.Quoted

/-!
# Wording

How parsers are named after what they are built from, and what their mismatches say.
-/

namespace ParserAlgebra.Wording

/-! ## Names -/

/-- The name of a parser that the combinator `f` builds from arguments. -/
def call (f : String) (args : List Text) : Text :=
  f ++ ['('] ++ Text.commaSeparated args ++ [')']

/-- The name that a parser has unless it is given another. -/
def unnamed : Text := "parser"

/-! ## What was expected -/

/-- Something that has a name. -/
def expected (name : Text) : Text := "Expected " ++ name

def expectedNumber : Text := expected "number"

def expectedIdentifier : Text := expected "identifier"

def expectedOperator : Text := expected "operator"

def expectedLocaleNumber (locale : Text) : Text := expected (locale ++ " number")

def expectedExactly (t : Text) : Text := expected ("exactly " ++ t.quote)

def expectedEnding (t : Text) : Text := expected ("input ending with " ++ t.quote)

def expectedCharacters (n : Int) : Text := expected ("at least " ++ Text.ofInt n ++ " characters")

def expectedMore (name : Text) : Text := expected ("one or more of " ++ name)

def expectedTextBetween (opening closing : Text) : Text :=
  expected ("text between " ++ opening.quote ++ " and " ++ closing.quote)

def expectedRegion (opening closing : Text) : Text :=
  expected (opening.quote ++ " ... " ++ closing.quote)

/-- One of two alternatives, where both or neither matched. -/
def expectedOneAlternative (matched : Bool) : Text :=
  expected ("exactly one alternative, " ++ (if matched then "both" else "neither") ++ " matched")

/-! ## What was met instead -/

def noMatch : Text := "No match"

def unexpected (name : Text) : Text := "Unexpected " ++ name

def unexpectedEnd : Text := unexpected "end of input"

def unexpectedCharacter : Text := unexpected "character"

def neverMatched (name : Text) : Text := name ++ " never matched"

def capturedNothing (name : Text) : Text := name ++ " captured nothing"

def conditionRejected (name : Text) : Text := "Condition rejected " ++ name

def inputRejected (name : Text) : Text := "Input rejected before " ++ name

/-! ## Descriptions of characters -/

/-- The characters that a number may begin with, signs apart. -/
def digits : List Text := ["0-9"]

def letters : List Text := ["a-z", "A-Z"]

def lowerLetters : List Text := ["a-z"]

def upperLetters : List Text := ["A-Z"]

/-- The characters that an identifier may begin with. -/
def identifierStart : List Text := ["a-z", "A-Z", "_"]

def lineEnds : List Text := ["\\n", "\\r"]

def spaces : List Text := [" ", "\\t"]

end ParserAlgebra.Wording
