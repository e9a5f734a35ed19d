import ParserAlgebra.Text.Basic

/-!
# Diagnostics

A diagnostic describes a misuse of the library: a code, what is wrong, and what to do about it. Each
kind of misuse is a `Cause`, and `Cause.diagnostic` has the wording of all of them.
-/

namespace ParserAlgebra

inductive Code where
  | noTerminators
  | emptyDelimiter
  | emptyOperator
  | unknownLocale
  | negativeCount
  | ambiguousUnpack
  | unexpectedEnd
deriving DecidableEq, Repr

namespace Code

/-- All codes, in the order of their numbers. -/
def all : List Code :=
  [.noTerminators, .emptyDelimiter, .emptyOperator, .unknownLocale, .negativeCount,
   .ambiguousUnpack, .unexpectedEnd]

/-- The number of a code: 1000 to 1999 when a parser is built wrongly, 2000 to 2999 when a result is
used wrongly, 3000 to 3999 when input is read past its end. -/
def number : Code → Nat
  | noTerminators => 1001
  | emptyDelimiter => 1002
  | emptyOperator => 1003
  | unknownLocale => 1004
  | negativeCount => 1005
  | ambiguousUnpack => 2001
  | unexpectedEnd => 3001

def name : Code → Text
  | noTerminators => "NO_TERMINATORS"
  | emptyDelimiter => "EMPTY_DELIMITER"
  | emptyOperator => "EMPTY_OPERATOR"
  | unknownLocale => "UNKNOWN_LOCALE"
  | negativeCount => "NEGATIVE_COUNT"
  | ambiguousUnpack => "AMBIGUOUS_UNPACK"
  | unexpectedEnd => "UNEXPECTED_EOF"

def ofName? (t : Text) : Option Code :=
  all.find? (·.name == t)

end Code

/-- A structured message. -/
structure Diagnostic where
  code : Code
  message : Text
  hint : Option Text := none
  position : Option Int := none
deriving DecidableEq

namespace Diagnostic

/-- The line that names the position, if there is one. -/
def positionRow (d : Diagnostic) : List Text :=
  match d.position with
  | some n => ["  --> position " ++ Text.ofInt n]
  | none => []

/-- The line that holds the hint, unless it is empty. -/
def hintRow (d : Diagnostic) : List Text :=
  match d.hint with
  | some (c :: hint) => ["  = help: " ++ c :: hint]
  | _ => []

/-- The diagnostic in one to three lines. -/
def format (d : Diagnostic) : Text :=
  List.intercalate ['\n']
    (("error[" ++ d.code.name ++ "]: " ++ d.message) :: d.positionRow ++ d.hintRow)

end Diagnostic

/-- What can be wrong, with what its description needs. -/
inductive Cause where
  /-- A combinator over several parsers was given none. -/
  | noTerminators (combinator : Text)
  /-- A delimiter is the empty text. -/
  | emptyDelimiter (combinator : Text)
  /-- A precedence table has an empty operator. -/
  | emptyOperator
  /-- There are no number symbols for a locale. -/
  | unknownLocale (locale reason : Text)
  /-- A number of characters is negative. -/
  | negativeCount (combinator : Text) (count : Int)
  /-- A capture that should hold one element holds more. -/
  | ambiguousUnpack (count : Int)
  /-- A character was asked for at the end of the input. -/
  | unexpectedEnd (position : Int)
deriving DecidableEq

def Cause.diagnostic : Cause → Diagnostic
  | noTerminators combinator =>
    { code := .noTerminators
      message := combinator ++ "() requires at least one terminator parser"
      hint := some ("Pass one or more parsers, e.g. " ++ combinator ++ "(char(\";\"), newline())") }
  | emptyDelimiter combinator =>
    { code := .emptyDelimiter
      message := combinator ++ "() delimiters must be non-empty strings"
      hint := some "An empty delimiter matches everywhere; use a parser delimiter instead" }
  | emptyOperator =>
    { code := .emptyOperator
      message := "Operator precedence table contains an empty operator"
      hint := some "Remove the '' entry from the table" }
  | unknownLocale locale reason =>
    { code := .unknownLocale
      message := "Unknown locale '" ++ locale ++ "': " ++ reason
      hint := some "Use a CLDR locale identifier such as 'en_US' or 'de_DE'" }
  | negativeCount combinator count =>
    { code := .negativeCount
      message := combinator ++ "() count must be non-negative, got " ++ Text.ofInt count
      hint := some ("Use " ++ combinator ++ "(0) for an empty lookahead") }
  | ambiguousUnpack count =>
    { code := .ambiguousUnpack
      message := "Expected a capture with at most one element, but found " ++ Text.ofInt count
        ++ " elements"
      hint := some "Use the tuple directly, or wrap a single-value parser with pack()" }
  | unexpectedEnd position =>
    { code := .unexpectedEnd
      message := "Unexpected EOF at position " ++ Text.ofInt position
      position := some position }

end ParserAlgebra
