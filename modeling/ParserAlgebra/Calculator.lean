import ParserAlgebra.Number.Basic
import ParserAlgebra.Number.Remainder
import ParserAlgebra.Observer
import ParserAlgebra.Parser.Assertion
import ParserAlgebra.Parser.Choice
import ParserAlgebra.Parser.Repetition
import ParserAlgebra.Parser.Sequence

/-!
# A calculator

`tokenize` collects the numbers and operators of a line by matchers and tracks where the line ends.
`evaluate` climbs the precedences of the operators: `*`, `/` and `%` bind tighter than `+` and `-`, and
operators of the same precedence are applied from left to right.
-/

namespace ParserAlgebra.Calculator

/-! ## Tokens -/

/-- A number, or a text that is not the value of a number. -/
inductive Token where
  | int (n : Int)
  | float (x : Float)
  | text (t : Text)

/-- What the observers of the tokenizer write. -/
structure Tally where
  tokens : List Token := []
  mark : Mark := {}

/-- The token for the text of a match: a number if it begins with a digit, else the text itself. An empty
text has no first character to decide on. -/
def Token.ofText (t : Text) : Except Fault Token :=
  match t.head? with
  | none => .error .outsideSource
  | some ch =>
    if Unicode.isDecimal ch then do
      match ← Number.read t with
      | .int n => return .int n
      | .float x => return .float x
    else .ok (.text t)

/-- Adds the token for a match to the tally. A match without a text is taken for an empty one. -/
def emit (rule : Rule) : Parse Tally Unit := do
  let token ← Token.ofText (rule.result.text?.getD [])
  modify fun tally => { tally with tokens := tally.tokens ++ [token] }

def operatorChars : Text := "+-*/%"

def blanks : Parser Tally := (Parser.satisfy .space).zeroOrMore.ignore

def numberOrOperator : Parser Tally :=
  (Parser.number.matcher emit none).choice
    ((Parser.satisfy (.oneOf operatorChars)).matcher emit none)

/-- A token and the blanks behind it. -/
def token : Parser Tally := numberOrOperator.seqKeepFirst blanks

/-- Tokens up to the end of the line. -/
def line : Parser Tally :=
  (token.oneOrMore.seqKeepFirst (.satisfy .newline)).track fun mark tally => { tally with mark }

/-- The record of where the line ended, and the tokens of a source that is one line. -/
def tokenize (source : Text) : Except Fault (Mark × Except Mismatch (List Token)) :=
  match EStateM.run (line.run { source }) {} with
  | .error fault _ => .error fault
  | .ok (.failure m) tally => .ok (tally.mark, .error m)
  | .ok (.success _ c) tally =>
    if c.rest.isEmpty then .ok (tally.mark, .ok tally.tokens)
    else .ok (tally.mark, .error { cursor := c, message := Wording.unexpectedCharacter })

/-! ## Operators -/

inductive Operator where
  | add
  | sub
  | mul
  | div
  | rem
deriving DecidableEq

namespace Operator

def ofText? (t : Text) : Option Operator :=
  if t = ['+'] then some add
  else if t = ['-'] then some sub
  else if t = ['*'] then some mul
  else if t = ['/'] then some div
  else if t = ['%'] then some rem
  else none

/-- How tight an operator binds. -/
def precedence : Operator → Nat
  | add | sub => 1
  | mul | div | rem => 2

/-- The result of an operator. A remainder has the sign of the divisor. -/
def apply : Operator → Float → Float → Except Fault Float
  | add, x, y => .ok (x + y)
  | sub, x, y => .ok (x - y)
  | mul, x, y => .ok (x * y)
  | div, x, y => if y == 0 then .error .divisionByZero else .ok (x / y)
  | rem, x, y => if y == 0 then .error .divisionByZero else .ok (Number.flooredRemainder x y)

end Operator

/-! ## Evaluation -/

/-- The number that an operand is. A text may write one too. -/
def Token.toFloat : Token → Except Fault Float
  | int n => Number.ofInt n
  | float x => .ok x
  | text t =>
    match Decimal.read? t with
    | some d => .ok d.toFloat
    | none => .error .noNumeral

def Token.operator : Token → Except Fault Operator
  | text t =>
    match Operator.ofText? t with
    | some op => .ok op
    | none => .error .noOperator
  | int _ | float _ => .error .noOperator

/-- The first operand, and the tokens behind it. -/
def operand : List Token → Except Fault (Float × List Token)
  | [] => .error .noOperand
  | t :: ts => do
    let x ← t.toFloat
    return (x, ts)

mutual
/-- The value of the longest expression at the beginning whose operators outside of operands have at
least the precedence `least`, and the tokens behind it. Each step down uses up a token or passes the
left operand on, so twice the number of tokens is enough for `fuel`. -/
def climb : (fuel : Nat) → (least : Nat) → List Token → Except Fault (Float × List Token)
  | 0, _, _ => .error .endless
  | fuel + 1, least, ts => do
    let (left, ts) ← operand ts
    extend fuel least left ts

/-- Applies to `left` the operators that follow, as long as they have at least the precedence
`least`. -/
def extend : (fuel : Nat) → (least : Nat) → (left : Float) → List Token →
    Except Fault (Float × List Token)
  | _, _, left, [] => .ok (left, [])
  | 0, _, _, _ :: _ => .error .endless
  | fuel + 1, least, left, t :: ts => do
    let op ← t.operator
    if op.precedence < least then return (left, t :: ts)
    let (right, ts) ← climb fuel (op.precedence + 1) ts
    let left ← op.apply left right
    extend fuel least left ts
end

/-- The value of a list of tokens. -/
def evaluate (ts : List Token) : Except Fault Float := do
  let (x, _) ← climb (2 * ts.length + 1) 1 ts
  return x

end ParserAlgebra.Calculator
