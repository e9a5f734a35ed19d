import ParserAlgebra.Calculator
import ParserAlgebra.Number.Shortest
import ParserAlgebra.Parser.Region
import ParserAlgebra.Precedence

/-!
# Demonstrations

Two texts that show the library at work: the calculator on a few lines, and a tour of primitives,
combinators, regions and precedences.
-/

namespace ParserAlgebra.Demonstration

/-- The lines of a text, each ended by LF. -/
def unlines (rows : List Text) : Text :=
  rows.flatMap fun row => row ++ ['\n']

/-! ## The calculator -/

/-- A line that the calculator understands, with its value and where it ended; or what it does not
understand. -/
def calculation (source : Text) : Except Fault Text := do
  match ← Calculator.tokenize source with
  | (_, .error m) => return m.formatWithContext Mismatch.defaultContext
  | (mark, .ok tokens) =>
    let x ← Calculator.evaluate tokens
    return (Decimal.trim source).quote ++ " = " ++ Number.write x ++ "  [" ++ mark.display ++ "]"

def calculator : Except Fault Text := do
  let sources : List Text := ["1 + 2 * 3\n", "10 / 4 - 0.5", "7 % 4 * 2", "2 + $3"]
  return unlines (← sources.mapM calculation)

/-! ## The tour -/

/-- The outcome of a parser that nobody observes. -/
def outcome (p : Except Fault (Parser Unit)) (source : Text) : Except Fault Outcome := do
  match EStateM.run ((← p).run { source }) () with
  | .ok r _ => return r
  | .error fault _ => throw fault

/-- A value in one line: a text as it is, the elements of a tuple quoted and in brackets. -/
def display : Value → Text
  | .none => "None"
  | .text t => t
  | .int n => Text.ofInt n
  | .tuple vs => "(" ++ Text.commaSeparated (vs.map fun v => (v.text?.getD []).quote) ++ ")"

/-- A value as a text, the elements of a tuple joined. -/
def joined (v : Value) : Text :=
  match v with
  | .tuple vs => (Value.concat? vs).getD []
  | v => v.text?.getD []

/-- The value of a parser on a source, in one line. -/
def valueRow (p : Except Fault (Parser Unit)) (source : Text) : Except Fault Text := do
  return display (← outcome p source).value

/-- The heading of a part of the tour. -/
def heading (number : Nat) (title : Text) : List Text :=
  let bar := List.replicate 50 '='
  [bar, "Example " ++ Text.ofNat number ++ ": " ++ title, bar]

/-- Primitives: a numeral with its value, and a mismatch. -/
def primitives : Except Fault (List Text) := do
  let r ← outcome (.ok .number) "-3.14 rest"
  let value : Text :=
    match ← Number.read (joined r.value) with
    | .int n => Text.ofInt n
    | .float x => Number.write x
  let failed : Text :=
    match ← outcome (.ok (.satisfy .digit)) "x1" with
    | .failure m => m.format
    | .success .. => []
  return [(joined r.value).quote ++ " " ++ value ++ " " ++ r.rest.quote, failed]

/-- Composition: a repeated choice. -/
def composition : Except Fault (List Text) := do
  let word := (Parser.satisfy .letter).choice (.satisfy .digit)
  let r ← outcome (.ok word.oneOrMore) "abc123;"
  return [joined r.value ++ " " ++ r.rest.quote]

/-- Regions and scans. -/
def regions : Except Fault (List Text) := do
  return [
    ← valueRow (Parser.between (.literal "[") (.literal "]")) "a[xyz]b",
    ← valueRow (.ok (.until .whole .consuming (.satisfy (.char ";")))) "ab;cd",
    ← valueRow (Parser.notBetween (.literal "/*") (.literal "*/")) "a/* x */b/* y */c",
    ← valueRow (.ok (.seqAt .consuming [.number, .satisfy (.char "*"), .number])) "x = 3 * 4"]

/-- An operator with its precedence, or why it is none. -/
def precedenceRow (op : Text) : Except Fault Text := do
  match ← outcome (Parser.operatorPrecedence .arithmetic true) op with
  | .success v c =>
    return op.quote ++ " -> precedence " ++ display v ++ ", remaining " ++ c.rest.quote
  | .failure m => return op.quote ++ " -> " ++ m.format

def precedences : Except Fault (List Text) :=
  ["+", "*", "^"].mapM fun op : String => precedenceRow op

/-- The tour through the library. -/
def quickstart : Except Fault Text := do
  return unlines (heading 1 "Primitives" ++ (← primitives)
    ++ [] :: heading 2 "Composition" ++ (← composition)
    ++ [] :: heading 3 "Regions" ++ (← regions)
    ++ [] :: heading 4 "Operator Precedence" ++ (← precedences))

end ParserAlgebra.Demonstration
