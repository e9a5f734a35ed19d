import ParserAlgebra.Parser.Primitive

/-!
# Operator precedence

A table assigns precedences to operators. A parser made from it yields the precedence of the longest
operator that comes next, whatever the order of the table.
-/

namespace ParserAlgebra

/-- Operators and their precedences. The last entry of an operator counts. -/
abbrev PrecedenceTable := List (Text × Int)

namespace PrecedenceTable

/-- Whether `a` is tried before `b`: a longer operator is, and of two of the same length the one that
is first in a dictionary. -/
def triedBefore (a b : Text) : Bool :=
  b.length < a.length || (a.length == b.length && a.precedes b)

/-- Puts an operator in its place, unless it is there already. -/
def insertOperator (op : Text) : List Text → List Text
  | [] => [op]
  | o :: ops =>
    if op = o then o :: ops
    else if triedBefore op o then op :: o :: ops
    else o :: insertOperator op ops

/-- The operators of the table, each once, in the order in which they are tried. -/
def operators (table : PrecedenceTable) : List Text :=
  (table.map (·.1)).foldr insertOperator []

/-- The precedence of an operator. -/
def precedence? (table : PrecedenceTable) (op : Text) : Option Int :=
  (table.reverse.find? (·.1 == op)).map (·.2)

/-- The arithmetic operators with the precedences that the demonstration uses. -/
def arithmetic : PrecedenceTable :=
  [("+", 1), ("-", 2), ("*", 3), ("/", 3)]

end PrecedenceTable

/-- The precedence of the first operator of the table that comes next. If `exact`, nothing may follow
the operator. -/
def Parser.operatorPrecedence {σ : Type} (table : PrecedenceTable) (exact : Bool) :
    Except Fault (Parser σ) :=
  if table.any (·.1.isEmpty) then .error (.ofCause .emptyOperator)
  else
    let operators := table.operators
    let entries := operators.filterMap fun op => (table.precedence? op).map (op, ·)
    let name := Wording.call "operator_precedence" [Text.ofNat operators.length ++ " operators"]
    .ok <| ofOutcome name fun c =>
      match entries.find? fun (op, _) => if exact then c.rest == op else c.startsWith op with
      | some (op, precedence) => .success (.int precedence) (c.advance op.length)
      | none => .fail c Wording.expectedOperator operators

end ParserAlgebra
