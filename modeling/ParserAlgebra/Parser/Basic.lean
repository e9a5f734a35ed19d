import ParserAlgebra.Outcome

/-!
# Parsers

A parser has a name and runs at a cursor. A run gives an outcome or ends with a fault; on the way it
may change the state `σ` of its observers, and what it has written stays whatever comes of the run.
-/

namespace ParserAlgebra

/-- A run that may write to a state `σ` and may end with a fault. -/
abbrev Parse (σ : Type) := EStateM Fault σ

instance {σ : Type} : MonadLift (Except Fault) (Parse σ) where
  monadLift
    | .ok a => pure a
    | .error fault => throw fault

/-- A named function from a cursor to an outcome. -/
structure Parser (σ : Type) where
  run : Cursor → Parse σ Outcome
  name : Text := Wording.unnamed

namespace Parser

variable {σ : Type}

/-- The parser in messages about itself. -/
def display (p : Parser σ) : Text :=
  "<Parser " ++ p.name ++ ">"

/-- A parser whose outcome depends on the cursor alone. -/
def ofOutcome (name : Text) (outcome : Cursor → Outcome) : Parser σ where
  name
  run c := return outcome c

def nameOf (combinator : String) (ps : List (Parser σ)) : Text :=
  Wording.call combinator (ps.map (·.name))

end Parser

end ParserAlgebra
