import ParserAlgebra.Parser.Basic

/-!
# Assertions and conditions

Parsers that look at the input or at an outcome and decide, or that drop a part of an outcome.
-/

namespace ParserAlgebra.Parser

variable {σ : Type}

/-- The value of `p`, with the input left in place. -/
def lookahead (p : Parser σ) : Parser σ where
  name := nameOf "lookahead" [p]
  run c := do
    match ← p.run c with
    | .failure m => return .failure (m.rewind c)
    | .success v _ => return .success v c

/-- One character where `p` does not match. -/
def negate (p : Parser σ) : Parser σ where
  name := nameOf "negate" [p]
  run c := do
    if c.atEnd then return .fail c Wording.unexpectedEnd []
    match ← p.run c with
    | .success .. => return .fail c (Wording.unexpected p.name) []
    | .failure _ =>
      let ch ← c.current
      return .success (.text [ch]) (c.advance 1)

/-- What `p` takes, without its value. -/
def ignore (p : Parser σ) : Parser σ where
  name := nameOf "ignore" [p]
  run c := do
    match ← p.run c with
    | .failure m => return .failure m
    | .success _ d => return .success .none d

/-- The outcome of `p`, a match or not, if it passes the test. -/
def ifCondition (p : Parser σ) (test : Test Outcome) : Parser σ where
  name := nameOf "if_condition" [p]
  run c := do
    let outcome ← p.run c
    if ← test outcome then return outcome
    return .fail c (Wording.conditionRejected p.name) []

/-- The outcome of `p`, a match or not, unless it passes the test. -/
def elseCondition (p : Parser σ) (test : Test Outcome) : Parser σ :=
  ifCondition p test.not

/-- `p`, if the remaining text passes the test. -/
def applyIf (p : Parser σ) (test : Test Text) : Parser σ where
  name := nameOf "apply_if" [p]
  run c := do
    if ← test c.rest then p.run c
    else return .fail c (Wording.inputRejected p.name) []

/-- `p`, unless the remaining text passes the test. -/
def applyElse (p : Parser σ) (test : Test Text) : Parser σ :=
  applyIf p test.not

end ParserAlgebra.Parser
