import ParserAlgebra.Parser.Primitive

/-!
# Sequences

One parser after another. A failure of the first parser is passed on as it is; a failure of a later
one is reported at the cursor where the sequence began, so that a choice around it can start again
from there.
-/

namespace ParserAlgebra

/-- Whether a parser uses up what it reads or leaves it for the next one. -/
inductive Stance where
  | consuming
  | ahead
deriving DecidableEq

namespace Stance

/-- The cursor after a match that began at `start` and read as far as `stop`. -/
def place : Stance → (start stop : Cursor) → Cursor
  | consuming, _, stop => stop
  | ahead, start, _ => start

/-- The part of a combinator's name that tells its stance. -/
def suffix : Stance → String
  | consuming => ""
  | ahead => "_lookahead"

end Stance

namespace Parser

variable {σ : Type}

/-! ## Two parsers -/

/-- `p` and then `q`, with the value of `q`. -/
def seq (p q : Parser σ) : Parser σ where
  name := nameOf "seq" [p, q]
  run c := do
    match ← p.run c with
    | .failure m => return .failure m
    | .success _ d =>
      match ← q.run d with
      | .failure m => return .failure (m.rewind c)
      | .success v e => return .success v e

/-- `p` and then `q` if it matches, with the value of `p`. -/
def seqKeepFirst (p q : Parser σ) : Parser σ where
  name := nameOf "seq_keep_first" [p, q]
  run c := do
    match ← p.run c with
    | .failure m => return .failure m
    | .success v d =>
      match ← q.run d with
      | .failure _ => return .success v d
      | .success _ e => return .success v e

/-- `lead` and then `p`, with the value of `p`. -/
def before (p lead : Parser σ) : Parser σ where
  name := nameOf "before" [p, lead]
  run c := do
    match ← lead.run c with
    | .failure m => return .failure m
    | .success _ d =>
      match ← p.run d with
      | .failure m => return .failure (m.rewind c)
      | .success v e => return .success v e

/-- `p` and then `trail`, with the value of `p`. -/
def after (p trail : Parser σ) : Parser σ where
  name := nameOf "after" [p, trail]
  run c := do
    match ← p.run c with
    | .failure m => return .failure m
    | .success v d =>
      match ← trail.run d with
      | .failure m => return .failure (m.rewind c)
      | .success _ e => return .success v e

/-! ## Any number of parsers -/

/-- Runs the parsers one after another up to the first that fails, and gives the values of those
before it and the cursor behind them. -/
def collect : List (Parser σ) → Cursor → Parse σ (List Value × Cursor)
  | [], c => return ([], c)
  | p :: ps, c => do
    match ← p.run c with
    | .failure _ => return ([], c)
    | .success v d =>
      let (vs, e) ← collect ps d
      return (v :: vs, e)

/-- The parsers one after another up to the first that fails. Never fails itself. -/
def seqN (stance : Stance) (ps : List (Parser σ)) : Parser σ where
  name := nameOf ("seq" ++ (if stance = .consuming then "_n" else "_lookahead")) ps
  run c := do
    let (vs, e) ← collect ps c
    return .success (.tuple vs) (stance.place c e)

end Parser

end ParserAlgebra
