import ParserAlgebra.Parser.Basic

/-!
# Repetitions

A repetition ends where the parser fails or matches without moving. Each match of a parser that
never moves back leaves less to read, so the number of rounds is bounded by what remains and two more:
one for the run that ends the repetition, and one for a cursor past the end of the source, which the
first match brings to the end. A parser from outside may move back, and then needs a round for each
position that it comes to. One that uses up all the rounds ends the run with a fault.
-/

namespace ParserAlgebra.Parser

variable {σ : Type}

/-- Runs `p` again and again for at most so many rounds, until `enough` holds of the cursor, and
gives the values and the cursor behind the last match. -/
def rounds (p : Parser σ) (enough : Cursor → Bool) :
    (limit : Nat) → Cursor → Parse σ (List Value × Cursor)
  | 0, _ => throw .endless
  | limit + 1, c => do
    if enough c then return ([], c)
    match ← p.run c with
    | .failure _ => return ([], c)
    | .success v d =>
      if d.pos = c.pos then return ([], c)
      let (vs, e) ← rounds p enough limit d
      return (v :: vs, e)

/-- How many rounds a repetition has to spare. -/
def spareRounds : Nat := 100

/-- Runs `p` again and again, until `enough` holds of the cursor. -/
def repeated (p : Parser σ) (enough : Cursor → Bool) (c : Cursor) : Parse σ (List Value × Cursor) :=
  rounds p enough (c.reach + spareRounds) c

/-- As many matches of `p` as there are. Never fails. -/
def zeroOrMore (p : Parser σ) : Parser σ where
  name := nameOf "zero_or_more" [p]
  run c := do
    let (vs, e) ← repeated p (fun _ => false) c
    return .success (.tuple vs) e

/-- As many matches of `p` as there are, but at least one. -/
def oneOrMore (p : Parser σ) : Parser σ where
  name := nameOf "one_or_more" [p]
  run c := do
    let (vs, e) ← repeated p (fun _ => false) c
    if vs.isEmpty then return .fail c (Wording.expectedMore p.name) []
    return .success (.tuple vs) e

/-- Runs `p` so many times, unless the input ends before, and gives the values of the runs that
matched and the cursor behind the last of them. -/
def attempts (p : Parser σ) : (count : Nat) → Cursor → Parse σ (List Value × Cursor)
  | 0, c => return ([], c)
  | count + 1, c => do
    if c.atEnd then return ([], c)
    match ← p.run c with
    | .failure _ => attempts p count c
    | .success v d =>
      let (vs, e) ← attempts p count d
      return (v :: vs, e)

/-- The matches among `n` attempts at `p`. Never fails. -/
def exactly (p : Parser σ) (n : Int) : Parser σ where
  name := Wording.call "exactly" [p.name, Text.ofInt n]
  run c := do
    let (vs, e) ← attempts p n.toNat c
    return .success (.tuple vs) e

end ParserAlgebra.Parser
