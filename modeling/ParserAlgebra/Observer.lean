import ParserAlgebra.Parser.Basic

/-!
# Observers

A matcher reports each run of a parser to a callback, a tracker records where the matches of a parser
end. Both pass the outcome on as it is.
-/

namespace ParserAlgebra

/-- What a callback is told about a run of a parser. -/
structure Rule where
  /-- The text the parser was given. -/
  input : Text
  /-- The value of the match, and no value if there is none. -/
  result : Value
  /-- The text left to read. -/
  remaining : Text
  succeeded : Bool
deriving DecidableEq

/-- The report of a run that began at `c`. -/
def Rule.ofOutcome (c : Cursor) (outcome : Outcome) : Rule where
  input := c.rest
  result := outcome.value
  remaining := outcome.rest
  succeeded := outcome.succeeded

/-- Where a match ended, relative to where it began. -/
structure Mark where
  line : Int := 1
  column : Int := 1
  /-- The number of characters that the match took, negative if it led back. -/
  position : Int := 0
  /-- The character before the end of the match, unless it took none. -/
  lastChar : Option Text := none
deriving DecidableEq, Inhabited

namespace Mark

/-- The record of a match from one cursor to another. -/
def between (start stop : Cursor) : Except Fault Mark :=
  let (line, column) := start.source.lineCol stop.pos start.pos
  let mark : Mark := { line, column, position := stop.pos - start.pos }
  if mark.position = 0 then .ok mark
  else
    match start.source.at? (stop.pos - 1) with
    | some ch => .ok { mark with lastChar := some [ch] }
    | none => .error .outsideSource

def display (m : Mark) : Text :=
  "Scanner(line=" ++ Text.ofInt m.line ++ ", column=" ++ Text.ofInt m.column ++ ", position="
    ++ Text.ofInt m.position ++ ", last_char="
    ++ (match m.lastChar with | some t => t.quote | none => "None") ++ ")"

end Mark

namespace Parser

variable {σ : Type}

/-- `p`, with each run reported: a match to `onSuccess`, a failure to `onFailure` if it is given. -/
def matcher (p : Parser σ) (onSuccess : Rule → Parse σ Unit)
    (onFailure : Option (Rule → Parse σ Unit)) : Parser σ where
  name := nameOf "matcher" [p]
  run c := do
    let outcome ← p.run c
    match outcome, onFailure with
    | .success .., _ => onSuccess (.ofOutcome c outcome)
    | .failure _, some report => report (.ofOutcome c outcome)
    | .failure _, none => pure ()
    return outcome

/-- `p`, with the end of each match recorded. At the end of the input `p` is not run. -/
def track (record : Mark → σ → σ) (p : Parser σ) : Parser σ where
  name := nameOf "track" [p]
  run c := do
    if c.atEnd then return .fail c Wording.unexpectedEnd []
    match ← p.run c with
    | .failure m => return .failure m
    | .success v d =>
      let mark ← Mark.between c d
      modify (record mark)
      return .success v d

end Parser

end ParserAlgebra
