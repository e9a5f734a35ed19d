import ParserAlgebra.Session.Definition

/-!
# Sessions

A session runs parsers one after another. The board and the cursor of the last outcome stay from step
to step; a step that ends with a fault leaves the cursor where it was, and on the board what was
written before.
-/

namespace ParserAlgebra.Session

/-- A step of a session. -/
inductive Step where
  /-- Runs a parser on a source. -/
  | run (phrase : Phrase) (start : Cursor)
  /-- Runs a parser where the last one stopped. -/
  | resume (phrase : Phrase)
  /-- Makes a new scanner, in place of the one of that name. -/
  | renew (scanner : Text)
  /-- Replaces the record of a scanner. -/
  | update (scanner : Text) (mark : Mark)

/-- What a step shows: its result, unless it runs nothing, and the board after it. -/
structure Entry where
  result : Option (Except Fault Outcome)
  board : Board

/-- A session between two steps. -/
structure State where
  board : Board := {}
  last : Cursor := { source := [] }

/-- The result of a run and the board after it. -/
def observed {α : Type} (run : Parse Board α) (b : Board) : Except Fault α × Board :=
  match EStateM.run run b with
  | .ok a b => (.ok a, b)
  | .error fault b => (.error fault, b)

/-- Builds a parser and runs it. -/
def perform (defs : Definitions) (phrase : Phrase) (c : Cursor) : Parse Board Outcome := do
  let p ← build defs c.reach phrase
  p.run c

/-- A step that builds a parser and runs it. -/
def runAt (defs : Definitions) (phrase : Phrase) (c : Cursor) (s : State) : Entry × State :=
  let (result, board) := observed (perform defs phrase c) s.board
  let last :=
    match result with
    | .ok outcome => outcome.cursor
    | .error _ => s.last
  ({ result := some result, board }, { board, last })

/-- A step of a session. The events of earlier steps are gone. -/
def step (defs : Definitions) (s : State) (next : Step) : Entry × State :=
  let board := { s.board with events := [] }
  match next with
  | .run phrase start => runAt defs phrase start { s with board }
  | .resume phrase => runAt defs phrase s.last { s with board }
  | .renew scanner =>
    let (_, board) := board.addScanner scanner
    ({ result := none, board }, { s with board })
  | .update scanner mark =>
    let (id, board) := board.findScanner board.scope scanner
    let board := board.record id mark
    ({ result := none, board }, { s with board })

/-- The entries of the steps, from a state on. -/
def entries (defs : Definitions) : State → List Step → List Entry
  | _, [] => []
  | s, next :: steps =>
    let (entry, s) := step defs s next
    entry :: entries defs s steps

def run (defs : Definitions) (steps : List Step) : List Entry :=
  entries defs {} steps

/-! ## One parser on several sources -/

/-- The results of a parser on several sources, with one board for all. -/
def runAll (p : Operand Board) : Board → List Cursor → List (Except Fault Outcome)
  | _, [] => []
  | b, c :: cs =>
    let (result, b) := observed (p.run c) b
    result :: runAll p b cs

/-- Builds a parser and runs it on several sources. -/
def parse (defs : Definitions) (phrase : Phrase) (sources : List Cursor) :
    Except Fault (Operand Board × List (Except Fault Outcome)) :=
  let reach := (sources.map Cursor.reach).foldl max 0
  match observed (build defs reach phrase) {} with
  | (.ok p, b) => .ok (p, runAll p b sources)
  | (.error fault, _) => .error fault

end ParserAlgebra.Session
