import ParserAlgebra.Cursor
import ParserAlgebra.Value
import ParserAlgebra.Wording

/-!
# Outcomes

A parser matches, with a value and the cursor behind the match, or it does not, with a mismatch that
tells where and what was expected. Only the constructor says which: a match may yield no value.
-/

namespace ParserAlgebra

/-- A failed attempt. -/
structure Mismatch where
  cursor : Cursor
  message : Text := Wording.noMatch
  expected : List Text := []
deriving DecidableEq

/-- The result of one run of a parser. -/
inductive Outcome where
  | success (value : Value) (cursor : Cursor)
  | failure (m : Mismatch)
deriving DecidableEq

namespace Mismatch

/-- The mismatch reported at another cursor. -/
def rewind (m : Mismatch) (c : Cursor) : Mismatch :=
  { m with cursor := c }

/-! ## Formatting -/

/-- The list of what was expected, unless it is empty. -/
def expectation (m : Mismatch) : Text :=
  if m.expected.isEmpty then []
  else " (expected: " ++ Text.commaSeparated (m.expected.map fun t => "'" ++ t ++ "'") ++ ")"

/-- The mismatch in one line, with line and column. -/
def format (m : Mismatch) : Text :=
  Text.ofInt m.cursor.lineCol.1 ++ ":" ++ Text.ofInt m.cursor.lineCol.2 ++ ": " ++ m.message
    ++ m.expectation

/-- The numbers of the lines at most `k` away from the line of the mismatch. A negative `k` leaves
none. -/
def shownLines (m : Mismatch) (k : Int) : List Nat :=
  let line := m.cursor.lineCol.1
  let first := max 1 (line - k)
  let last := min (m.cursor.source.splitLines.length : Int) (line + k)
  List.range' first.toNat (last + 1 - first).toNat

/-- A line of the source after its number. -/
def sourceRow (number : Nat) (line : Text) : Text :=
  Text.padLeft ' ' 4 (Text.ofNat number) ++ " | " ++ line

/-- The row that points at the column of the mismatch. -/
def caretRow (m : Mismatch) : Text :=
  "     | " ++ List.replicate (m.cursor.lineCol.2 - 1).toNat ' ' ++ "^"

/-- The rows for line `i` of the source. The caret follows the line of the mismatch. -/
def rowsOf (m : Mismatch) (i : Nat) : List Text :=
  sourceRow i (m.cursor.source.splitLines[i - 1]?.getD [])
    :: (if (i : Int) = m.cursor.lineCol.1 then [m.caretRow] else [])

/-- The formatted mismatch, an empty row, and the lines around it. -/
def contextRows (m : Mismatch) (k : Int) : List Text :=
  m.format :: [] :: (m.shownLines k).flatMap m.rowsOf

/-- The mismatch with the lines of the source that are at most `k` away. -/
def formatWithContext (m : Mismatch) (k : Int) : Text :=
  List.intercalate ['\n'] (m.contextRows k)

/-- How many lines around a mismatch are shown unless the caller says otherwise. -/
def defaultContext : Int := 2

end Mismatch

namespace Outcome

def fail (c : Cursor) (message : Text) (expected : List Text) : Outcome :=
  .failure { cursor := c, message, expected }

/-- The cursor behind the match, or of the failed attempt. -/
def cursor : Outcome → Cursor
  | success _ c => c
  | failure m => m.cursor

/-- The text left to read. -/
def rest (r : Outcome) : Text :=
  r.cursor.rest

def succeeded : Outcome → Bool
  | success .. => true
  | failure _ => false

/-- The value of a match, and no value if there is no match. -/
def value : Outcome → Value
  | success v _ => v
  | failure _ => .none

end Outcome

end ParserAlgebra
