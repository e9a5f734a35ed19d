import ParserAlgebra.Fault
import ParserAlgebra.Text.Lines

/-!
# Cursors

A cursor is a source with a position in it. Moving gives a new cursor, so going back is using an
earlier one.

The position may lie past the end of the source; then nothing remains, and the first move leads to the
end. It may also be negative, since a move may lead back. The text behind it is then found by counting
from the end of the source, while the distance to the end of the input is counted from the position
itself: whoever moves on character by character from there goes through the last characters of the
source first and through the whole source after that.
-/

namespace ParserAlgebra

/-- A position in a source. -/
structure Cursor where
  source : Text
  pos : Int := 0
deriving DecidableEq, Inhabited

namespace Cursor

/-! ## What remains -/

/-- The text from the cursor to the end of the source. -/
def rest (c : Cursor) : Text :=
  c.source.drop (c.source.index c.pos)

/-- The number of moves by one character from the cursor to the end of the source. -/
def remaining (c : Cursor) : Nat :=
  (c.source.length - c.pos).toNat

/-- How many positions a run from the cursor may come to without coming to one again, as long as it
keeps to places with characters: those up to one length of the source before and behind its beginning,
and those on the way there. -/
def reach (c : Cursor) : Nat :=
  2 * c.source.length + c.pos.natAbs

def atEnd (c : Cursor) : Bool :=
  c.source.length ≤ c.pos

/-- The characters that are met when the cursor moves on one by one. No character belongs to a
position that is more than the length of the source before its beginning. -/
def ahead (c : Cursor) : Except Fault Text :=
  if c.pos + c.source.length < 0 then .error .outsideSource
  else .ok (if c.pos < 0 then c.rest ++ c.source else c.rest)

/-- The next character, which must exist. -/
def current (c : Cursor) : Except Fault Char := do
  match ← c.ahead with
  | ch :: _ => return ch
  | [] => throw (.endOfInput c.pos)

/-- The text from the cursor up to `n` characters further on. -/
def sliceAhead (c : Cursor) (n : Int) : Text :=
  c.source.slice c.pos (c.pos + n)

/-- Whether the text comes next. Past the end of the source not even the empty text does. -/
def startsWith (c : Cursor) (t : Text) : Bool :=
  c.source.index c.pos ≤ c.source.length && t.isPrefixOf c.rest

/-- Whether the text ends the source and is not longer than what remains. -/
def endsWith (c : Cursor) (t : Text) : Bool :=
  t.length ≤ c.remaining && t.isSuffixOf c.source

/-- Where the text occurs first at or after `offset` characters from the cursor. -/
def find? (c : Cursor) (t : Text) (offset : Int) : Option Nat :=
  let start := c.source.index (c.pos + offset)
  if start ≤ c.source.length then
    (Text.indexOf? (c.source.drop start) t).map (start + ·)
  else none

/-! ## Moving -/

/-- The cursor `n` characters further on, at most at the end of the source. A negative `n` leads
back. -/
def advance (c : Cursor) (n : Int) : Cursor :=
  { c with pos := min (c.pos + n) c.source.length }

/-- The cursor at a position of the same source, at most at one of its ends. -/
def goTo (c : Cursor) (pos : Int) : Cursor :=
  { c with pos := min (max pos 0) c.source.length }

def toEnd (c : Cursor) : Cursor :=
  { c with pos := c.source.length }

/-! ## Looking back -/

/-- The text between an earlier cursor and this one. -/
def since (c start : Cursor) : Text :=
  c.source.slice start.pos c.pos

/-- Line and column of the cursor, both from 1. -/
def lineCol (c : Cursor) : Int × Int :=
  c.source.lineCol c.pos 0

/-! ## Facts about the operations -/

theorem atEnd_iff {c : Cursor} : c.atEnd = true ↔ (c.source.length : Int) ≤ c.pos :=
  decide_eq_true_iff

theorem rest_of_nonneg {c : Cursor} (h : 0 ≤ c.pos) : c.rest = c.source.drop c.pos.toNat := by
  rw [rest, Text.index_of_nonneg _ h]

theorem length_rest {c : Cursor} (h : 0 ≤ c.pos) : c.rest.length = c.remaining := by
  rw [rest_of_nonneg h, List.length_drop, remaining]
  omega

@[simp] theorem advance_source (c : Cursor) (n : Int) : (c.advance n).source = c.source :=
  rfl

@[simp] theorem goTo_source (c : Cursor) (pos : Int) : (c.goTo pos).source = c.source :=
  rfl

/-- Moving forward drops what was in front. -/
theorem rest_advance {c : Cursor} (h : 0 ≤ c.pos) (n : Nat) :
    (c.advance n).rest = c.rest.drop n := by
  have hn : 0 ≤ (c.advance n).pos := by simp only [advance]; omega
  rw [rest_of_nonneg h, rest_of_nonneg hn, List.drop_drop]
  simp only [advance]
  rcases Int.le_total (c.pos + n) c.source.length with hl | hl
  · congr 1; omega
  · rw [List.drop_eq_nil_of_le (by omega), List.drop_eq_nil_of_le (by omega)]

/-- From a position of the source on, one meets what remains. -/
theorem ahead_of_nonneg {c : Cursor} (h : 0 ≤ c.pos) : c.ahead = .ok c.rest := by
  rw [ahead, if_neg (by omega), if_neg (by omega)]

end Cursor

end ParserAlgebra
