import ParserAlgebra.Text.Basic

/-!
# Lines

LF, CR and CRLF each end a line. The break of a CRLF is its CR: a position between the two is
already in column 1 of the next line, and the LF does not move the column.

`countBreaks` and `lineCol` work on a range of a text by counting characters, `splitLines` reads the
text from left to right.
-/

namespace ParserAlgebra.Text

def isBreak (c : Char) : Bool :=
  c == '\n' || c == '\r'

/-- The number of CRs that are directly followed by an LF. -/
def countPairs : Text → Nat
  | [] => 0
  | '\r' :: '\n' :: t => countPairs t + 1
  | _ :: t => countPairs t

/-- The number of line breaks from the position `start` up to but not including `stop`: of LFs and CRs,
where an LF behind a CR does not count. A CR at the end of the range counts although its LF is outside,
and an LF does not count when its CR stands just before the range. For a negative `start` the CRs are
looked for from the beginning of the text, so there may be more of them than LFs. -/
def countBreaks (t : Text) (start stop : Int) : Int :=
  (t.slice start stop).count '\n' + (t.slice start stop).count '\r'
    - countPairs (t.slice (max (start - 1) 0) stop)

/-- Where the line of `pos` begins, if the text is read from `start` on: after the last break of the
range, or at `start`. -/
def lineStart (t : Text) (pos start : Int) : Int :=
  let range := t.slice start pos
  if range.any isBreak then
    t.index start + (range.length - (range.reverse.takeWhile (!isBreak ·)).length)
  else start

/-- Line and column of `pos`, both from 1, if the text is read from `start` on. -/
def lineCol (t : Text) (pos start : Int) : Int × Int :=
  (countBreaks t start pos + 1, pos - lineStart t pos start + 1)

/-- The lines of a text without their ends. There is one more than there are line ends. -/
def splitLines : Text → List Text
  | [] => [[]]
  | '\r' :: '\n' :: t => [] :: splitLines t
  | c :: t => if isBreak c then [] :: splitLines t else (splitLines t).modifyHead (c :: ·)

end ParserAlgebra.Text
