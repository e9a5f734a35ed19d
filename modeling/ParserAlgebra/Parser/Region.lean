import ParserAlgebra.Parser.Operand
import ParserAlgebra.Parser.Scan

/-!
# Regions

Text between two delimiters, which are texts or parsers. A region between two texts may begin
anywhere in the remaining text; what stands before it is used up along with it. The functions on
`Text` do the cutting, the parsers put it to work at a cursor.
-/

namespace ParserAlgebra

/-! ## Cutting regions out of a text -/

/-- A text around a region: what stands before its opening delimiter, between the delimiters, and
behind the closing one. -/
structure Span where
  before : Text
  inner : Text
  after : Text
deriving DecidableEq

namespace Text

/-- The region that begins with the first `opening` and ends with the next `closing`. -/
def span? (t opening closing : Text) : Option Span := do
  let (before, t) ← cut? opening t
  let (inner, after) ← cut? closing t
  return { before, inner, after }

/-- What is left behind the copies of the non-empty text `mark` at the beginning of `t`, if there are
at most `limit` of them. -/
def dropCopies (mark : Text) : (limit : Nat) → Text → Text
  | 0, t => t
  | limit + 1, t => if mark.isPrefixOf t then dropCopies mark limit (t.drop mark.length) else t

/-- The region that begins behind the first `opening` and its immediate copies, and ends with the next
`closing`. -/
def spanAbsorbing? (t opening closing : Text) : Option Span := do
  let (before, t) ← cut? opening t
  let (inner, after) ← cut? closing (dropCopies opening t.length t)
  return { before, inner, after }

/-- The text without its first `limit` regions. -/
def removeSpans (opening closing : Text) : (limit : Nat) → Text → Text
  | 0, t => t
  | limit + 1, t =>
    match t.span? opening closing with
    | none => t
    | some s => s.before ++ removeSpans opening closing limit s.after

/-- The text without its regions, for delimiters that are not empty. -/
def withoutSpans (t opening closing : Text) : Text :=
  removeSpans opening closing t.length t

end Text

namespace Parser

variable {σ : Type}

/-! ## Between two texts -/

def requireNonEmpty (combinator : String) (delimiters : List Text) : Except Fault Unit :=
  if delimiters.any List.isEmpty then .error (.ofCause (.emptyDelimiter combinator)) else .ok ()

/-- The name of a combinator of two delimiting texts. -/
def spanName (combinator : String) (opening closing : Text) : Text :=
  Wording.call combinator [opening.quote, closing.quote]

/-- The failure of a parser that needs text between delimiters. -/
def noTextBetween (c : Cursor) (opening closing : Text) : Outcome :=
  .fail c (Wording.expectedTextBetween opening closing) [opening, closing]

/-- The cursor behind a region of the remaining text, where what follows the region is left. -/
def behind (c : Cursor) (s : Span) : Cursor :=
  c.goTo (c.source.length - s.after.length)

/-- The text of a region, if it is not empty. -/
def betweenText (opening closing : Text) : Except Fault (Parser σ) := do
  requireNonEmpty "between" [opening, closing]
  return ofOutcome (spanName "between" opening closing) fun c =>
    match c.rest.span? opening closing with
    | some s =>
      if s.inner.isEmpty then noTextBetween c opening closing
      else .success (.text s.inner) (behind c s)
    | none => noTextBetween c opening closing

/-- The text of a region whose opening delimiter may be repeated, if it is not empty. -/
def betweenStar (opening closing : Text) : Except Fault (Parser σ) := do
  requireNonEmpty "between_star" [opening, closing]
  return ofOutcome (spanName "between_star" opening closing) fun c =>
    match c.rest.spanAbsorbing? opening closing with
    | some s =>
      if s.inner.isEmpty then noTextBetween c opening closing
      else .success (.text s.inner) (behind c s)
    | none => noTextBetween c opening closing

/-- The text of a region, empty or not. -/
def captureBetweenText (opening closing : Text) : Except Fault (Parser σ) := do
  requireNonEmpty "capture_between_text" [opening, closing]
  return ofOutcome (spanName "capture_between_text" opening closing) fun c =>
    match c.rest.span? opening closing with
    | some s => .success (.text s.inner) (behind c s)
    | none => .fail c (Wording.expectedRegion opening closing) [opening, closing]

/-- Skips a region that is not empty. -/
def ignoreBetweenText (opening closing : Text) : Except Fault (Parser σ) := do
  requireNonEmpty "ignore_between_text" [opening, closing]
  return ofOutcome (spanName "ignore_between_text" opening closing) fun c =>
    match c.rest.span? opening closing with
    | some s =>
      if s.inner.isEmpty then noTextBetween c opening closing else .success .none (behind c s)
    | none => noTextBetween c opening closing

/-- All of the remaining text without its regions. Never fails. -/
def notBetweenText (opening closing : Text) : Except Fault (Parser σ) := do
  requireNonEmpty "not_between" [opening, closing]
  return ofOutcome (spanName "not_between" opening closing) fun c =>
    .success (.text (c.rest.withoutSpans opening closing)) c.toEnd

/-! ## Between two parsers -/

/-- The cursor behind the first match of `opening` and its immediate repetitions. -/
def openRegion (opening : Parser σ) (c : Cursor) : Parse σ (Option Cursor) := do
  match ← search opening c with
  | none => return none
  | some f =>
    let (_, inner) ← repeated opening Cursor.atEnd f.stop
    return some inner

/-- The text from the opening delimiter to the next closing one, which stays. -/
def captureBetweenParsers (opening closing : Parser σ) : Parser σ where
  name := nameOf "capture_between" [opening, closing]
  run c := do
    match ← openRegion opening c with
    | none => return neverMatched c opening
    | some inner =>
      match ← search closing inner with
      | none => return neverMatched c closing
      | some f => return .success (.text (f.start.since inner)) f.start

/-- Skips a region together with the repetitions of its closing delimiter. -/
def ignoreBetweenParsers (opening closing : Parser σ) : Parser σ where
  name := nameOf "ignore_between" [opening, closing]
  run c := do
    match ← openRegion opening c with
    | none => return neverMatched c opening
    | some inner =>
      match ← search closing inner with
      | none => return neverMatched c closing
      | some f =>
        let (_, e) ← repeated closing Cursor.atEnd f.stop
        return .success .none e

/-! ## Between delimiters of either kind -/

/-- The text from the opening delimiter to the next closing one, which stays. Delimiters that are
texts must not be empty. -/
def captureBetween (opening closing : Operand σ) : Except Fault (Parser σ) := do
  requireNonEmpty "capture_between" ([opening, closing].filterMap Operand.literal?)
  return captureBetweenParsers opening.toParser closing.toParser

/-- Skips a region together with the repetitions of its closing delimiter. Delimiters that are texts
must not be empty. -/
def ignoreBetween (opening closing : Operand σ) : Except Fault (Parser σ) := do
  requireNonEmpty "ignore_between" ([opening, closing].filterMap Operand.literal?)
  return ignoreBetweenParsers opening.toParser closing.toParser

/-- The text of a region: between two texts it must not be empty and the closing delimiter is used
up, otherwise as `captureBetween`. -/
def between : (opening closing : Operand σ) → Except Fault (Parser σ)
  | .literal opening, .literal closing => betweenText opening closing
  | opening, closing => captureBetween opening closing

/-- What is left without regions: between two texts all of the remaining text without them, otherwise
as `ignoreBetween`. -/
def notBetween : (opening closing : Operand σ) → Except Fault (Parser σ)
  | .literal opening, .literal closing => notBetweenText opening closing
  | opening, closing => ignoreBetween opening closing

end Parser

end ParserAlgebra
