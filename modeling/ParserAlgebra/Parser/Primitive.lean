import ParserAlgebra.CharClass
import ParserAlgebra.Number.Numeral
import ParserAlgebra.Parser.Basic

/-!
# Primitive parsers

They look at what comes behind the cursor and at nothing else. A match yields the text it took; a
mismatch stays at the cursor.
-/

namespace ParserAlgebra.Parser

variable {σ : Type}

def satisfy (k : CharClass) : Parser σ where
  name := k.name
  run c := do
    let mismatch := Outcome.fail c (Wording.expected k.name) k.expected
    if c.atEnd then return mismatch
    let ch ← c.current
    if ← k.test ch then return .success (.text [ch]) (c.advance 1)
    return mismatch

def text (t : Text) : Parser σ :=
  ofOutcome (Wording.call "text" [t.quote]) fun c =>
    if c.startsWith t then .success (.text t) (c.advance t.length)
    else .fail c (Wording.expected t.quote) [t]

instance : Coe Text (Parser σ) := ⟨text⟩

def exponentiation : Parser σ := text "**"

/-- The text `t`, if nothing follows it. -/
def textExact (t : Text) : Parser σ :=
  ofOutcome (Wording.call "text_exact" [t.quote]) fun c =>
    if c.rest = t then .success (.text t) (c.advance t.length)
    else .fail c (Wording.expectedExactly t) [t]

/-- Tests that the remaining text ends with `t`, and takes nothing. -/
def endsWith (t : Text) : Parser σ :=
  ofOutcome (Wording.call "ends_with" [t.quote]) fun c =>
    if c.endsWith t then .success (.text t) c
    else .fail c (Wording.expectedEnding t) [t]

/-- The next `n` characters as the outcome of a match. -/
def taken (c : Cursor) (n : Int) : Outcome :=
  .success (.text (c.sliceAhead n)) (c.advance n)

/-- The longest numeral. -/
def number : Parser σ where
  name := Wording.call "number" []
  run c := do
    match Numeral.length? (← c.ahead) with
    | some n => return taken c n
    | none => return .fail c Wording.expectedNumber Wording.digits

/-- The length of the longest identifier at the beginning: a letter or an underscore, and any number
of letters, characters with a numeric value and underscores behind it. -/
def identifierLength? : Text → Option Nat
  | ch :: t =>
    if Unicode.isLetter ch || ch == '_' then
      some (1 + (t.takeWhile fun ch => Unicode.isAlphanumeric ch || ch == '_').length)
    else none
  | [] => none

def identifier : Parser σ where
  name := Wording.call "c_identifier" []
  run c := do
    match identifierLength? (← c.ahead) with
    | some n => return taken c n
    | none => return .fail c Wording.expectedIdentifier Wording.identifierStart

/-- The next `n` characters, which stay. -/
def peek (n : Int) : Except Fault (Parser σ) :=
  if n < 0 then .error (.ofCause (.negativeCount "peek" n))
  else .ok <| ofOutcome (Wording.call "peek" [Text.ofInt n]) fun c =>
    if c.remaining < n then .fail c (Wording.expectedCharacters n) []
    else .success (.text (c.sliceAhead n)) c

/-- Skips `n` characters, fewer at the end of the input, none if `n` is negative. -/
def skip (n : Int) : Parser σ :=
  ofOutcome (Wording.call "go_to" [Text.ofInt n]) fun c => .success .none (c.advance (max n 0))

end ParserAlgebra.Parser
