import ParserAlgebra.Parser.Choice
import ParserAlgebra.Parser.Repetition
import ParserAlgebra.Parser.Sequence

/-!
# Scans

`until` goes ahead to the first place where a parser matches, `loop` repeats a parser; both have four
forms, by what they yield and whether they use up the input. `seqAt` goes ahead to one parser after
another.

`until` does not try the parser at the end of the input, and `loop` does not either.
-/

namespace ParserAlgebra

/-- What a scan yields: the whole text it went over, or the value of the last match. -/
inductive Yield where
  | whole
  | last
deriving DecidableEq

/-- The part of a combinator's name that tells its yield. -/
def Yield.suffix : Yield → String
  | whole => ""
  | last => "_at"

/-- A match found by going ahead: where it begins, its value, and the cursor behind it. -/
structure Found where
  start : Cursor
  value : Value
  stop : Cursor

namespace Parser

variable {σ : Type}

/-! ## Going ahead to a match -/

/-- The first match of `p` at one of the next `count` cursors. -/
def searchAmong (p : Parser σ) : (count : Nat) → Cursor → Parse σ (Option Found)
  | 0, _ => return none
  | count + 1, c => do
    match ← p.run c with
    | .success v d => return some { start := c, value := v, stop := d }
    | .failure _ => searchAmong p count (c.advance 1)

/-- The first match of `p` before the end of the input. -/
def search (p : Parser σ) (c : Cursor) : Parse σ (Option Found) :=
  searchAmong p c.remaining c

/-- The failure of a scan in which `p` did not match. -/
def neverMatched (c : Cursor) (p : Parser σ) : Outcome :=
  .fail c (Wording.neverMatched p.name) [p.name]

/-- What a search from `c` yields. Only a text can be joined to the text that was skipped. -/
def yieldFound (c : Cursor) (f : Found) : Yield → Except Fault Value
  | .last => .ok f.value
  | .whole =>
    match f.value with
    | .text t => .ok (.text (f.start.since c ++ t))
    | _ => .error .wrongKind

/-- Goes ahead to the first match of `p`. -/
def «until» (yield : Yield) (stance : Stance) (p : Parser σ) : Parser σ where
  name := nameOf ("until" ++ stance.suffix ++ yield.suffix) [p]
  run c := do
    match ← search p c with
    | none => return neverMatched c p
    | some f =>
      let v ← yieldFound c f yield
      return .success v (stance.place c f.stop)

/-- Goes ahead to the first place where one of the parsers matches. -/
def untilN (yield : Yield) (stance : Stance) (ps : List (Parser σ)) : Except Fault (Parser σ) := do
  let p ← anyOf ("until" ++ stance.suffix ++ yield.suffix ++ "_n") ps
  return «until» yield stance p

/-! ## Repeating up to the end of the input -/

/-- What a repetition yields. The whole text needs texts only, the last value needs one. -/
def yieldLoop (c : Cursor) (p : Parser σ) (vs : List Value) (stop : Cursor) :
    Yield → Except Fault Outcome
  | .whole =>
    match Value.concat? vs with
    | some t => .ok (.success (.text t) stop)
    | none => .error .wrongKind
  | .last =>
    match vs.getLast? with
    | some v => .ok (.success v stop)
    | none => .ok (.fail c (Wording.expected p.name) [p.name])

/-- As many matches of `p` as there are before the end of the input. -/
def loop (yield : Yield) (stance : Stance) (p : Parser σ) : Parser σ where
  name := nameOf ("loop" ++ stance.suffix ++ yield.suffix) [p]
  run c := do
    let (vs, e) ← repeated p Cursor.atEnd c
    yieldLoop c p vs (stance.place c e) yield

/-- As many matches of one of the parsers as there are before the end of the input. -/
def loopN (yield : Yield) (stance : Stance) (ps : List (Parser σ)) : Except Fault (Parser σ) := do
  let p ← anyOf ("loop" ++ stance.suffix ++ yield.suffix ++ "_n") ps
  return loop yield stance p

/-! ## Going ahead several times -/

/-- Goes ahead to one parser after another up to the first that does not match any more, and gives
the values of those before it and the cursor behind them. -/
def collectAt : List (Parser σ) → Cursor → Parse σ (List Value × Cursor)
  | [], c => return ([], c)
  | p :: ps, c => do
    match ← search p c with
    | none => return ([], c)
    | some f =>
      let (vs, e) ← collectAt ps f.stop
      return (f.value :: vs, e)

/-- Goes ahead to one parser after another. Never fails. -/
def seqAt (stance : Stance) (ps : List (Parser σ)) : Parser σ where
  name := nameOf ("seq" ++ stance.suffix ++ "_at") ps
  run c := do
    let (vs, e) ← collectAt ps c
    return .success (.tuple vs) (stance.place c e)

end Parser

end ParserAlgebra
