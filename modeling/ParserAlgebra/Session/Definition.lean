import ParserAlgebra.Expr
import ParserAlgebra.Session.Board

/-!
# Definitions

Expressions of a session name their scanners and lists, and refer to definitions by name, which may
refer to each other and to themselves. A definition is built when a reference to it is first run, and
keeps the scanners that the names stand for then; a definition that cannot be built is tried again.
-/

namespace ParserAlgebra.Session

/-- What a callback does with a report. -/
inductive Action where
  /-- Adds it to the events. -/
  | log
  /-- Adds the value of the run to the list. -/
  | append
  | nothing
  | raise
deriving DecidableEq

/-- A parser of a session that is neither a primitive nor a combinator. -/
inductive Atom where
  /-- The definition of that name. -/
  | reference (definition : Text)
  /-- The next `count` characters, with a failure that says nothing. A negative `count` leads back. -/
  | take (count : Int) (name : Text)
  /-- A failure `distance` characters further on, or back if `distance` is negative. -/
  | failAhead (distance : Int) (message : Text) (expected : List Text)
deriving DecidableEq

/-- An observer that names where it writes. -/
inductive Watch where
  | matcher (onSuccess : Action) (onFailure : Option Action) (list : Option Text)
  | track (scanner : Text)
deriving DecidableEq

/-- A parser expression of a session. -/
abbrev Phrase := Expr Atom Watch

abbrev Definitions := List (Text × Phrase)

/-! ## Callbacks -/

/-- Does what an action says with a report. Adding to a list that was not given is a fault. -/
def Action.perform (list : Option Text) (rule : Rule) : Action → Parse Board Unit
  | log => modify fun b => b.log { rule, list := list.map b.list }
  | append =>
    match list with
    | some name => modify (Board.push name rule.result)
    | none => throw .noList
  | nothing => pure ()
  | raise => throw (.callback "callback failed")

/-! ## Parsers of a session -/

/-- The next `count` characters. -/
def takeChars (count : Int) (name : Text) : Parser Board :=
  .ofOutcome name fun c =>
    if c.remaining < count then .failure { cursor := c } else Parser.taken c count

/-- The name of all parsers that fail ahead. -/
def failAheadName : Text := "fail_ahead"

/-- A failure `distance` characters further on. -/
def failAhead (distance : Int) (message : Text) (expected : List Text) : Parser Board :=
  .ofOutcome failAheadName fun c => .fail (c.advance distance) message expected

/-- How an expression is built in the scope of a definition, or in the present one. -/
abbrev BuildIn := Option Scope → Phrase → Parse Board (Operand Board)

/-- The parser of a reference. It builds the definition and runs it. -/
def reference (defs : Definitions) (build : BuildIn) (definition : Text) : Parser Board where
  name := definition
  run c := do
    match defs.lookup definition with
    | none => throw .undefinedReference
    | some phrase =>
      match (← get).built.lookup definition with
      | some scope =>
        let p ← build (some scope) phrase
        p.run c
      | none =>
        let p ← build none phrase
        modify (Board.keep definition)
        p.run c

/-- The parser that records in the scanner of that name, which is made before the operand is built. -/
def buildTrack (scope : Option Scope) (scanner : Text) (operand : Parse Board (Operand Board)) :
    Parse Board (Parser Board) := do
  let board ← get
  let (id, board) := board.findScanner (scope.getD board.scope) scanner
  set board
  let p ← (← operand).require
  return p.track (Board.record id)

/-- The parser that reports to actions, whose list is made after the operand is built. -/
def buildMatcher (onSuccess : Action) (onFailure : Option Action) (list : Option Text)
    (operand : Parse Board (Operand Board)) : Parse Board (Parser Board) := do
  let p ← (← operand).require
  if let some name := list then modify (Board.addList name)
  return p.matcher (onSuccess.perform list)
    (onFailure.map fun action rule => action.perform list rule)

/-- What the names in an expression mean, if references are built by `build`. -/
def builderWith (defs : Definitions) (build : BuildIn) (scope : Option Scope) :
    Builder (Parse Board) Board Atom Watch where
  given
    | .reference definition => return reference defs build definition
    | .take count name => return takeChars count name
    | .failAhead distance message expected => return failAhead distance message expected
  observe
    | .matcher onSuccess onFailure list, p => buildMatcher onSuccess onFailure list p
    | .track scanner, p => buildTrack scope scanner p

/-- Builds an expression whose references may be followed `depth` deep. -/
def buildIn (defs : Definitions) : (depth : Nat) → BuildIn
  | 0, scope, phrase => phrase.build (builderWith defs (fun _ _ => throw .endless) scope)
  | depth + 1, scope, phrase => phrase.build (builderWith defs (buildIn defs depth) scope)

/-- How deep references are followed by runs that may come to so many positions. At one position no
definition refers to itself unless it goes on without end. -/
def depthFor (defs : Definitions) (reach : Nat) : Nat :=
  (defs.length + 1) * (reach + 2) + Parser.spareRounds

/-- Builds an expression of a session for runs from cursors up to the given reach. -/
def build (defs : Definitions) (reach : Nat) (phrase : Phrase) : Parse Board (Operand Board) :=
  buildIn defs (depthFor defs reach) none phrase

end ParserAlgebra.Session
