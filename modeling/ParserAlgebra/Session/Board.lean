import ParserAlgebra.Observer

/-!
# Boards

A board keeps what observers write: a record for each scanner, the values added to each list, and the
events that were logged. A scanner may be replaced by a new one of the same name; parsers that were
built before go on writing to the old one, so a scanner is known by its name and its issue.
-/

namespace ParserAlgebra.Session

/-- A scanner among those of the same name. -/
structure ScannerId where
  name : Text
  issue : Nat
deriving DecidableEq

/-- Which scanner each name stands for. The first entry of a name counts. -/
abbrev Scope := List ScannerId

/-- The scanner that a name stands for. -/
def Scope.find? (scope : Scope) (name : Text) : Option ScannerId :=
  List.find? (·.name == name) scope

/-- A report that was logged, with the list at that moment if one was given. -/
structure Event where
  rule : Rule
  list : Option (List Value)
deriving DecidableEq

/-- What observers have written. -/
structure Board where
  /-- The records of all scanners, the latest first. -/
  scanners : List (ScannerId × Mark) := []
  /-- The lists by their names. -/
  lists : List (Text × List Value) := []
  events : List Event := []
  /-- The definitions that were built, each with what the names of scanners stood for. -/
  built : List (Text × Scope) := []
deriving Inhabited

namespace Board

/-! ## Scanners -/

/-- What the names of scanners stand for now. -/
def scope (b : Board) : Scope :=
  b.scanners.map (·.1)

/-- Makes a new scanner, which from now on the name stands for. -/
def addScanner (b : Board) (name : Text) : ScannerId × Board :=
  let id : ScannerId := { name, issue := (b.scope.filter (·.name == name)).length }
  (id, { b with scanners := (id, {}) :: b.scanners })

/-- The scanner that a name stands for in a scope, a new one if it stands for none. -/
def findScanner (b : Board) (scope : Scope) (name : Text) : ScannerId × Board :=
  match scope.find? name with
  | some id => (id, b)
  | none => b.addScanner name

/-- Replaces the record of a scanner. -/
def record (id : ScannerId) (mark : Mark) (b : Board) : Board :=
  { b with scanners := b.scanners.map fun (i, old) => if i = id then (i, mark) else (i, old) }

/-- The records of the scanners that names stand for now. -/
def marks (b : Board) : List (Text × Mark) :=
  let current := b.scanners.filter fun (id, _) => b.scope.find? id.name = some id
  current.map fun (id, mark) => (id.name, mark)

/-! ## Lists and events -/

/-- The values of a list. A list that does not exist yet is empty. -/
def list (b : Board) (name : Text) : List Value :=
  (b.lists.lookup name).getD []

/-- Makes an empty list unless there is one of that name. -/
def addList (name : Text) (b : Board) : Board :=
  if (b.lists.lookup name).isSome then b else { b with lists := b.lists ++ [(name, [])] }

/-- Adds a value at the end of a list. -/
def push (name : Text) (v : Value) (b : Board) : Board :=
  { b with lists := b.lists.map fun (n, vs) => if n = name then (n, vs ++ [v]) else (n, vs) }

def log (event : Event) (b : Board) : Board :=
  { b with events := b.events ++ [event] }

/-- Keeps what the names of scanners stand for as the scope of a definition. -/
def keep (definition : Text) (b : Board) : Board :=
  { b with built := (definition, b.scope) :: b.built }

end Board

end ParserAlgebra.Session
