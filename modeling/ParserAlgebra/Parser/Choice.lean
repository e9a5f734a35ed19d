import ParserAlgebra.Parser.Basic

/-!
# Choices

Several parsers at the same cursor.
-/

namespace ParserAlgebra.Parser

variable {σ : Type}

/-- `p`, or `q` if `p` fails. -/
def choice (p q : Parser σ) : Parser σ where
  name := nameOf "choice" [p, q]
  run c := do
    match ← p.run c with
    | .success v d => return .success v d
    | .failure _ => q.run c

/-- The first of the parsers `p :: ps` that matches, and the failure of the last if none does. -/
def firstOf (p : Parser σ) : List (Parser σ) → Parser σ
  | [] => p
  | q :: qs => choice p (firstOf q qs)

/-- The first of the parsers that matches, for a combinator that needs at least one parser. -/
def anyOf (combinator : String) : List (Parser σ) → Except Fault (Parser σ)
  | [] => .error (.ofCause (.noTerminators combinator))
  | p :: ps => .ok (firstOf p ps)

/-- The first of the parsers that matches. There must be at least one. -/
def choiceN (ps : List (Parser σ)) : Except Fault (Parser σ) :=
  anyOf "choice_n" ps

/-- The outcome of `q` if both parsers match. -/
def both (p q : Parser σ) : Parser σ where
  name := nameOf "and_" [p, q]
  run c := do
    match ← p.run c with
    | .failure m => return .failure m
    | .success .. => q.run c

/-- The outcome of the parser that matches if exactly one does. Both are run. -/
def xor (p q : Parser σ) : Parser σ where
  name := nameOf "xor" [p, q]
  run c := do
    let first ← p.run c
    let second ← q.run c
    match first, second with
    | .success v d, .failure _ => return .success v d
    | .failure _, .success v d => return .success v d
    | .success .., .success .. =>
      return .fail c (Wording.expectedOneAlternative true) []
    | .failure _, .failure _ =>
      return .fail c (Wording.expectedOneAlternative false) []

/-- `p`, or what `q` takes without its value if `p` fails. -/
def choiceKeepFirst (p q : Parser σ) : Parser σ where
  name := nameOf "choice_keep_first" [p, q]
  run c := do
    match ← p.run c with
    | .success v d => return .success v d
    | .failure _ =>
      match ← q.run c with
      | .failure m => return .failure m
      | .success _ d => return .success .none d

end ParserAlgebra.Parser
