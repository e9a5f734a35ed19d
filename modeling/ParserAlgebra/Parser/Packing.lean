import ParserAlgebra.Parser.Basic

/-!
# Packing

From one value to a tuple of one value, and back.
-/

namespace ParserAlgebra.Parser

variable {σ : Type}

/-- The value of `p` in a tuple, and an empty tuple if `p` fails. Never fails. -/
def pack (p : Parser σ) : Parser σ where
  name := nameOf "pack" [p]
  run c := do
    match ← p.run c with
    | .failure _ => return .success (.tuple []) c
    | .success v d => return .success (.tuple [v]) d

/-- The only element of the tuple that `p` yields. An empty tuple is a failure, several elements are
a fault. A text counts as a capture of its characters, whatever their number. -/
def unpack (p : Parser σ) : Parser σ where
  name := nameOf "unpack" [p]
  run c := do
    match ← p.run c with
    | .failure m => return .failure m
    | .success (.tuple []) _ => return .fail c (Wording.capturedNothing p.name) []
    | .success (.tuple [v]) d => return .success v d
    | .success (.tuple vs) _ => throw (.ambiguous vs.length)
    | .success (.text t) _ => throw (.ambiguous t.length)
    | .success .none _ => throw .wrongKind
    | .success (.int _) _ => throw .wrongKind

end ParserAlgebra.Parser
