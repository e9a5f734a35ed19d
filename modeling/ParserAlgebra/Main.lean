import ParserAlgebra.Demonstration

/-!
# Command line

Prints the demonstrations that are named as arguments, both of them if none is.
-/

namespace ParserAlgebra.Demonstration

/-- The text of a demonstration, or of the fault that ended it. -/
def shown (text : Except Fault Text) : String :=
  match text with
  | .ok t => String.ofList t
  | .error fault => String.ofList (fault.message?.getD "no demonstration")

def named? : String → Option String
  | "calculator" => some (shown calculator)
  | "quickstart" => some (shown quickstart)
  | _ => none

end ParserAlgebra.Demonstration

/-- Prints the demonstrations that the arguments name. -/
def main (args : List String) : IO UInt32 := do
  for name in if args.isEmpty then ["quickstart", "calculator"] else args do
    match ParserAlgebra.Demonstration.named? name with
    | some t => IO.print t
    | none =>
      IO.eprintln s!"unknown demonstration: {name}"
      return 1
  return 0
