import ParserAlgebra.Parser.Primitive

/-!
# Operands

A combinator is given parsers. In a few places, such as the delimiters of a region, it may be given a
text instead, which stands for the parser of that text; everywhere else a text is a fault.
-/

namespace ParserAlgebra

/-- What a combinator is given: a text, or a parser. -/
inductive Operand (σ : Type) where
  | literal (t : Text)
  | parser (p : Parser σ)

namespace Operand

variable {σ : Type}

/-- The operand as a parser, where a text will do. -/
def toParser : Operand σ → Parser σ
  | literal t => .text t
  | parser p => p

/-- The parser that an operand must be. -/
def require : Operand σ → Except Fault (Parser σ)
  | literal _ => .error .noParser
  | parser p => .ok p

def literal? : Operand σ → Option Text
  | literal t => some t
  | parser _ => none

/-- The operand in messages about itself. -/
def display : Operand σ → Text
  | literal t => t.quote
  | parser p => p.display

/-- Runs an operand, which must be a parser. -/
def run : Operand σ → Cursor → Parse σ Outcome
  | literal _, _ => throw .wrongKind
  | parser p, c => p.run c

end Operand

end ParserAlgebra
