import ParserAlgebra.Text.Basic
import ParserAlgebra.Unicode.Printable

/-!
# Quoted text

Texts inside messages and names of parsers stand between apostrophes, or between quotation marks if
they hold an apostrophe and no quotation mark. Unprintable characters are written by their code.
-/

namespace ParserAlgebra.Text

def apostrophe : Char := '\x27'

def quotationMark : Char := '\x22'

def backslash : Char := '\x5c'

/-- The character that stands on both sides of the quoted text. -/
def quoteOf (t : Text) : Char :=
  if apostrophe ∈ t ∧ quotationMark ∉ t then quotationMark else apostrophe

/-- `n` in lower-case hexadecimal digits, filled up with zeros to the given width. -/
def hex (width n : Nat) : Text :=
  padLeft '0' width (Nat.toDigits 16 n)

/-- The shortest of the three forms of a character code that has room for `c`. -/
def escapeCode (c : Char) : Text :=
  if c.toNat < 0x100 then backslash :: 'x' :: hex 2 c.toNat
  else if c.toNat < 0x10000 then backslash :: 'u' :: hex 4 c.toNat
  else backslash :: 'U' :: hex 8 c.toNat

/-- One character of a text that stands between two `mark`s. -/
def escape (mark c : Char) : Text :=
  if c = mark ∨ c = backslash then [backslash, c]
  else if c = '\n' then [backslash, 'n']
  else if c = '\r' then [backslash, 'r']
  else if c = '\t' then [backslash, 't']
  else if Unicode.isPrintable c then [c]
  else escapeCode c

def quote (t : Text) : Text :=
  quoteOf t :: t.flatMap (escape (quoteOf t)) ++ [quoteOf t]

end ParserAlgebra.Text
