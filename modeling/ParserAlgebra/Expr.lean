import ParserAlgebra.Locale
import ParserAlgebra.Observer
import ParserAlgebra.Parser.Assertion
import ParserAlgebra.Parser.Packing
import ParserAlgebra.Parser.Region
import ParserAlgebra.Precedence

/-!
# Parser expressions

An expression says how a parser is built from primitives and combinators. Its leaves may also be
parsers from outside, named by `ρ`, and its observers are named by `ω`; a `Builder` says what these
names mean. Building goes from left to right and from the arguments to the combinator, so the first
unfit argument in this order is the one that is reported.

A text may stand in the place of a parser where an operand may be a text. The choice among a single
text is that text.
-/

namespace ParserAlgebra

/-- A primitive, with the arguments it is built from. -/
inductive Leaf where
  | satisfy (k : CharClass)
  | text (t : Text)
  | textExact (t : Text)
  | endsWith (t : Text)
  | number
  | identifier
  | peek (n : Int)
  | skip (n : Int)
  | precedence (table : PrecedenceTable) (exact : Bool)
  | localeNumber (data : Installation) (locale : Text)
  | betweenStar (opening closing : Text)
  | captureBetweenText (opening closing : Text)
  | ignoreBetweenText (opening closing : Text)

inductive Unary where
  | zeroOrMore
  | oneOrMore
  | exactly (n : Int)
  | lookahead
  | negate
  | ignore
  | ifCondition (test : Test Outcome)
  | elseCondition (test : Test Outcome)
  | applyIf (test : Test Text)
  | applyElse (test : Test Text)
  | pack
  | unpack
  | «until» (yield : Yield) (stance : Stance)
  | loop (yield : Yield) (stance : Stance)

inductive Binary where
  | seq
  | choice
  | both
  | xor
  | seqKeepFirst
  | choiceKeepFirst
  | before
  | after

/-- A combinator of any number of parsers. -/
inductive Nary where
  | choice
  | seq (stance : Stance)
  | seqAt (stance : Stance)
  | «until» (yield : Yield) (stance : Stance)
  | loop (yield : Yield) (stance : Stance)

/-- A combinator of two delimiters. -/
inductive Region where
  | between
  | notBetween
  | capture
  | ignore

inductive Expr (ρ ω : Type) where
  /-- A text in the place of a parser. -/
  | literal (t : Text)
  /-- An expression that is a parser also if it is a text. -/
  | parserOf (e : Expr ρ ω)
  | leaf (l : Leaf)
  /-- A parser from outside. -/
  | given (r : ρ)
  | unary (f : Unary) (e : Expr ρ ω)
  | binary (f : Binary) (a b : Expr ρ ω)
  | nary (f : Nary) (es : List (Expr ρ ω))
  | region (f : Region) (opening closing : Expr ρ ω)
  /-- An expression under observation. -/
  | observe (o : ω) (e : Expr ρ ω)

variable {σ : Type}

/-! ## What the nodes build -/

def Leaf.build : Leaf → Except Fault (Parser σ)
  | satisfy k => .ok (.satisfy k)
  | text t => .ok (.text t)
  | textExact t => .ok (.textExact t)
  | endsWith t => .ok (.endsWith t)
  | number => .ok .number
  | identifier => .ok .identifier
  | peek n => Parser.peek n
  | skip n => .ok (.skip n)
  | precedence table exact => Parser.operatorPrecedence table exact
  | localeNumber data locale => Parser.localeNumber data locale
  | betweenStar opening closing => Parser.betweenStar opening closing
  | captureBetweenText opening closing => Parser.captureBetweenText opening closing
  | ignoreBetweenText opening closing => Parser.ignoreBetweenText opening closing

def Unary.apply : Unary → Parser σ → Parser σ
  | zeroOrMore, p => p.zeroOrMore
  | oneOrMore, p => p.oneOrMore
  | exactly n, p => p.exactly n
  | lookahead, p => p.lookahead
  | negate, p => p.negate
  | ignore, p => p.ignore
  | ifCondition test, p => p.ifCondition test
  | elseCondition test, p => p.elseCondition test
  | applyIf test, p => p.applyIf test
  | applyElse test, p => p.applyElse test
  | pack, p => p.pack
  | unpack, p => p.unpack
  | «until» yield stance, p => .until yield stance p
  | loop yield stance, p => .loop yield stance p

/-- The combinator applied to two operands. What precedes or follows a parser may be a text. -/
def Binary.apply : Binary → Operand σ → Operand σ → Except Fault (Parser σ)
  | seq, p, q => return (← p.require).seq (← q.require)
  | choice, p, q => return (← p.require).choice (← q.require)
  | both, p, q => return (← p.require).both (← q.require)
  | xor, p, q => return (← p.require).xor (← q.require)
  | seqKeepFirst, p, q => return (← p.require).seqKeepFirst (← q.require)
  | choiceKeepFirst, p, q => return (← p.require).choiceKeepFirst (← q.require)
  | before, p, q => return (← p.require).before q.toParser
  | after, p, q => return (← p.require).after q.toParser

def Nary.applyAll : Nary → List (Parser σ) → Except Fault (Parser σ)
  | choice, ps => Parser.choiceN ps
  | seq stance, ps => .ok (.seqN stance ps)
  | seqAt stance, ps => .ok (.seqAt stance ps)
  | «until» yield stance, ps => Parser.untilN yield stance ps
  | loop yield stance, ps => Parser.loopN yield stance ps

def Nary.apply : Nary → List (Operand σ) → Except Fault (Operand σ)
  | choice, [.literal t] => .ok (.literal t)
  | f, os => return .parser (← f.applyAll (← os.mapM Operand.require))

def Region.apply : Region → Operand σ → Operand σ → Except Fault (Parser σ)
  | between, opening, closing => Parser.between opening closing
  | notBetween, opening, closing => Parser.notBetween opening closing
  | capture, opening, closing => Parser.captureBetween opening closing
  | ignore, opening, closing => Parser.ignoreBetween opening closing

/-! ## Building -/

/-- What the names in an expression mean, in a setting `m` in which parsers are built. -/
structure Builder (m : Type → Type) (σ ρ ω : Type) where
  /-- The parser with a name. -/
  given : ρ → m (Parser σ)
  /-- Puts the operand under observation that the second argument builds. -/
  observe : ω → m (Operand σ) → m (Parser σ)

namespace Expr

variable {ρ ω : Type} {m : Type → Type} [Monad m] [MonadLiftT (Except Fault) m]

mutual
/-- The text or the parser that an expression describes. -/
def build (b : Builder m σ ρ ω) : Expr ρ ω → m (Operand σ)
  | .literal t => return .literal t
  | .parserOf e => do
    let o ← e.build b
    return .parser o.toParser
  | .leaf l => do
    let p ← liftM (l.build : Except Fault (Parser σ))
    return .parser p
  | .given r => do
    let p ← b.given r
    return .parser p
  | .unary f e => do
    let o ← e.build b
    let p ← liftM o.require
    return .parser (f.apply p)
  | .binary f e₁ e₂ => do
    let o₁ ← e₁.build b
    let o₂ ← e₂.build b
    let p ← liftM (f.apply o₁ o₂)
    return .parser p
  | .nary f es => do
    let os ← buildAll b es
    liftM (f.apply os)
  | .region f e₁ e₂ => do
    let o₁ ← e₁.build b
    let o₂ ← e₂.build b
    let p ← liftM (f.apply o₁ o₂)
    return .parser p
  | .observe o e => do
    let p ← b.observe o (e.build b)
    return .parser p

/-- The texts and parsers that the expressions describe. -/
def buildAll (b : Builder m σ ρ ω) : List (Expr ρ ω) → m (List (Operand σ))
  | [] => return []
  | e :: es => do
    let o ← e.build b
    let os ← buildAll b es
    return o :: os
end

end Expr

/-! ## Expressions over parsers and callbacks -/

/-- An observer, with its callbacks or the place it writes to. -/
inductive Observer (σ : Type) where
  | matcher (onSuccess : Rule → Parse σ Unit) (onFailure : Option (Rule → Parse σ Unit))
  | track (record : Mark → σ → σ)

def Observer.apply : Observer σ → Parser σ → Parser σ
  | matcher onSuccess onFailure, p => p.matcher onSuccess onFailure
  | track record, p => p.track record

/-- Names are the parsers and observers themselves. -/
def Builder.plain : Builder (Except Fault) σ (Parser σ) (Observer σ) where
  given := .ok
  observe o p := do
    let p ← (← p).require
    return o.apply p

/-- The parser that an expression over parsers and callbacks describes. -/
def Expr.toParser (e : Expr (Parser σ) (Observer σ)) : Except Fault (Parser σ) := do
  (← e.build .plain).require

end ParserAlgebra
