import ParserAlgebra.Proofs.Conformance
import ParserAlgebra.Session.Definition

/-!
# The failure contract
-/

namespace ParserAlgebra

open Cursor Parse

variable {σ : Type}

/-- An outcome of a run from `c` keeps the contract. -/
def Outcome.KeepsContract (c : Cursor) : Outcome → Prop
  | success _ d => d.source = c.source ∧ c.pos ≤ d.pos ∧ d.pos ≤ c.source.length
  | failure m => m.cursor = c

/-- On every cursor of a source, whatever the parser returns keeps the contract. -/
def Parser.Conforming (p : Parser σ) : Prop :=
  ∀ c : Cursor, c.InSource → ∀ s o s', (p.run c).run s = .ok o s' → o.KeepsContract c

/-- The parser that an operand is, if it is one, is conforming. -/
def Operand.Conforming : Operand σ → Prop
  | literal _ => True
  | parser p => p.Conforming

/-- All primitives and combinators are admitted, and of the parsers from outside those with the property. -/
def Vocabulary.ofGiven {ρ : Type} (P : ρ → Prop) (ω : Type) : Vocabulary ρ ω where
  leaf _ := True
  given := P
  unary _ _ := True
  nary _ _ := True
  observer _ := True

theorem Outcome.keepsContract_iff {c : Cursor} (hc : c.InSource) (o : Outcome) :
    o.KeepsContract c ↔ o.Fits c := by
  cases o with
  | success v d => exact (reaches_iff hc).symm
  | failure m => exact Iff.rfl

theorem Parser.conforming_iff {p : Parser σ} : p.Conforming ↔ p.ConformsOn True InSource := by
  constructor
  · intro h c hc
    exact returns_of_run fun s o s' hr => (o.keepsContract_iff hc).1 (h c hc s o s' hr)
  · intro h c hc s o s' hr
    exact (o.keepsContract_iff hc).2 ((h c hc).of_run hr)

theorem Operand.Conforming.toParser {x : Operand σ} (h : x.Conforming) :
    x.toParser.ConformsOn True InSource := by
  cases x with
  | literal t => exact Parser.conformsOn_text t
  | parser p => exact Parser.conforming_iff.1 h

namespace Parser

/-! ## The parts of the contract -/

theorem conforming_of_binary {f : Binary} {x y : Operand σ} {p : Parser σ} (hx : x.Conforming)
    (hy : y.Conforming) (h : f.apply x y = .ok p) : p.Conforming := by
  rw [Binary.apply_eq_join h]
  exact conforming_iff.2 (hx.toParser.join onward_inSource f hy.toParser)

theorem conforming_of_nary {f : Nary} {xs : List (Operand σ)} {y : Operand σ}
    (hxs : ∀ x ∈ xs, x.Conforming) (h : f.apply xs = .ok y) : y.Conforming := by
  rcases Nary.apply_cases h with ⟨t, rfl⟩ | ⟨ps, p, hps, hp, rfl⟩
  · trivial
  · have hmem := mapM_require hps
    exact conforming_iff.2 (conformsOn_applyAll onward_inSource (f.fitFor_true _ ps) hp fun q hq =>
      conforming_iff.1 (hxs _ (hmem q hq)))

theorem conforming_of_expr {e : Expr (Parser σ) (Observer σ)} {p : Parser σ}
    (he : e.Within (.ofGiven Conforming _)) (h : e.toParser = .ok p) : p.Conforming := by
  obtain ⟨o, ho, h⟩ := bind_eq_ok h
  have hP : HandsOn id id (.ofGiven Conforming (Observer σ)) fun p => p.ConformsOn True InSource :=
    handsOn_conformsOn onward_inSource (fun l _ => l.fitFor_true) (fun r hr => conforming_iff.1 hr)
      (fun f _ p _ _ => f.fitFor_true _ p) (fun f _ ps _ _ => f.fitFor_true _ ps) fun o _ => o.fitFor_true
  have hp := build_handsOn hP e he ho
  rw [Operand.require_eq_ok h] at hp
  exact conforming_iff.2 hp

/-! ## The contract -/

/-- Every primitive is conforming, every combinator and observer is if the parsers given to it are, and so
is whatever an expression of any depth builds from parsers that are. -/
theorem conforming_closure :
    (∀ (l : Leaf) (p : Parser σ), l.build = .ok p → p.Conforming) ∧
    (∀ (f : Unary) (p : Parser σ), p.Conforming → (f.apply p).Conforming) ∧
    (∀ (f : Binary) (x y : Operand σ) (p : Parser σ), x.Conforming → y.Conforming →
      f.apply x y = .ok p → p.Conforming) ∧
    (∀ (f : Nary) (xs : List (Operand σ)) (y : Operand σ), (∀ x ∈ xs, x.Conforming) →
      f.apply xs = .ok y → y.Conforming) ∧
    (∀ (f : Region) (x y : Operand σ) (p : Parser σ), x.Conforming → y.Conforming →
      f.apply x y = .ok p → p.Conforming) ∧
    (∀ (o : Observer σ) (p : Parser σ), p.Conforming → (o.apply p).Conforming) ∧
    (∀ (e : Expr (Parser σ) (Observer σ)) (p : Parser σ), e.Within (.ofGiven Conforming _) →
      e.toParser = .ok p → p.Conforming) := by
  refine ⟨?leaf, ?unary, ?binary, ?nary, ?region, ?observer, ?nested⟩
  case leaf => exact fun l p h => conforming_iff.2 (conformsOn_leaf onward_inSource l.fitFor_true h)
  case unary => exact fun f p hp => conforming_iff.2 ((conforming_iff.1 hp).unary onward_inSource (f.fitFor_true _ p))
  case binary => exact fun f x y p hx hy h => conforming_of_binary hx hy h
  case nary => exact fun f xs y hxs h => conforming_of_nary hxs h
  case region =>
    exact fun f x y p hx hy h =>
      conforming_iff.2 (conformsOn_region onward_inSource hx.toParser hy.toParser h)
  case observer => exact fun o p hp => conforming_iff.2 ((conforming_iff.1 hp).observe onward_inSource o.fitFor_true)
  case nested => exact fun e p he h => conforming_of_expr he h

/-- A parser from outside takes two characters. Numbers with such a pair in front, or pairs, up to the
first semicolon: the nested parser is conforming since the pair is. -/
theorem conforming_pairs :
    let pair := Session.takeChars 2 "pair"
    let item := (pair.seq number).choice pair
    pair.Conforming ∧ (item.zeroOrMore.before (.text ";")).Conforming := by
  intro pair item
  have hpair : pair.Conforming := by
    refine conforming_iff.2 (conformsOn_ofOutcome fun c _ => ?_)
    split
    · rfl
    · exact c.reaches_advance (by omega)
  let e : Expr (Parser Session.Board) (Observer Session.Board) :=
    .binary .before
      (.unary .zeroOrMore (.binary .choice (.binary .seq (.given pair) (.leaf .number)) (.given pair)))
      (.literal ";")
  have he : e.Within (.ofGiven Conforming _) := ⟨⟨trivial, ⟨hpair, trivial⟩, hpair⟩, trivial⟩
  exact ⟨hpair, conforming_closure.2.2.2.2.2.2 e _ he rfl⟩

end Parser

end ParserAlgebra
