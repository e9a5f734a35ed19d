import ParserAlgebra.Proofs.Reading
import ParserAlgebra.Proofs.Conformance

/-!
# Parsing ends

`unpack` is left out, callbacks and predicates do not give up, and the scans that join texts have parsers of texts.
-/

namespace ParserAlgebra

open Cursor Parse

variable {σ : Type}

/-! ## Well-used combinators -/

/-- On cursors that do not stand before the source, all values of the parser are texts. -/
def Parser.TextValued (p : Parser σ) : Prop :=
  ∀ c : Cursor, 0 ≤ c.pos → ∀ s v d s', (p.run c).run s = .ok (.success v d) s' → ∃ t, v = .text t

/-- There are no parsers from outside, and the observers stand for themselves. -/
abbrev Builder.closed : Builder (Except Fault) σ Empty (Observer σ) :=
  .over Empty.elim id

/-- The parser that the expression builds, if it builds one, yields nothing but texts. -/
def Expr.TextValued (e : Expr Empty (Observer σ)) : Prop :=
  ∀ p, e.build .closed = .ok (.parser p) → p.TextValued

/-- If the leaf tests characters, the test never gives up. -/
def Leaf.WellUsed : Leaf → Prop
  | satisfy k => k.test.Answers
  | _ => True

/-- The combinator is not `unpack`, its test never gives up, and if it joins texts, the parser yields texts. -/
def Unary.WellUsed : Unary → Expr Empty (Observer σ) → Prop
  | unpack, _ => False
  | ifCondition test, _ | elseCondition test, _ => test.Answers
  | applyIf test, _ | applyElse test, _ => test.Answers
  | «until» yield _, e => yield = .whole → e.TextValued
  | loop yield _, e => yield = .whole → e.TextValued
  | _, _ => True

/-- If the combinator joins texts, the parsers yield texts. -/
def Nary.WellUsed : Nary → List (Expr Empty (Observer σ)) → Prop
  | «until» yield _, es => yield = .whole → ∀ e ∈ es, e.TextValued
  | loop yield _, es => yield = .whole → ∀ e ∈ es, e.TextValued
  | _, _ => True

/-- No callback of the observer gives up. -/
def Observer.NeverRaises : Observer σ → Prop
  | matcher onSuccess onFailure =>
    (∀ rule s, ∃ s', (onSuccess rule).run s = .ok () s') ∧
      ∀ report ∈ onFailure, ∀ rule s, ∃ s', (report rule).run s = .ok () s'
  | track _ => True

/-- Everything but `unpack`, with tests and callbacks that do not give up and texts where texts are joined. -/
def Vocabulary.wellUsed (σ : Type) : Vocabulary Empty (Observer σ) where
  leaf l := l.WellUsed
  given _ := True
  unary f e := f.WellUsed e
  nary f es := f.WellUsed es
  observer o := o.NeverRaises

/-! ## What is well used is fit -/

variable {p : Parser σ}

theorem Parser.textValued_iff : p.TextValued ↔ p.TextsOn NotBefore := by
  constructor
  · intro h c hc
    refine returns_of_run fun s o s' hr => ?_
    cases o with
    | success v d => exact h c hc s v d s' hr
    | failure m => trivial
  · intro h c hc s v d s' hr
    exact (h c hc).of_run hr

theorem Parser.textValued_satisfy (k : CharClass) : (satisfy k : Parser σ).TextValued := by
  refine textValued_iff.2 fun c _ => ?_
  unfold satisfy
  dsimp only
  split
  · exact returns_pure trivial
  · refine (returns_true _).bind fun ch _ => (returns_true _).bind fun _ _ => ?_
    split
    · exact returns_pure ⟨_, rfl⟩
    · exact returns_pure trivial

theorem Leaf.WellUsed.fitFor {l : Leaf} (hl : l.WellUsed) : l.FitFor False := by
  cases l with
  | satisfy k => exact Or.inr hl
  | _ => trivial

theorem Unary.WellUsed.fitFor {f : Unary} {e : Expr Empty (Observer σ)} (hf : f.WellUsed e)
    (he : e.build .closed = .ok (.parser p)) : f.FitFor False NotBefore p := by
  cases f with
  | unpack => exact hf
  | ifCondition test | elseCondition test | applyIf test | applyElse test => exact Or.inr hf
  | «until» yield stance => exact fun h => Or.inr (Parser.textValued_iff.1 (hf h p he))
  | loop yield stance => exact fun h => Or.inr (Parser.textValued_iff.1 (hf h p he))
  | _ => trivial

theorem Nary.WellUsed.fitFor {f : Nary} {es : List (Expr Empty (Observer σ))} {ps : List (Parser σ)}
    (hf : f.WellUsed es) (hes : ∀ q ∈ ps, ∃ e ∈ es, e.build .closed = .ok (.parser q)) :
    f.FitFor False NotBefore ps := by
  have htexts : (∀ e ∈ es, e.TextValued) → ∀ q ∈ ps, q.TextsOn NotBefore := by
    intro ht q hq
    obtain ⟨e, he, hb⟩ := hes q hq
    exact Parser.textValued_iff.1 (ht e he q hb)
  cases f with
  | «until» yield stance => exact fun h => Or.inr (htexts (hf h))
  | loop yield stance => exact fun h => Or.inr (htexts (hf h))
  | _ => trivial

theorem Observer.NeverRaises.fitFor {o : Observer σ} (ho : o.NeverRaises) : o.FitFor False := by
  cases o with
  | track record => trivial
  | matcher onSuccess onFailure =>
      refine ⟨fun rule => returns_of_ends fun s => ?_, fun report hr rule => returns_of_ends fun s => ?_⟩
      · obtain ⟨s', h⟩ := ho.1 rule s
        exact ⟨(), s', h, trivial⟩
      · obtain ⟨s', h⟩ := ho.2 report hr rule s
        exact ⟨(), s', h, trivial⟩

namespace Parser

theorem handsOn_ends :
    HandsOn (Empty.elim : Empty → Parser σ) id (.wellUsed σ) fun p => p.ConformsOn False NotBefore :=
  handsOn_conformsOn onward_notBefore (fun _ hl => Leaf.WellUsed.fitFor hl) (fun r _ => r.elim) (fun _ _ _ hf he => Unary.WellUsed.fitFor hf he)
    (fun _ _ _ hf hes => Nary.WellUsed.fitFor hf hes) fun _ ho => Observer.NeverRaises.fitFor ho

/-! ## The result -/

/-- A well-used parser ends with an outcome from every cursor that does not stand before the source, past
the end included. What its primitives do at one go could be done by a reader that never looks beyond the
end, and the loops whose limits are silent end before these limits. -/
theorem ends_with_outcome :
    (∀ (e : Expr Empty (Observer σ)) (p : Parser σ), e.Within (.wellUsed σ) →
      e.build .closed = .ok (.parser p) →
      ∀ c : Cursor, 0 ≤ c.pos → ∀ s, ∃ o s', (p.run c).run s = .ok o s') ∧
    (∀ c : Cursor, 0 ≤ c.pos →
      c.readNumber = .ok ((Numeral.length? c.rest).map fun n : Nat => c.advance n) ∧
      c.readIdentifier = .ok ((identifierLength? c.rest).map fun n : Nat => c.advance n) ∧
      c.nextIs Unicode.isDecimal = .ok (NumberSymbols.digitNext c) ∧
      ∀ group limit, c.remaining ≤ limit →
        NumberSymbols.skipGrouped group limit c = NumberSymbols.skipGrouped group c.remaining c) ∧
    (∀ (opening closing t : Text) (limit : Nat), opening ≠ [] → t.length ≤ limit →
      Text.dropCopies opening limit t = Text.dropCopies opening t.length t ∧
      Text.removeSpans opening closing limit t = t.withoutSpans opening closing) := by
  refine ⟨?runs, ?reads, ?cuts⟩
  case runs =>
    intro e p he h c hc s
    obtain ⟨o, s', hr, -⟩ := (build_handsOn handsOn_ends e he h c hc).ends s
    exact ⟨o, s', hr⟩
  case reads =>
    intro c hc
    refine ⟨readNumber_eq hc, readIdentifier_eq hc, NumberSymbols.nextIs_isDecimal hc, ?_⟩
    intro group limit hl
    exact NumberSymbols.skipGrouped_limit group hc hl (Nat.le_refl _)
  case cuts =>
    intro opening closing t limit hopening hl
    exact ⟨Text.dropCopies_limit hopening hl (Nat.le_refl _),
      Text.removeSpans_limit hopening closing hl (Nat.le_refl _)⟩

/-- Digits are joined past the end of the source, where a callback counts the runs. A number is read there,
and delimiters are absorbed with more rounds than there are characters. -/
theorem digits_end_past_end :
    let count : Rule → Parse Nat Unit := fun _ => modify (· + 1)
    let e : Expr Empty (Observer Nat) :=
      .unary .zeroOrMore
        (.observe (.matcher count (some count)) (.unary (.loop .whole .consuming) (.leaf (.satisfy .digit))))
    let c : Cursor := { source := "12", pos := 5 }
    ∃ p : Parser Nat, e.build .closed = .ok (.parser p) ∧ e.Within (.wellUsed Nat) ∧
      (∃ o s', (p.run c).run 0 = .ok o s') ∧
      c.readNumber = .ok ((Numeral.length? c.rest).map fun n : Nat => c.advance n) ∧
      Text.dropCopies "(" 9 "((x" = Text.dropCopies "(" 3 "((x" := by
  intro count e c
  have hcount : ∀ rule s, ∃ s', (count rule).run s = .ok () s' := fun _ s => ⟨s + 1, rfl⟩
  have hdigit : (Expr.leaf (.satisfy .digit) : Expr Empty (Observer Nat)).TextValued := by
    intro p hp
    cases hp
    exact textValued_satisfy .digit
  have he : e.Within (.wellUsed Nat) := by
    refine ⟨trivial, ⟨hcount, fun report hreport => ?_⟩, fun _ => hdigit, Test.answers_total _⟩
    cases hreport
    exact hcount
  obtain ⟨hruns, hreads, hcuts⟩ := ends_with_outcome (σ := Nat)
  exact ⟨_, rfl, he, hruns e _ he rfl c (by decide) 0, (hreads c (by decide)).1,
    (hcuts "(" ")" "((x" 9 (by decide) (by decide)).1⟩

end Parser

end ParserAlgebra
