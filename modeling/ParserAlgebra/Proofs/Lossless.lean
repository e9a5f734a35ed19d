import ParserAlgebra.Proofs.Chain
import ParserAlgebra.Proofs.LocaleScan
import ParserAlgebra.Proofs.Nesting

/-!
# Lossless consumption

The value of a faithful parser is exactly the text that it took, and the texts of matches in a row abut.
-/

namespace ParserAlgebra

open Cursor Parse

variable {σ : Type}

/-! ## Faithful parsers -/

/-- On every cursor of a source, a match ends ahead in the source, and its value is the text taken. -/
def Parser.Faithful (p : Parser σ) : Prop :=
  ∀ c : Cursor, c.InSource → ∀ s v d s', (p.run c).run s = .ok (.success v d) s' →
    (d.source = c.source ∧ c.pos ≤ d.pos ∧ d.pos ≤ c.source.length) ∧
      v = .text (c.source.slice c.pos d.pos)

/-- On every cursor of a source, a match ends ahead in the source, and its value is a tuple of texts that
make up the text taken. -/
def Parser.FaithfulParts (p : Parser σ) : Prop :=
  ∀ c : Cursor, c.InSource → ∀ s v d s', (p.run c).run s = .ok (.success v d) s' →
    (d.source = c.source ∧ c.pos ≤ d.pos ∧ d.pos ≤ c.source.length) ∧
      ∃ vs, v = .tuple vs ∧ Value.concat? vs = some (c.source.slice c.pos d.pos)

/-- A match whose value is the text taken. -/
def StepRel.lossless : StepRel := fun c v d => c.Reaches d ∧ v = .text (d.since c)

/-- A match whose value has the text taken in parts. -/
def StepRel.losslessParts : StepRel := fun c v d =>
  c.Reaches d ∧ ∃ vs, v = .tuple vs ∧ Value.concat? vs = some (d.since c)

theorem StepRel.forward_lossless (D : Cursor → Prop) : StepRel.lossless.Forward D :=
  fun _ _ _ _ h => h.1

/-- Texts in a row abut. -/
theorem Chain.concat_lossless {c e : Cursor} {vs : List Value} (h : Chain StepRel.lossless c vs e)
    (hc : c.InSource) : Value.concat? vs = some (e.since c) := by
  induction h with
  | nil c => rw [since_self]; rfl
  | cons hm hchain ih =>
      obtain ⟨hd, rfl⟩ := hm
      have hdS := onward_inSource.reaches hc hd
      have he := hchain.reaches onward_inSource (StepRel.forward_lossless _) hdS
      rw [Value.concat?, ih hdS, Option.map_some, since_append hc hd he]

theorem Chain.isStep_parts {c e : Cursor} {vs : List Value} (h : Chain StepRel.lossless c vs e)
    (hc : c.InSource) : StepRel.losslessParts c (.tuple vs) e :=
  ⟨h.reaches onward_inSource (StepRel.forward_lossless _) hc, vs, rfl, h.concat_lossless hc⟩

namespace Parser

variable {p q : Parser σ}

theorem faithful_iff : p.Faithful ↔ p.StepsBy True InSource StepRel.lossless := by
  constructor
  · intro h c hc
    refine returns_of_run fun s o s' hr => ?_
    cases o with
    | failure m => trivial
    | success v d =>
        obtain ⟨hd, rfl⟩ := h c hc s v d s' hr
        refine ⟨(reaches_iff hc).2 hd, ?_⟩
        rw [since, hd.1]
  · intro h c hc s v d s' hr
    obtain ⟨hd, rfl⟩ := (h c hc).of_run hr
    refine ⟨(reaches_iff hc).1 hd, ?_⟩
    rw [since, hd.1]

theorem faithfulParts_of_stepsBy (h : p.StepsBy True InSource StepRel.losslessParts) : p.FaithfulParts := by
  intro c hc s v d s' hr
  obtain ⟨hd, vs, rfl, hvs⟩ := (h c hc).of_run hr
  refine ⟨(reaches_iff hc).1 hd, vs, rfl, ?_⟩
  rw [hvs, since, hd.1]

/-! ## Primitives -/

/-- A match that takes the next `n` characters is lossless if these are its value. -/
theorem lossless_advance {c : Cursor} (hc : c.InSource) {t : Text} {n : Nat} (ht : c.rest.take n = t) :
    StepRel.lossless c (.text t) (c.advance n) := by
  refine ⟨c.reaches_advance (by omega), ?_⟩
  rw [since_advance hc (by omega), sliceAhead_eq_take hc.1, ht]

theorem lossless_next {c : Cursor} (hc : c.InSource) (hend : ¬c.atEnd) :
    (liftM c.current : Parse σ Char).Returns True fun ch =>
      StepRel.lossless c (.text [ch]) (c.advance 1) := by
  obtain ⟨ch, t, hr, hcur⟩ := current_of_not_atEnd hc.1 hend
  exact returns_lift_ok hcur (lossless_advance hc (n := 1) (by rw [hr]; rfl))

theorem lossless_taken {c : Cursor} (hc : c.InSource) (n : Nat) :
    (taken c n).IsStep StepRel.lossless c :=
  lossless_advance hc (sliceAhead_eq_take hc.1 n).symm

theorem stepsBy_satisfy (k : CharClass) : (satisfy k : Parser σ).StepsBy True InSource StepRel.lossless := by
  intro c hc
  unfold satisfy
  dsimp only
  split
  · exact returns_pure trivial
  · rename_i hend
    refine (lossless_next hc hend).bind fun ch hch => (returns_true _).bind fun _ _ => ?_
    split
    · exact returns_pure hch
    · exact returns_pure trivial

theorem stepsBy_text (t : Text) : (text t : Parser σ).StepsBy True InSource StepRel.lossless := by
  intro c hc
  refine returns_pure ?_
  dsimp only
  split
  · rename_i h
    simp only [startsWith, Bool.and_eq_true] at h
    exact lossless_advance hc (List.prefix_iff_eq_take.1 (List.isPrefixOf_iff_prefix.1 h.2)).symm
  · trivial

theorem stepsBy_textExact (t : Text) : (textExact t : Parser σ).StepsBy True InSource StepRel.lossless := by
  intro c hc
  refine returns_pure ?_
  dsimp only
  split
  · rename_i h
    exact lossless_advance hc (by rw [h, List.take_length])
  · trivial

theorem stepsBy_number : (number : Parser σ).StepsBy True InSource StepRel.lossless := by
  intro c hc
  refine (returns_true _).bind fun t _ => ?_
  cases Numeral.length? t with
  | some n => exact returns_pure (lossless_taken hc n)
  | none => exact returns_pure trivial

theorem stepsBy_identifier : (identifier : Parser σ).StepsBy True InSource StepRel.lossless := by
  intro c hc
  refine (returns_true _).bind fun t _ => ?_
  cases identifierLength? t with
  | some n => exact returns_pure (lossless_taken hc n)
  | none => exact returns_pure trivial

theorem stepsBy_localeNumber {data : Installation} {locale : Text}
    (h : localeNumber data locale = .ok p) : p.StepsBy True InSource StepRel.lossless := by
  obtain ⟨s, -, h⟩ := bind_eq_ok h
  cases h
  intro c _
  dsimp only
  split
  · exact returns_pure trivial
  · refine (returns_true _).bind fun ch _ => ?_
    split
    · exact returns_pure ⟨(s.reaches_skipSign c).trans (s.reaches_skipDigits _), rfl⟩
    · exact returns_pure trivial

/-! ## Combinators -/

/-- Whatever is negated. -/
theorem stepsBy_negate (p : Parser σ) : p.negate.StepsBy True InSource StepRel.lossless := by
  intro c hc
  unfold negate
  dsimp only
  split
  · exact returns_pure trivial
  · rename_i hend
    refine (returns_true _).bind fun o _ => ?_
    cases o with
    | success v d => exact returns_pure trivial
    | failure m => exact (lossless_next hc hend).bind fun ch hch => returns_pure hch

/-- The text skipped and the text of the match abut. -/
theorem stepsBy_until (hp : p.StepsBy True InSource StepRel.lossless) :
    (Parser.until .whole .consuming p).StepsBy True InSource StepRel.lossless := by
  intro c hc
  refine (search_returns onward_inSource hp hc).bind fun found hfound => ?_
  cases found with
  | none => exact returns_pure trivial
  | some f =>
      obtain ⟨hstart, -, hstop, hv⟩ := hfound f rfl
      have hyield : yieldFound c f .whole = .ok (.text (f.stop.since c)) := by
        rw [yieldFound, hv]
        dsimp only
        rw [since_append hc hstart hstop]
      refine (returns_lift_ok (Q := (· = .text (f.stop.since c))) hyield rfl).bind fun v hv => ?_
      exact returns_pure ⟨hstart.trans hstop, hv⟩

theorem stepsBy_loop (hp : p.StepsBy True InSource StepRel.lossless) :
    (Parser.loop .whole .consuming p).StepsBy True InSource StepRel.lossless := by
  intro c hc
  have hM := StepRel.forward_lossless InSource
  refine (repeated_returns onward_inSource hM hp Cursor.atEnd hc).bind fun r hr => ?_
  have hloop : yieldLoop c p r.1 r.2 .whole = .ok (.success (.text (r.2.since c)) r.2) := by
    rw [yieldLoop, hr.concat_lossless hc]
  exact returns_lift_ok hloop ⟨hr.reaches onward_inSource hM hc, rfl⟩

theorem stepsBy_anyOf {combinator : String} {ps : List (Parser σ)} (h : anyOf combinator ps = .ok p)
    (hps : ∀ q ∈ ps, q.StepsBy True InSource StepRel.lossless) : p.StepsBy True InSource StepRel.lossless :=
  anyOf_handsOn (fun _ _ => Meets.choice) h hps

theorem stepsBy_observe (hp : p.StepsBy True InSource StepRel.lossless) (o : Observer σ) :
    (o.apply p).StepsBy True InSource StepRel.lossless := by
  cases o with
  | matcher onSuccess onFailure =>
      exact Meets.matcher hp (fun rule => returns_true _) fun report _ rule => returns_true _
  | track record =>
      exact Meets.track hp (Outcome.isStep_fail _) (fun _ _ _ _ _ _ => Or.inl trivial) record

/-! ## Parts -/

theorem stepsBy_zeroOrMore (hp : p.StepsBy True InSource StepRel.lossless) :
    p.zeroOrMore.StepsBy True InSource StepRel.losslessParts := by
  intro c hc
  have hM := StepRel.forward_lossless InSource
  refine (repeated_returns onward_inSource hM hp _ hc).bind fun r hr => ?_
  exact returns_pure (hr.isStep_parts hc)

theorem stepsBy_oneOrMore (hp : p.StepsBy True InSource StepRel.lossless) :
    p.oneOrMore.StepsBy True InSource StepRel.losslessParts := by
  intro c hc
  have hM := StepRel.forward_lossless InSource
  refine (repeated_returns onward_inSource hM hp _ hc).bind fun r hr => ?_
  dsimp only
  split
  · exact returns_pure trivial
  · exact returns_pure (hr.isStep_parts hc)

/-- Failed attempts take nothing. -/
theorem stepsBy_exactly (hp : p.StepsBy True InSource StepRel.lossless) (n : Int) :
    (p.exactly n).StepsBy True InSource StepRel.losslessParts := by
  intro c hc
  have hM := StepRel.forward_lossless InSource
  refine (attempts_returns onward_inSource hM hp n.toNat hc).bind fun r hr => ?_
  exact returns_pure (hr.isStep_parts hc)

theorem stepsBy_seqN {ps : List (Parser σ)} (hps : ∀ p ∈ ps, p.StepsBy True InSource StepRel.lossless) :
    (seqN .consuming ps).StepsBy True InSource StepRel.losslessParts := by
  intro c hc
  have hM := StepRel.forward_lossless InSource
  refine (collect_returns onward_inSource hM hps hc).bind fun r hr => ?_
  exact returns_pure (hr.isStep_parts hc)

end Parser

/-! ## The result -/

/-- The primitives whose value is the text they take. -/
def Leaf.TakesText : Leaf → Prop
  | satisfy _ | text _ | textExact _ | number | identifier | localeNumber .. => True
  | _ => False

/-- The combinators of any number of parsers that hand on the text they take. -/
def Nary.TakesText : Nary → Prop
  | choice | «until» .whole .consuming | loop .whole .consuming => True
  | _ => False

namespace Parser

variable {p q : Parser σ}

theorem faithful_leaf {l : Leaf} (hl : l.TakesText) (h : l.build = .ok p) : p.Faithful := by
  refine faithful_iff.2 ?_
  cases l with
  | satisfy k => cases h; exact stepsBy_satisfy k
  | text t => cases h; exact stepsBy_text t
  | textExact t => cases h; exact stepsBy_textExact t
  | number => cases h; exact stepsBy_number
  | identifier => cases h; exact stepsBy_identifier
  | localeNumber data locale => exact stepsBy_localeNumber h
  | endsWith _ | peek _ | skip _ | precedence _ _ | betweenStar _ _ | captureBetweenText _ _
  | ignoreBetweenText _ _ => exact hl.elim

theorem stepsBy_applyAll {f : Nary} (hf : f.TakesText) {ps : List (Parser σ)}
    (hps : ∀ q ∈ ps, q.StepsBy True InSource StepRel.lossless) (h : f.applyAll ps = .ok p) :
    p.StepsBy True InSource StepRel.lossless := by
  cases f with
  | choice => exact stepsBy_anyOf h hps
  | seq _ | seqAt _ => exact hf.elim
  | «until» yield stance =>
      obtain ⟨q, hq, h⟩ := bind_eq_ok h
      cases h
      cases yield with
      | last => exact hf.elim
      | whole =>
          cases stance with
          | ahead => exact hf.elim
          | consuming => exact stepsBy_until (stepsBy_anyOf hq hps)
  | loop yield stance =>
      obtain ⟨q, hq, h⟩ := bind_eq_ok h
      cases h
      cases yield with
      | last => exact hf.elim
      | whole =>
          cases stance with
          | ahead => exact hf.elim
          | consuming => exact stepsBy_loop (stepsBy_anyOf hq hps)

/-- Of operands that are faithful, a text in the place of a parser among them, a faithful operand comes. -/
theorem faithful_nary {f : Nary} (hf : f.TakesText) {xs : List (Operand σ)} {y : Operand σ}
    (hxs : ∀ x ∈ xs, x.toParser.Faithful) (h : f.apply xs = .ok y) : y.toParser.Faithful := by
  rcases Nary.apply_cases h with ⟨t, rfl⟩ | ⟨ps, p, hps, hp, rfl⟩
  · exact faithful_iff.2 (stepsBy_text t)
  · have hmem := mapM_require hps
    exact faithful_iff.2 (stepsBy_applyAll hf (fun q hq => faithful_iff.1 (hxs _ (hmem q hq))) hp)

/-- Primitives that take text, negations, and what is built from faithful parsers by choices, conditions,
observers and scans is faithful; the tuples of repetitions and sequences have the text taken in parts. -/
theorem faithful_closure :
    (∀ (l : Leaf) (p : Parser σ), l.TakesText → l.build = .ok p → p.Faithful) ∧
    (∀ p : Parser σ, p.negate.Faithful) ∧
    (∀ p q : Parser σ, p.Faithful → q.Faithful →
      (p.choice q).Faithful ∧ (p.xor q).Faithful ∧ (p.both q).Faithful) ∧
    (∀ p : Parser σ, p.Faithful →
      (∀ test, (p.ifCondition test).Faithful ∧ (p.elseCondition test).Faithful) ∧
      (∀ test, (p.applyIf test).Faithful ∧ (p.applyElse test).Faithful) ∧
      (∀ o : Observer σ, (o.apply p).Faithful) ∧
      (Parser.until .whole .consuming p).Faithful ∧ (Parser.loop .whole .consuming p).Faithful) ∧
    (∀ (f : Nary) (xs : List (Operand σ)) (y : Operand σ), f.TakesText →
      (∀ x ∈ xs, x.toParser.Faithful) → f.apply xs = .ok y → y.toParser.Faithful) ∧
    (∀ p : Parser σ, p.Faithful →
      p.zeroOrMore.FaithfulParts ∧ p.oneOrMore.FaithfulParts ∧ ∀ n, (p.exactly n).FaithfulParts) ∧
    (∀ ps : List (Parser σ), (∀ p ∈ ps, p.Faithful) → (seqN .consuming ps).FaithfulParts) := by
  refine ⟨?leaf, ?negate, ?two, ?one, ?nary, ?repeated, ?sequence⟩
  case leaf => exact fun l p hl h => faithful_leaf hl h
  case negate => exact fun p => faithful_iff.2 (stepsBy_negate p)
  case two =>
    intro p q hp hq
    have hp := faithful_iff.1 hp
    have hq := faithful_iff.1 hq
    have hfail := Outcome.isStep_fail StepRel.lossless
    exact ⟨faithful_iff.2 (hp.choice hq), faithful_iff.2 (hp.xor hq hfail), faithful_iff.2 (hp.both hq)⟩
  case one =>
    intro p hp
    have hp := faithful_iff.1 hp
    have hfail := Outcome.isStep_fail StepRel.lossless
    refine ⟨fun test => ⟨?_, ?_⟩, fun test => ⟨?_, ?_⟩, fun o => ?_, ?_, ?_⟩
    · exact faithful_iff.2 (hp.ifCondition hfail (Or.inl trivial))
    · exact faithful_iff.2 (hp.ifCondition hfail (Or.inl trivial))
    · exact faithful_iff.2 (hp.applyIf hfail (Or.inl trivial))
    · exact faithful_iff.2 (hp.applyIf hfail (Or.inl trivial))
    · exact faithful_iff.2 (stepsBy_observe hp o)
    · exact faithful_iff.2 (stepsBy_until hp)
    · exact faithful_iff.2 (stepsBy_loop hp)
  case nary => exact fun f xs y hf hxs h => faithful_nary hf hxs h
  case repeated =>
    intro p hp
    have hp := faithful_iff.1 hp
    exact ⟨faithfulParts_of_stepsBy (stepsBy_zeroOrMore hp), faithfulParts_of_stepsBy (stepsBy_oneOrMore hp),
      fun n => faithfulParts_of_stepsBy (stepsBy_exactly hp n)⟩
  case sequence =>
    intro ps hps
    exact faithfulParts_of_stepsBy (stepsBy_seqN fun p hp => faithful_iff.1 (hps p hp))

/-- Words, each up to the next blank with what is in front of it skipped over, lose nothing. -/
theorem faithful_words :
    let blank : Parser Unit := satisfy .space
    let word : Parser Unit := Parser.until .whole .consuming (blank.choice (text ";"))
    word.Faithful ∧ word.zeroOrMore.FaithfulParts ∧ (seqN .consuming [word, number, word]).FaithfulParts := by
  intro blank word
  have hblank : blank.Faithful := faithful_closure.1 (.satisfy .space) _ trivial rfl
  have hmark : (text ";" : Parser Unit).Faithful := faithful_closure.1 (.text ";") _ trivial rfl
  have hnumber : (number : Parser Unit).Faithful := faithful_closure.1 .number _ trivial rfl
  have hends : (blank.choice (text ";")).Faithful := (faithful_closure.2.2.1 _ _ hblank hmark).1
  have hword : word.Faithful := (faithful_closure.2.2.2.1 _ hends).2.2.2.1
  refine ⟨hword, (faithful_closure.2.2.2.2.2.1 _ hword).1, faithful_closure.2.2.2.2.2.2 _ ?_⟩
  intro p hp
  simp only [List.mem_cons, List.not_mem_nil, or_false] at hp
  rcases hp with rfl | rfl | rfl
  · exact hword
  · exact hnumber
  · exact hword

end Parser

end ParserAlgebra
