import ParserAlgebra.Proofs.Likeness

/-!
# Position independence

Behind any text a run gives the same with larger positions. What a tracker records is left out: whether the line break
before a match is half of a CRLF shows only in the text in front.
-/

namespace ParserAlgebra

open Cursor Parse

/-! ## A text in front -/

theorem Text.slice_append (a t : Text) (i j : Nat) :
    (a ++ t).slice (a.length + i : Nat) (a.length + j : Nat) = t.slice i j := by
  rw [slice_natCast, slice_natCast, List.take_length_add_append, List.drop_length_add_append]

namespace Cursor

/-- `c` stands where `d` does, in a source with `a` in front. -/
structure Shifted (a : Text) (c d : Cursor) : Prop where
  source : c.source = a ++ d.source
  pos : c.pos = a.length + d.pos
  notBefore : d.NotBefore

namespace Shifted

variable {a : Text} {c d : Cursor}

theorem notBefore_left (h : Shifted a c d) : c.NotBefore := by
  have hd := h.notBefore
  simp only [NotBefore] at hd ⊢
  rw [h.pos]
  omega

theorem length (h : Shifted a c d) : (c.source.length : Int) = a.length + d.source.length := by
  rw [h.source, List.length_append]
  omega

theorem atEnd (h : Shifted a c d) : c.atEnd = d.atEnd := by
  have hl := h.length
  have hp := h.pos
  simp only [Cursor.atEnd, decide_eq_decide]
  omega

theorem remaining (h : Shifted a c d) : c.remaining = d.remaining := by
  simp only [Cursor.remaining, h.length, h.pos]
  omega

theorem distance (h : Shifted a c d) : c.distance = d.distance := by
  simp only [Cursor.distance, h.length, h.pos]
  omega

theorem rest (h : Shifted a c d) : c.rest = d.rest := by
  have hd : 0 ≤ d.pos := h.notBefore
  have hn : c.pos.toNat = a.length + d.pos.toNat := by
    rw [h.pos]
    omega
  rw [rest_of_nonneg h.notBefore_left, rest_of_nonneg hd, h.source, hn, List.drop_length_add_append]

theorem ahead (h : Shifted a c d) : c.ahead = d.ahead := by
  rw [ahead_of_nonneg h.notBefore_left, ahead_of_nonneg h.notBefore, h.rest]

theorem current (h : Shifted a c d) (hend : ¬c.atEnd) : c.current = d.current := by
  obtain ⟨ch, t, hr, hc⟩ := current_of_not_atEnd h.notBefore_left hend
  obtain ⟨ch', t', hr', hd⟩ := current_of_not_atEnd h.notBefore (by rw [← h.atEnd]; exact hend)
  rw [h.rest, hr'] at hr
  cases hr
  rw [hc, hd]

theorem since {c' d' : Cursor} (h : Shifted a c d) (h' : Shifted a c' d') : c'.since c = d'.since d := by
  obtain ⟨i, hi⟩ := Int.eq_ofNat_of_zero_le h.notBefore
  obtain ⟨j, hj⟩ := Int.eq_ofNat_of_zero_le h'.notBefore
  have hi' : c.pos = (a.length + i : Nat) := by rw [h.pos, hi]; rfl
  have hj' : c'.pos = (a.length + j : Nat) := by rw [h'.pos, hj]; rfl
  simp only [Cursor.since, h'.source, hi, hj, hi', hj', Text.slice_append]

theorem sliceAhead (h : Shifted a c d) (n : Nat) : c.sliceAhead n = d.sliceAhead n := by
  rw [sliceAhead_eq_take h.notBefore_left, sliceAhead_eq_take h.notBefore, h.rest]

theorem startsWith (h : Shifted a c d) (t : Text) : c.startsWith t = d.startsWith t := by
  have hd : 0 ≤ d.pos := h.notBefore
  have hl := h.length
  have hp := h.pos
  simp only [Cursor.startsWith, h.rest, Text.index_of_nonneg _ hd,
    Text.index_of_nonneg _ h.notBefore_left]
  congr 1
  rw [decide_eq_decide]
  omega

theorem endsWith (h : Shifted a c d) (t : Text) : c.endsWith t = d.endsWith t := by
  simp only [Cursor.endsWith, h.remaining, h.source]
  by_cases hl : t.length ≤ d.remaining
  · have hd : 0 ≤ d.pos := h.notBefore
    have hlen : t.length ≤ d.source.length := by
      simp only [Cursor.remaining] at hl
      omega
    congr 1
    rw [Bool.eq_iff_iff, List.isSuffixOf_iff_suffix, List.isSuffixOf_iff_suffix]
    constructor
    · intro hs
      exact List.suffix_of_suffix_length_le hs (List.suffix_append a d.source) hlen
    · intro hs
      exact hs.trans (List.suffix_append a d.source)
  · rw [decide_eq_false hl, Bool.false_and, Bool.false_and]

/-! ## Moves -/

theorem advance (h : Shifted a c d) {n : Int} (hn : 0 ≤ n) :
    Shifted a (c.advance n) (d.advance n) where
  source := h.source
  pos := by
    have hl := h.length
    have hp := h.pos
    simp only [Cursor.advance]
    omega
  notBefore := onward_notBefore.reaches h.notBefore (d.reaches_advance hn)

theorem toEnd (h : Shifted a c d) : Shifted a c.toEnd d.toEnd where
  source := h.source
  pos := h.length
  notBefore := onward_notBefore.reaches h.notBefore d.reaches_toEnd

theorem behind (h : Shifted a c d) {s : Span} (hs : s.after.length ≤ d.rest.length) :
    Shifted a (Parser.behind c s) (Parser.behind d s) where
  source := h.source
  pos := by
    have hl := h.length
    have hd : 0 ≤ d.pos := h.notBefore
    rw [length_rest hd, Cursor.remaining] at hs
    simp only [Parser.behind, goTo]
    omega
  notBefore := onward_notBefore.reaches h.notBefore (Parser.reaches_behind h.notBefore hs)

theorem mark {c' d' : Cursor} (h : Shifted a c d) (h' : Shifted a c' d') (hend : ¬c.atEnd) :
    EndsAlike (fun _ _ => True) (Mark.between c c') (Mark.between d d') := by
  have hend' : ¬d.atEnd := by
    rw [← h.atEnd]
    exact hend
  have hl := h.length
  have hp := h'.pos
  by_cases hd : d'.pos ≤ d.source.length
  · obtain ⟨m, hm⟩ := Mark.between_ok h.notBefore_left h'.notBefore_left hend (by omega)
    obtain ⟨m', hm'⟩ := Mark.between_ok h.notBefore h'.notBefore hend' hd
    rw [hm, hm']
    exact .ok trivial
  · rw [Mark.between_error hend (by omega), Mark.between_error hend' (by omega)]
    exact .error _

end Shifted

theorem similar_shifted (a : Text) : Similar (Shifted a) where
  atEnd h := h.atEnd
  rest h := h.rest
  remaining h := h.remaining
  current h := h.current
  advance h := h.advance (by omega)
  since h h' := h.since h'
  pos h h' := by
    rw [h.pos, h'.pos]
    omega
  mark h h' := h.mark h'

end Cursor

/-! ## Primitives -/

variable {σ : Type} {S : σ → σ → Prop} {E : Prop} {a : Text} {c d : Cursor}

theorem Parser.alike_taken (h : Shifted a c d) (n : Nat) :
    (taken c n).Alike (Shifted a) E (taken d n) := by
  rw [taken, taken, h.sliceAhead]
  exact .success _ (h.advance (by omega))

namespace NumberSymbols

theorem skipSymbol?_shifted (symbols : List Text) (h : Shifted a c d) :
    (skipSymbol? symbols c = none ∧ skipSymbol? symbols d = none) ∨
      ∃ c' d', skipSymbol? symbols c = some c' ∧ skipSymbol? symbols d = some d' ∧ Shifted a c' d' := by
  simp only [skipSymbol?, h.startsWith]
  cases symbols.find? fun symbol => !symbol.isEmpty && d.startsWith symbol with
  | none => exact Or.inl ⟨rfl, rfl⟩
  | some symbol => exact Or.inr ⟨_, _, rfl, rfl, h.advance (by omega)⟩

theorem digitNext_shifted (h : Shifted a c d) : digitNext c = digitNext d := by
  by_cases hend : c.atEnd
  · rw [digitNext_of_atEnd h.notBefore_left hend, digitNext_of_atEnd h.notBefore (by rw [← h.atEnd, hend])]
  · simp only [digitNext, h.current hend]

theorem skipGrouped_shifted (group : Text) (limit : Nat) (h : Shifted a c d) :
    Shifted a (skipGrouped group limit c) (skipGrouped group limit d) := by
  induction limit generalizing c d with
  | zero => exact h
  | succ limit ih =>
      rw [skipGrouped, skipGrouped, digitNext_shifted h]
      split
      · exact ih (h.advance (by omega))
      · rcases skipSymbol?_shifted [group] h with ⟨hc, hd⟩ | ⟨c', d', hc, hd, h'⟩
        · rw [hc, hd]
          exact h
        · rw [hc, hd]
          dsimp only
          rw [digitNext_shifted h']
          split
          · exact ih h'
          · exact h

theorem skipFraction_shifted (decimal : Text) (h : Shifted a c d) :
    Shifted a (skipFraction decimal c) (skipFraction decimal d) := by
  unfold skipFraction
  rcases skipSymbol?_shifted [decimal] h with ⟨hc, hd⟩ | ⟨c', d', hc, hd, h'⟩
  · rw [hc, hd]
    exact h
  · rw [hc, hd]
    dsimp only
    rw [digitNext_shifted h', h'.remaining]
    split
    · exact skipGrouped_shifted [] _ h'
    · exact h

theorem skipSign_shifted (s : NumberSymbols) (h : Shifted a c d) :
    Shifted a (s.skipSign c) (s.skipSign d) := by
  unfold skipSign
  rcases skipSymbol?_shifted [s.plus, s.minus, ['+'], ['-']] h with ⟨hc, hd⟩ | ⟨c', d', hc, hd, h'⟩
  · rw [hc, hd]
    exact h
  · rw [hc, hd]
    exact h'

theorem skipDigits_shifted (s : NumberSymbols) (h : Shifted a c d) :
    Shifted a (s.skipDigits c) (s.skipDigits d) := by
  unfold skipDigits
  rw [h.remaining]
  exact skipFraction_shifted s.decimal (skipGrouped_shifted s.group _ h)

end NumberSymbols

namespace Parser

variable {p : Parser σ}

theorem alike_satisfy (k : CharClass) : (satisfy k : Parser σ).Alike S (Shifted a) E (satisfy k) := by
  refine ⟨fun _ => rfl, fun {c d} h => ?_⟩
  unfold satisfy
  dsimp only
  rw [h.atEnd]
  split
  · exact agrees_pure (Outcome.alike_fail_same h _ _)
  · rename_i hend
    rw [← h.atEnd] at hend
    rw [h.current hend]
    refine agrees_lift_bind _ fun ch => agrees_lift_bind _ fun _ => ?_
    split
    · exact agrees_pure (.success _ (h.advance (by omega)))
    · exact agrees_pure (Outcome.alike_fail_same h _ _)

theorem alike_text (t : Text) : (text t : Parser σ).Alike S (Shifted a) E (text t) := by
  refine alike_ofOutcome fun {c d} h => ?_
  rw [h.startsWith]
  split
  · exact .success _ (h.advance (by omega))
  · exact Outcome.alike_fail_same h _ _

theorem alike_textExact (t : Text) : (textExact t : Parser σ).Alike S (Shifted a) E (textExact t) := by
  refine alike_ofOutcome fun {c d} h => ?_
  rw [h.rest]
  split
  · exact .success _ (h.advance (by omega))
  · exact Outcome.alike_fail_same h _ _

theorem alike_endsWith (t : Text) : (endsWith t : Parser σ).Alike S (Shifted a) E (endsWith t) := by
  refine alike_ofOutcome fun {c d} h => ?_
  rw [h.endsWith]
  split
  · exact .success _ h
  · exact Outcome.alike_fail_same h _ _

theorem alike_number : (number : Parser σ).Alike S (Shifted a) E number := by
  refine ⟨fun _ => rfl, fun {c d} h => ?_⟩
  unfold number
  dsimp only
  rw [h.ahead]
  refine agrees_lift_bind _ fun t => ?_
  cases Numeral.length? t with
  | some n => exact agrees_pure (alike_taken h n)
  | none => exact agrees_pure (Outcome.alike_fail_same h _ _)

theorem alike_identifier : (identifier : Parser σ).Alike S (Shifted a) E identifier := by
  refine ⟨fun _ => rfl, fun {c d} h => ?_⟩
  unfold identifier
  dsimp only
  rw [h.ahead]
  refine agrees_lift_bind _ fun t => ?_
  cases identifierLength? t with
  | some n => exact agrees_pure (alike_taken h n)
  | none => exact agrees_pure (Outcome.alike_fail_same h _ _)

theorem alike_peek {n : Int} (h : peek n = .ok p) : p.Alike S (Shifted a) E p := by
  unfold peek at h
  split at h
  · cases h
  · rename_i hn
    cases h
    obtain ⟨k, rfl⟩ := Int.eq_ofNat_of_zero_le (Int.not_lt.1 hn)
    refine alike_ofOutcome fun {c d} h => ?_
    rw [h.remaining, h.sliceAhead]
    split
    · exact Outcome.alike_fail_same h _ _
    · exact .success _ h

theorem alike_localeNumber {data : Installation} {locale : Text} (h : localeNumber data locale = .ok p) :
    p.Alike S (Shifted a) E p := by
  obtain ⟨s, -, h⟩ := bind_eq_ok h
  cases h
  refine ⟨fun _ => rfl, fun {c d} h => ?_⟩
  have hsign := s.skipSign_shifted h
  dsimp only
  rw [hsign.atEnd]
  split
  · exact agrees_pure (Outcome.alike_fail_same h _ _)
  · rename_i hend
    rw [← hsign.atEnd] at hend
    rw [hsign.current hend]
    refine agrees_lift_bind _ fun ch => ?_
    have hdigits := s.skipDigits_shifted hsign
    split
    · rw [h.since hdigits]
      exact agrees_pure (.success _ hdigits)
    · exact agrees_pure (Outcome.alike_fail_same h _ _)

theorem alike_operatorPrecedence {table : PrecedenceTable} {exact : Bool}
    (h : operatorPrecedence table exact = .ok p) : p.Alike S (Shifted a) E p := by
  unfold operatorPrecedence at h
  split at h
  · cases h
  · cases h
    refine alike_ofOutcome fun {c d} h => ?_
    simp only [h.rest, h.startsWith]
    split
    · exact .success _ (h.advance (by omega))
    · exact Outcome.alike_fail_same h _ _

/-! ## Regions between texts -/

theorem alike_betweenText {opening closing : Text} (h : betweenText opening closing = .ok p) :
    p.Alike S (Shifted a) E p := by
  obtain ⟨_, _, h⟩ := bind_eq_ok h
  cases h
  refine alike_ofOutcome fun {c d} h => ?_
  rw [h.rest]
  split
  · rename_i s hs
    split
    · exact Outcome.alike_fail_same h _ _
    · exact .success _ (h.behind (Text.span?_length_le hs))
  · exact Outcome.alike_fail_same h _ _

theorem alike_betweenStar {opening closing : Text} (h : betweenStar opening closing = .ok p) :
    p.Alike S (Shifted a) E p := by
  obtain ⟨_, _, h⟩ := bind_eq_ok h
  cases h
  refine alike_ofOutcome fun {c d} h => ?_
  rw [h.rest]
  split
  · rename_i s hs
    split
    · exact Outcome.alike_fail_same h _ _
    · exact .success _ (h.behind (Text.spanAbsorbing?_length_le hs))
  · exact Outcome.alike_fail_same h _ _

theorem alike_captureBetweenText {opening closing : Text}
    (h : captureBetweenText opening closing = .ok p) : p.Alike S (Shifted a) E p := by
  obtain ⟨_, _, h⟩ := bind_eq_ok h
  cases h
  refine alike_ofOutcome fun {c d} h => ?_
  rw [h.rest]
  split
  · rename_i s hs
    exact .success _ (h.behind (Text.span?_length_le hs))
  · exact Outcome.alike_fail_same h _ _

theorem alike_ignoreBetweenText {opening closing : Text}
    (h : ignoreBetweenText opening closing = .ok p) : p.Alike S (Shifted a) E p := by
  obtain ⟨_, _, h⟩ := bind_eq_ok h
  cases h
  refine alike_ofOutcome fun {c d} h => ?_
  rw [h.rest]
  split
  · rename_i s hs
    split
    · exact Outcome.alike_fail_same h _ _
    · exact .success _ (h.behind (Text.span?_length_le hs))
  · exact Outcome.alike_fail_same h _ _

theorem alike_notBetweenText {opening closing : Text}
    (h : notBetweenText opening closing = .ok p) : p.Alike S (Shifted a) E p := by
  obtain ⟨_, _, h⟩ := bind_eq_ok h
  cases h
  refine alike_ofOutcome fun {c d} h => ?_
  rw [h.rest]
  exact .success _ h.toEnd

/-! ## All leaves -/

theorem alike_leaf {l : Leaf} (h : l.build = .ok p) : p.Alike S (Shifted a) E p := by
  cases l with
  | satisfy k => cases h; exact alike_satisfy k
  | text t => cases h; exact alike_text t
  | textExact t => cases h; exact alike_textExact t
  | endsWith t => cases h; exact alike_endsWith t
  | number => cases h; exact alike_number
  | identifier => cases h; exact alike_identifier
  | peek n => exact alike_peek h
  | skip n => cases h; exact alike_ofOutcome fun h => .success _ (h.advance (by omega))
  | precedence table exact => exact alike_operatorPrecedence h
  | localeNumber data locale => exact alike_localeNumber h
  | betweenStar opening closing => exact alike_betweenStar h
  | captureBetweenText opening closing => exact alike_captureBetweenText h
  | ignoreBetweenText opening closing => exact alike_ignoreBetweenText h

theorem loopsAlike_shifted (hp : p.ConformsOn True NotBefore) : LoopsAlike (Shifted a) p := by
  intro c d h
  have hc := c.distance_le_reach
  have hd := d.distance_le_reach
  have heq := h.distance
  simp only [spareRounds]
  exact Or.inr ⟨hp, h.notBefore_left, by omega, by omega⟩

end Parser

/-! ## Nodes -/

/-- If the combinator tests outcomes, it sees only whether there was a match, its value, and the text left
to read. -/
def Unary.LooksAhead : Unary → Prop
  | ifCondition test | elseCondition test =>
    ∀ o o' : Outcome, o.succeeded = o'.succeeded → o.value = o'.value → o.rest = o'.rest → test o = test o'
  | _ => True

theorem Unary.LooksAhead.testsBy {K : Cursor → Cursor → Prop} (hK : Similar K) {f : Unary} (hf : f.LooksAhead) :
    f.TestsBy (Outcome.Alike K E) := by
  have hsame : ∀ {test : Test Outcome}, (∀ o o' : Outcome, o.succeeded = o'.succeeded →
      o.value = o'.value → o.rest = o'.rest → test o = test o') →
      ∀ o o', o.Alike K E o' → test o = test o' := by
    intro test ht o o' h
    cases h with
    | success v h => exact ht _ _ rfl rfl (hK.rest h)
    | failure h _ => exact ht _ _ rfl rfl (hK.rest h)
  cases f with
  | ifCondition test | elseCondition test => exact hsame hf
  | _ => trivial

/-- No parsers from outside, and tests of outcomes that look at what remains. -/
def Vocabulary.lookingAhead (ω : Type) : Vocabulary Empty ω where
  leaf _ := True
  given _ := True
  unary f _ := f.LooksAhead
  nary _ _ := True
  observer _ := True

namespace Parser

variable {p q : Parser σ}

theorem Alike.unary_shifted {f : Unary} (hf : f.LooksAhead) (hp : p.ConformsOn True NotBefore)
    (h : p.Alike S (Shifted a) E p) : (f.apply p).Alike S (Shifted a) E (f.apply p) :=
  h.unary (similar_shifted a) (hf.testsBy (similar_shifted a)) (loopsAlike_shifted hp)

theorem alike_applyAll_shifted {f : Nary} {ps : List (Parser σ)} (h : f.applyAll ps = .ok p)
    (hps : ∀ q ∈ ps, q.ConformsOn True NotBefore) (hps' : ∀ q ∈ ps, q.Alike S (Shifted a) E q) :
    p.Alike S (Shifted a) E p :=
  Alike.applyAll_self (similar_shifted a) hps' (fun hq => loopsAlike_shifted (conformsOn_anyOf hq hps)) h

theorem alike_region_shifted {f : Region} {x y : Operand σ} (hx : x.toParser.ConformsOn True NotBefore)
    (hx' : x.toParser.Alike S (Shifted a) E x.toParser) (hy : y.toParser.ConformsOn True NotBefore)
    (hy' : y.toParser.Alike S (Shifted a) E y.toParser) (h : f.apply x y = .ok p) :
    p.Alike S (Shifted a) E p := by
  have hK := similar_shifted a
  rcases Region.apply_cases h with ⟨t, u, h⟩ | ⟨t, u, h⟩ | rfl | rfl
  · exact alike_betweenText h
  · exact alike_notBetweenText h
  · exact hx'.captureBetweenParsers hK (loopsAlike_shifted hx) hy'
  · exact hx'.ignoreBetweenParsers hK (loopsAlike_shifted hx) hy' (loopsAlike_shifted hy)

end Parser

end ParserAlgebra
