import ParserAlgebra.Proofs.Fitting

/-!
# Conforming combinators

No repetition runs out of rounds, so a fault can come only from `unpack`, from a scan that joins values that are no
texts, and from a callback or a predicate. `FitFor` says of each kind of node what rules this out.
-/

namespace ParserAlgebra

open Cursor Parse

/-- A match that leads forward. -/
def StepRel.onward : StepRel := fun c _ d => c.Reaches d

/-- A match that leads forward and yields a text. -/
def StepRel.textual : StepRel := fun c v d => c.Reaches d ∧ ∃ t, v = .text t

/-- On the cursors of `D`, all values of the parser are texts. -/
def Parser.TextsOn {σ : Type} (p : Parser σ) (D : Cursor → Prop) : Prop :=
  p.StepsBy True D fun _ v _ => ∃ t, v = .text t

variable {σ : Type} {F : Prop} {D : Cursor → Prop} {p q : Parser σ}

theorem StepRel.forward_onward (D : Cursor → Prop) : StepRel.onward.Forward D :=
  fun _ _ _ _ h => h

theorem StepRel.forward_textual (D : Cursor → Prop) : StepRel.textual.Forward D :=
  fun _ _ _ _ h => h.1

theorem Chain.concat_textual {c e : Cursor} {vs : List Value} (h : Chain StepRel.textual c vs e) :
    ∃ t, Value.concat? vs = some t := by
  induction h with
  | nil c => exact ⟨[], rfl⟩
  | cons hm _ ih =>
      obtain ⟨-, t, rfl⟩ := hm
      obtain ⟨u, hu⟩ := ih
      exact ⟨t ++ u, by rw [Value.concat?, hu]; rfl⟩

theorem Parser.ConformsOn.stepsBy (hp : p.ConformsOn F D) : p.StepsBy F D StepRel.onward :=
  fun c hc => (hp c hc).imp fun o ho => by
    cases o with
    | success v d => exact ho
    | failure m => trivial

theorem Parser.ConformsOn.textual (hp : p.ConformsOn F D) (ht : p.TextsOn D) :
    p.StepsBy F D StepRel.textual :=
  fun c hc => ((hp c hc).and (ht c hc)).imp fun o ho => by
    cases o with
    | success v d => exact ho
    | failure m => trivial

/-- The combinator does not unpack, its test never gives up, and if it joins texts, the parser yields texts; or
faults are admitted. -/
def Unary.FitFor (F : Prop) (D : Cursor → Prop) : Unary → Parser σ → Prop
  | unpack, _ => F
  | ifCondition test, _ | elseCondition test, _ => F ∨ test.Answers
  | applyIf test, _ | applyElse test, _ => F ∨ test.Answers
  | «until» yield _, p => yield = .whole → F ∨ p.TextsOn D
  | loop yield _, p => yield = .whole → F ∨ p.TextsOn D
  | _, _ => True

/-- If the combinator joins texts, the parsers yield texts, or faults are admitted. -/
def Nary.FitFor (F : Prop) (D : Cursor → Prop) : Nary → List (Parser σ) → Prop
  | «until» yield _, ps => yield = .whole → F ∨ ∀ p ∈ ps, p.TextsOn D
  | loop yield _, ps => yield = .whole → F ∨ ∀ p ∈ ps, p.TextsOn D
  | _, _ => True

/-- No callback of the observer gives up, unless faults are admitted. -/
def Observer.FitFor (F : Prop) : Observer σ → Prop
  | matcher onSuccess onFailure =>
    (∀ rule, (onSuccess rule).Returns F fun _ => True) ∧
      ∀ report ∈ onFailure, ∀ rule, (report rule).Returns F fun _ => True
  | track _ => True

theorem Unary.fitFor_true (f : Unary) (D : Cursor → Prop) (p : Parser σ) : f.FitFor True D p := by
  cases f with
  | unpack => trivial
  | ifCondition test | elseCondition test | applyIf test | applyElse test => exact Or.inl trivial
  | «until» yield stance => exact fun _ => Or.inl trivial
  | loop yield stance => exact fun _ => Or.inl trivial
  | _ => trivial

theorem Nary.fitFor_true (f : Nary) (D : Cursor → Prop) (ps : List (Parser σ)) : f.FitFor True D ps := by
  cases f with
  | «until» yield stance => exact fun _ => Or.inl trivial
  | loop yield stance => exact fun _ => Or.inl trivial
  | _ => trivial

theorem Observer.fitFor_true (o : Observer σ) : o.FitFor True := by
  cases o with
  | matcher onSuccess onFailure => exact ⟨fun rule => returns_true _, fun report _ rule => returns_true _⟩
  | track record => trivial

namespace Parser

/-! ## Assertions -/

theorem ConformsOn.lookahead (hp : p.ConformsOn F D) : p.lookahead.ConformsOn F D := by
  intro c hc
  refine (hp c hc).bind fun o ho => ?_
  cases o with
  | failure m => exact returns_pure rfl
  | success v d => exact returns_pure (Reaches.refl c)

theorem ConformsOn.negate (hD : Onward D) (hp : p.ConformsOn F D) : p.negate.ConformsOn F D := by
  intro c hc
  unfold Parser.negate
  dsimp only
  split
  · exact returns_pure rfl
  · rename_i hend
    refine (hp c hc).bind fun o _ => ?_
    cases o with
    | success v d => exact returns_pure rfl
    | failure m =>
        refine (returns_current (hD.notBefore hc) hend).bind fun ch _ => ?_
        exact returns_pure (c.reaches_advance (by omega))

theorem ConformsOn.ignore (hp : p.ConformsOn F D) : p.ignore.ConformsOn F D := by
  intro c hc
  refine (hp c hc).bind fun o ho => ?_
  cases o with
  | failure m => exact returns_pure ho
  | success v d => exact returns_pure ho

/-! ## Packing -/

theorem ConformsOn.pack (hp : p.ConformsOn F D) : p.pack.ConformsOn F D := by
  intro c hc
  refine (hp c hc).bind fun o ho => ?_
  cases o with
  | failure m => exact returns_pure (Reaches.refl c)
  | success v d => exact returns_pure ho

theorem ConformsOn.unpack (hF : F) (hp : p.ConformsOn F D) : p.unpack.ConformsOn F D := by
  intro c hc
  refine (hp c hc).bind fun o ho => ?_
  cases o with
  | failure m => exact returns_pure ho
  | success v d =>
      cases v with
      | none | int _ | text _ => exact returns_throw _ _ hF
      | tuple vs =>
          cases vs with
          | nil => exact returns_pure rfl
          | cons v vs =>
              cases vs with
              | nil => exact returns_pure ho
              | cons w vs => exact returns_throw _ _ hF

/-! ## Choices -/

theorem conformsOn_anyOf {combinator : String} {ps : List (Parser σ)}
    (h : anyOf combinator ps = .ok p) (hps : ∀ q ∈ ps, q.ConformsOn F D) : p.ConformsOn F D :=
  anyOf_handsOn (fun _ _ => Meets.choice) h hps

theorem ConformsOn.choiceKeepFirst (hp : p.ConformsOn F D) (hq : q.ConformsOn F D) :
    (p.choiceKeepFirst q).ConformsOn F D := by
  intro c hc
  refine (hp c hc).bind fun o ho => ?_
  cases o with
  | success v d => exact returns_pure ho
  | failure m =>
      refine (hq c hc).bind fun o' ho' => ?_
      cases o' with
      | failure m' => exact returns_pure ho'
      | success w e => exact returns_pure ho'

/-! ## Sequences -/

theorem ConformsOn.seq (hD : Onward D) (hp : p.ConformsOn F D) (hq : q.ConformsOn F D) :
    (p.seq q).ConformsOn F D := by
  intro c hc
  refine (hp c hc).bind fun o ho => ?_
  cases o with
  | failure m => exact returns_pure ho
  | success v d =>
      refine (hq d (hD.reaches hc ho)).bind fun o' ho' => ?_
      cases o' with
      | failure m => exact returns_pure rfl
      | success w e => exact returns_pure (ho.trans ho')

theorem ConformsOn.seqKeepFirst (hD : Onward D) (hp : p.ConformsOn F D) (hq : q.ConformsOn F D) :
    (p.seqKeepFirst q).ConformsOn F D := by
  intro c hc
  refine (hp c hc).bind fun o ho => ?_
  cases o with
  | failure m => exact returns_pure ho
  | success v d =>
      refine (hq d (hD.reaches hc ho)).bind fun o' ho' => ?_
      cases o' with
      | failure m => exact returns_pure ho
      | success w e => exact returns_pure (ho.trans ho')

/-- `before` runs as a sequence the other way round. -/
theorem run_before (p q : Parser σ) : (p.before q).run = (q.seq p).run :=
  rfl

theorem ConformsOn.before (hD : Onward D) (hp : p.ConformsOn F D) (hq : q.ConformsOn F D) :
    (p.before q).ConformsOn F D := by
  intro c hc
  rw [run_before]
  exact ConformsOn.seq hD hq hp c hc

theorem ConformsOn.after (hD : Onward D) (hp : p.ConformsOn F D) (hq : q.ConformsOn F D) :
    (p.after q).ConformsOn F D := by
  intro c hc
  refine (hp c hc).bind fun o ho => ?_
  cases o with
  | failure m => exact returns_pure ho
  | success v d =>
      refine (hq d (hD.reaches hc ho)).bind fun o' ho' => ?_
      cases o' with
      | failure m => exact returns_pure rfl
      | success w e => exact returns_pure (ho.trans ho')

theorem ConformsOn.join (hD : Onward D) (f : Binary) (hp : p.ConformsOn F D) (hq : q.ConformsOn F D) :
    (f.join p q).ConformsOn F D := by
  cases f with
  | seq => exact ConformsOn.seq hD hp hq
  | choice => exact Meets.choice hp hq
  | both => exact Meets.both hp hq
  | xor => exact Meets.xor hp hq Outcome.fits_fail
  | seqKeepFirst => exact ConformsOn.seqKeepFirst hD hp hq
  | choiceKeepFirst => exact ConformsOn.choiceKeepFirst hp hq
  | before => exact ConformsOn.before hD hp hq
  | after => exact ConformsOn.after hD hp hq

/-- Whether a match stays or goes on, it lies ahead if what it read does. -/
theorem reaches_place (stance : Stance) {c d : Cursor} (h : c.Reaches d) :
    c.Reaches (stance.place c d) := by
  cases stance with
  | consuming => exact h
  | ahead => exact Reaches.refl c

theorem conformsOn_seqN (hD : Onward D) (stance : Stance) {ps : List (Parser σ)}
    (hps : ∀ p ∈ ps, p.ConformsOn F D) : (seqN stance ps).ConformsOn F D := by
  intro c hc
  have hcollect := collect_returns hD (StepRel.forward_onward D) (fun p hp => (hps p hp).stepsBy) hc
  refine hcollect.bind fun r hr => returns_pure ?_
  exact reaches_place stance (hr.reaches hD (StepRel.forward_onward D) hc)

/-! ## Repetitions -/

/-- A repetition of a conforming parser ends ahead. -/
theorem ConformsOn.repeated (hD : Onward D) (hp : p.ConformsOn F D) (enough : Cursor → Bool)
    {c : Cursor} (hc : D c) : (repeated p enough c).Returns F fun r => c.Reaches r.2 :=
  (repeated_returns hD (StepRel.forward_onward D) hp.stepsBy enough hc).imp fun _ hr =>
    hr.reaches hD (StepRel.forward_onward D) hc

theorem ConformsOn.zeroOrMore (hD : Onward D) (hp : p.ConformsOn F D) : p.zeroOrMore.ConformsOn F D :=
  fun _ hc => (hp.repeated hD _ hc).bind fun _ hr => returns_pure hr

theorem ConformsOn.oneOrMore (hD : Onward D) (hp : p.ConformsOn F D) : p.oneOrMore.ConformsOn F D := by
  intro c hc
  refine (hp.repeated hD _ hc).bind fun r hr => ?_
  obtain ⟨vs, e⟩ := r
  dsimp only
  split
  · exact returns_pure rfl
  · exact returns_pure hr

theorem ConformsOn.exactly (hD : Onward D) (hp : p.ConformsOn F D) (n : Int) :
    (p.exactly n).ConformsOn F D := by
  intro c hc
  have hattempts := attempts_returns hD (StepRel.forward_onward D) hp.stepsBy n.toNat hc
  refine hattempts.bind fun r hr => returns_pure ?_
  exact hr.reaches hD (StepRel.forward_onward D) hc

/-! ## Scans -/

theorem ConformsOn.search (hD : Onward D) (hp : p.ConformsOn F D) {c : Cursor} (hc : D c) :
    (search p c).Returns F (FoundBy StepRel.onward c) :=
  search_returns hD hp.stepsBy hc

theorem returns_yieldFound {c : Cursor} {f : Found} {yield : Yield}
    (h : yield = .whole → F ∨ ∃ t, f.value = .text t) :
    Returns F (liftM (yieldFound c f yield) : Parse σ Value) fun _ => True := by
  cases yield with
  | last => exact returns_lift_ok rfl trivial
  | whole =>
      rcases h rfl with hF | ⟨t, ht⟩
      · exact returns_lift (fun _ _ => trivial) fun _ _ => hF
      · exact returns_lift_ok (by rw [yieldFound, ht]) trivial

theorem ConformsOn.until (hD : Onward D) (hp : p.ConformsOn F D) {yield : Yield}
    (hy : yield = .whole → F ∨ p.TextsOn D) (stance : Stance) : (Parser.until yield stance p).ConformsOn F D := by
  intro c hc
  have htexts : (Parser.search p c).Returns True fun found =>
      ∀ f, found = some f → p.TextsOn D → ∃ t, f.value = .text t := by
    by_cases ht : p.TextsOn D
    · exact (search_returns hD ht hc).imp fun found hfound f hf _ => (hfound f hf).2.2
    · exact (returns_true _).imp fun found _ f _ ht' => absurd ht' ht
  refine ((hp.search hD hc).and htexts).bind fun found hfound => ?_
  cases found with
  | none => exact returns_pure rfl
  | some f =>
      obtain ⟨hstart, -, hstop⟩ := hfound.1 f rfl
      refine (returns_yieldFound fun h => (hy h).imp id (hfound.2 f rfl)).bind fun v _ => ?_
      exact returns_pure (reaches_place stance (hstart.trans hstop))

theorem ConformsOn.loop (hD : Onward D) (hp : p.ConformsOn F D) {yield : Yield}
    (hy : yield = .whole → F ∨ p.TextsOn D) (stance : Stance) : (Parser.loop yield stance p).ConformsOn F D := by
  intro c hc
  cases yield with
  | last =>
      refine (hp.repeated hD _ hc).bind fun r hr => ?_
      cases hv : r.1.getLast? with
      | some v =>
          have hloop : yieldLoop c p r.1 (stance.place c r.2) .last = .ok (.success v (stance.place c r.2)) := by
            rw [yieldLoop, hv]
          exact returns_lift_ok hloop (reaches_place stance hr)
      | none =>
          have hloop : yieldLoop c p r.1 (stance.place c r.2) .last =
              .ok (.fail c (Wording.expected p.name) [p.name]) := by
            rw [yieldLoop, hv]
          exact returns_lift_ok hloop rfl
  | whole =>
      rcases hy rfl with hF | ht
      · refine (hp.repeated hD _ hc).bind fun r hr => returns_lift (fun o ho => ?_) fun _ _ => hF
        simp only [yieldLoop] at ho
        split at ho
        · cases ho; exact reaches_place stance hr
        · cases ho
      · have hM := StepRel.forward_textual D
        refine (repeated_returns hD hM (hp.textual ht) Cursor.atEnd hc).bind fun r hr => ?_
        obtain ⟨t, ht⟩ := hr.concat_textual
        have hloop : yieldLoop c p r.1 (stance.place c r.2) .whole =
            .ok (.success (.text t) (stance.place c r.2)) := by
          rw [yieldLoop, ht]
        exact returns_lift_ok hloop (reaches_place stance (hr.reaches hD hM hc))

theorem conformsOn_seqAt (hD : Onward D) (stance : Stance) {ps : List (Parser σ)}
    (hps : ∀ p ∈ ps, p.ConformsOn F D) : (seqAt stance ps).ConformsOn F D := by
  intro c hc
  have hM := StepRel.forward_onward D
  have hcollect := collectAt_returns hD hM (fun p hp => (hps p hp).stepsBy) hc
  refine hcollect.bind fun r hr => returns_pure ?_
  exact reaches_place stance (hr.reaches hD (hM.ahead hD) hc)

theorem textsOn_anyOf {combinator : String} {ps : List (Parser σ)} (h : anyOf combinator ps = .ok p)
    (hps : ∀ q ∈ ps, q.TextsOn D) : p.TextsOn D :=
  anyOf_handsOn (fun _ _ => Meets.choice) h hps

theorem conformsOn_applyAll (hD : Onward D) {f : Nary} {ps : List (Parser σ)} (hf : f.FitFor F D ps)
    (h : f.applyAll ps = .ok p) (hps : ∀ q ∈ ps, q.ConformsOn F D) : p.ConformsOn F D := by
  cases f with
  | choice => exact conformsOn_anyOf h hps
  | seq stance => cases h; exact conformsOn_seqN hD stance hps
  | seqAt stance => cases h; exact conformsOn_seqAt hD stance hps
  | «until» yield stance =>
      obtain ⟨q, hq, h⟩ := bind_eq_ok h
      cases h
      have hy : yield = .whole → F ∨ q.TextsOn D := fun h => (hf h).imp id (textsOn_anyOf hq)
      exact (conformsOn_anyOf hq hps).until hD hy stance
  | loop yield stance =>
      obtain ⟨q, hq, h⟩ := bind_eq_ok h
      cases h
      have hy : yield = .whole → F ∨ q.TextsOn D := fun h => (hf h).imp id (textsOn_anyOf hq)
      exact (conformsOn_anyOf hq hps).loop hD hy stance

/-! ## Regions between parsers -/

theorem ConformsOn.openRegion (hD : Onward D) (hp : p.ConformsOn F D) {c : Cursor} (hc : D c) :
    (openRegion p c).Returns F fun inner => ∀ d, inner = some d → c.Reaches d := by
  refine (hp.search hD hc).bind fun found hfound => ?_
  cases found with
  | none => exact returns_pure nofun
  | some f =>
      obtain ⟨hstart, -, hstop⟩ := hfound f rfl
      have hf := hstart.trans hstop
      refine (hp.repeated hD _ (hD.reaches hc hf)).bind fun r hr => returns_pure fun d hd => ?_
      cases hd
      exact hf.trans hr

theorem ConformsOn.captureBetweenParsers (hD : Onward D) (hp : p.ConformsOn F D) (hq : q.ConformsOn F D) :
    (captureBetweenParsers p q).ConformsOn F D := by
  intro c hc
  refine (hp.openRegion hD hc).bind fun opened hopened => ?_
  cases opened with
  | none => exact returns_pure rfl
  | some inner =>
      have hinner := hopened inner rfl
      refine (hq.search hD (hD.reaches hc hinner)).bind fun found hfound => ?_
      cases found with
      | none => exact returns_pure rfl
      | some f => exact returns_pure (hinner.trans (hfound f rfl).1)

theorem ConformsOn.ignoreBetweenParsers (hD : Onward D) (hp : p.ConformsOn F D) (hq : q.ConformsOn F D) :
    (ignoreBetweenParsers p q).ConformsOn F D := by
  intro c hc
  refine (hp.openRegion hD hc).bind fun opened hopened => ?_
  cases opened with
  | none => exact returns_pure rfl
  | some inner =>
      have hinner := hopened inner rfl
      refine (hq.search hD (hD.reaches hc hinner)).bind fun found hfound => ?_
      cases found with
      | none => exact returns_pure rfl
      | some f =>
          obtain ⟨hstart, -, hstop⟩ := hfound f rfl
          have hf := hinner.trans (hstart.trans hstop)
          exact (hq.repeated hD _ (hD.reaches hc hf)).bind fun r hr => returns_pure (hf.trans hr)

/-! ## Observers -/

theorem ConformsOn.track (hD : Onward D) (hp : p.ConformsOn F D) (record : Mark → σ → σ) :
    (p.track record).ConformsOn F D := by
  refine Meets.track hp Outcome.fits_fail (fun c v d hc hend hd => Or.inr ?_) record
  have hd' := hD.reaches hc hd
  refine Mark.between_ok (hD.notBefore hc) (hD.notBefore hd') hend ?_
  obtain ⟨-, h⟩ := hd
  rw [atEnd_iff] at hend
  omega

theorem ConformsOn.observe (hD : Onward D) {o : Observer σ} (ho : o.FitFor F) (hp : p.ConformsOn F D) :
    (o.apply p).ConformsOn F D := by
  cases o with
  | matcher onSuccess onFailure => exact Meets.matcher hp ho.1 ho.2
  | track record => exact hp.track hD record

/-! ## Nodes -/

theorem ConformsOn.unary (hD : Onward D) {f : Unary} (hf : f.FitFor F D p) (hp : p.ConformsOn F D) :
    (f.apply p).ConformsOn F D := by
  cases f with
  | zeroOrMore => exact hp.zeroOrMore hD
  | oneOrMore => exact hp.oneOrMore hD
  | exactly n => exact hp.exactly hD n
  | lookahead => exact hp.lookahead
  | negate => exact hp.negate hD
  | ignore => exact hp.ignore
  | ifCondition test => exact Meets.ifCondition hp Outcome.fits_fail hf
  | elseCondition test => exact Meets.ifCondition hp Outcome.fits_fail (hf.imp id Test.Answers.not)
  | applyIf test => exact Meets.applyIf hp Outcome.fits_fail hf
  | applyElse test => exact Meets.applyIf hp Outcome.fits_fail (hf.imp id Test.Answers.not)
  | pack => exact hp.pack
  | unpack => exact hp.unpack hf
  | «until» yield stance => exact hp.until hD hf stance
  | loop yield stance => exact hp.loop hD hf stance

theorem conformsOn_region (hD : Onward D) {f : Region} {x y : Operand σ}
    (hx : x.toParser.ConformsOn F D) (hy : y.toParser.ConformsOn F D) (h : f.apply x y = .ok p) :
    p.ConformsOn F D := by
  rcases Region.apply_cases h with ⟨t, u, h⟩ | ⟨t, u, h⟩ | rfl | rfl
  · exact conformsOn_betweenText hD h
  · exact conformsOn_notBetweenText h
  · exact hx.captureBetweenParsers hD hy
  · exact hx.ignoreBetweenParsers hD hy

/-- Every node hands conformance on whose operands are fit for it. -/
theorem handsOn_conformsOn {ρ ω : Type} (hD : Onward D) {named : ρ → Parser σ}
    {observer : ω → Observer σ} {V : Vocabulary ρ ω}
    (hleaf : ∀ l, V.leaf l → l.FitFor F)
    (hgiven : ∀ r, V.given r → (named r).ConformsOn F D)
    (hunary : ∀ (f : Unary) e (p : Parser σ), V.unary f e →
      e.build (.over named observer) = .ok (.parser p) → f.FitFor F D p)
    (hnary : ∀ (f : Nary) es (ps : List (Parser σ)), V.nary f es →
      (∀ q ∈ ps, ∃ e ∈ es, e.build (.over named observer) = .ok (.parser q)) → f.FitFor F D ps)
    (hobserver : ∀ o, V.observer o → (observer o).FitFor F) :
    HandsOn named observer V fun p => p.ConformsOn F D where
  literal := conformsOn_text
  leaf hl := conformsOn_leaf hD (hleaf _ hl)
  given := hgiven _
  unary hf he := ConformsOn.unary hD (hunary _ _ _ hf he)
  binary := ConformsOn.join hD _
  nary hf hes hps h := conformsOn_applyAll hD (hnary _ _ _ hf hes) h hps
  region := conformsOn_region hD
  observe ho := ConformsOn.observe hD (hobserver _ ho)

end Parser

end ParserAlgebra
