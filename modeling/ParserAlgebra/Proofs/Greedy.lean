import ParserAlgebra.Parser.Scan
import ParserAlgebra.Proofs.Chain

/-!
# Greedy repetition

There is one chain of matches that move, and it cannot be made longer. Both kinds of repetition follow it to its end,
the one that runs the parser at the end of the input and the one that does not.
-/

namespace ParserAlgebra

open Cursor Parse

variable {σ : Type} {p : Parser σ} {outcome : Cursor → Outcome}

/-! ## Chains of matches -/

/-- On every cursor of a source, the parser ends with the outcome for that cursor. -/
def Parser.Computes (p : Parser σ) (outcome : Cursor → Outcome) : Prop :=
  ∀ c : Cursor, c.InSource → (p.run c).Gives (outcome c)

/-- On every cursor of a source, a match ends ahead in the source. -/
def EndsAhead (outcome : Cursor → Outcome) : Prop :=
  ∀ c : Cursor, c.InSource → ∀ v d, outcome c = .success v d →
    d.source = c.source ∧ c.pos ≤ d.pos ∧ d.pos ≤ c.source.length

/-- On every cursor of a source, a match ends further on in the source. -/
def MovesAhead (outcome : Cursor → Outcome) : Prop :=
  ∀ c : Cursor, c.InSource → ∀ v d, outcome c = .success v d →
    d.source = c.source ∧ c.pos < d.pos ∧ d.pos ≤ c.source.length

/-- On every cursor of a source, a match yields a text and ends ahead in the source. -/
def TakesTexts (outcome : Cursor → Outcome) : Prop :=
  ∀ c : Cursor, c.InSource → ∀ v d, outcome c = .success v d →
    (∃ t, v = .text t) ∧ d.source = c.source ∧ c.pos ≤ d.pos ∧ d.pos ≤ c.source.length

/-- At `c` there is a failure, or a match that does not move. -/
def Stays (outcome : Cursor → Outcome) (c : Cursor) : Prop :=
  ∀ v d, outcome c = .success v d → d.pos = c.pos

/-- A match that moves. -/
def StepRel.moved (outcome : Cursor → Outcome) : StepRel := fun c v d =>
  outcome c = .success v d ∧ c.pos < d.pos

theorem MovesAhead.endsAhead (h : MovesAhead outcome) : EndsAhead outcome := by
  intro c hc v d ho
  obtain ⟨hs, hlt, hl⟩ := h c hc v d ho
  exact ⟨hs, Int.le_of_lt hlt, hl⟩

theorem MovesAhead.failure_of_stays (h : MovesAhead outcome) {c : Cursor} (hc : c.InSource)
    (hstays : Stays outcome c) : ∃ m, outcome c = .failure m := by
  cases ho : outcome c with
  | failure m => exact ⟨m, rfl⟩
  | success v d =>
      obtain ⟨-, hlt, -⟩ := h c hc v d ho
      exact absurd (hstays v d ho) (Int.ne_of_gt hlt)

theorem EndsAhead.forward (h : EndsAhead outcome) : (StepRel.moved outcome).Forward InSource :=
  fun c v d hc hm => (reaches_iff hc).2 (h c hc v d hm.1)

theorem EndsAhead.inSource (h : EndsAhead outcome) {c d : Cursor} {v : Value} (hc : c.InSource)
    (ho : outcome c = .success v d) : d.InSource :=
  onward_inSource.reaches hc ((reaches_iff hc).2 (h c hc v d ho))

theorem EndsAhead.inSource_of_chain (h : EndsAhead outcome) {c e : Cursor} {vs : List Value} (hc : c.InSource)
    (hchain : Chain (.moved outcome) c vs e) : e.InSource :=
  onward_inSource.reaches hc (hchain.reaches onward_inSource h.forward hc)

/-- From every cursor there are matches that move, up to one from which there is none. -/
theorem EndsAhead.exists_chain (h : EndsAhead outcome) {c : Cursor} (hc : c.InSource) :
    ∃ vs e, Chain (.moved outcome) c vs e ∧ Stays outcome e := by
  generalize hn : c.distance = n
  induction n using Nat.strongRecOn generalizing c with
  | ind n ih =>
      by_cases hstay : Stays outcome c
      · exact ⟨[], c, .nil c, hstay⟩
      · simp only [Stays, Classical.not_forall] at hstay
        obtain ⟨v, d, ho, hne⟩ := hstay
        obtain ⟨hs, hle, hl⟩ := h c hc v d ho
        have hreach : c.Reaches d := (reaches_iff hc).2 ⟨hs, hle, hl⟩
        have hlt := hreach.distance_lt hne
        obtain ⟨vs, e, hchain, hstays⟩ := ih d.distance (by omega) (onward_inSource.reaches hc hreach) rfl
        exact ⟨v :: vs, e, .cons ⟨ho, by omega⟩ hchain, hstays⟩

theorem Chain.length_le_of_moved {c e : Cursor} {vs : List Value} (h : Chain (.moved outcome) c vs e) :
    (vs.length : Int) ≤ e.pos - c.pos := by
  induction h with
  | nil c => simp
  | cons hm _ ih =>
      obtain ⟨-, hlt⟩ := hm
      rw [List.length_cons]
      omega

theorem EndsAhead.stays_of_atEnd (h : EndsAhead outcome) {c : Cursor} (hc : c.InSource) (hend : c.atEnd) :
    Stays outcome c := by
  intro v d ho
  obtain ⟨-, hle, hl⟩ := h c hc v d ho
  rw [atEnd_iff] at hend
  omega

/-- Matches that move, one after another up to a cursor from which there is none. Each step is the text of a
match and the cursor behind it. -/
inductive Greedy (outcome : Cursor → Outcome) : Cursor → List (Text × Cursor) → Prop
  | stop {c : Cursor} : Stays outcome c → Greedy outcome c []
  | step {c d : Cursor} {t : Text} {steps : List (Text × Cursor)} : outcome c = .success (.text t) d →
      c.pos < d.pos → Greedy outcome d steps → Greedy outcome c ((t, d) :: steps)

/-- The cursor behind the last step. -/
def lastCursor (c : Cursor) : List (Text × Cursor) → Cursor
  | [] => c
  | (_, d) :: steps => lastCursor d steps

def valuesOf (steps : List (Text × Cursor)) : List Value :=
  steps.map fun step => .text step.1

theorem TakesTexts.endsAhead (ht : TakesTexts outcome) : EndsAhead outcome :=
  fun c hc v d h => (ht c hc v d h).2

theorem TakesTexts.inSource (ht : TakesTexts outcome) {c d : Cursor} {v : Value} (hc : c.InSource)
    (h : outcome c = .success v d) : d.InSource :=
  ht.endsAhead.inSource hc h

theorem Greedy.chain {c : Cursor} {steps : List (Text × Cursor)} (h : Greedy outcome c steps) :
    Chain (.moved outcome) c (valuesOf steps) (lastCursor c steps) := by
  induction h with
  | stop _ => exact .nil _
  | step h hlt _ ih => exact .cons ⟨h, hlt⟩ ih

theorem Chain.exists_greedy (ht : TakesTexts outcome) {c e : Cursor} {vs : List Value}
    (h : Chain (.moved outcome) c vs e) (hc : c.InSource) (hstays : Stays outcome e) :
    ∃ steps, Greedy outcome c steps := by
  induction h with
  | nil c => exact ⟨[], .stop hstays⟩
  | @cons c d _ v _ hm _ ih =>
      obtain ⟨ho, hlt⟩ := hm
      obtain ⟨⟨t, rfl⟩, -⟩ := ht c hc v d ho
      obtain ⟨steps, hsteps⟩ := ih (ht.inSource hc ho) hstays
      exact ⟨(t, d) :: steps, .step ho hlt hsteps⟩

theorem Greedy.exists (ht : TakesTexts outcome) {c : Cursor} (hc : c.InSource) :
    ∃ steps, Greedy outcome c steps := by
  obtain ⟨vs, e, hchain, hstays⟩ := ht.endsAhead.exists_chain hc
  exact hchain.exists_greedy ht hc hstays

theorem Greedy.unique {c : Cursor} {steps steps' : List (Text × Cursor)} (h : Greedy outcome c steps)
    (h' : Greedy outcome c steps') : steps' = steps := by
  induction h generalizing steps' with
  | stop hstay =>
      cases h' with
      | stop _ => rfl
      | step h hlt _ =>
          have heq := hstay _ _ h
          omega
  | step h hlt _ ih =>
      cases h' with
      | stop hstay =>
          have heq := hstay _ _ h
          omega
      | step h' _ hsteps =>
          obtain ⟨ht, rfl⟩ := Outcome.success.inj (h'.symm.trans h)
          cases ht
          rw [ih hsteps]

theorem Greedy.stays {c : Cursor} {steps : List (Text × Cursor)} (h : Greedy outcome c steps) :
    Stays outcome (lastCursor c steps) := by
  induction h with
  | stop hstay => exact hstay
  | step _ _ _ ih => exact ih

theorem Greedy.inSource (ht : TakesTexts outcome) {c : Cursor} {steps : List (Text × Cursor)}
    (h : Greedy outcome c steps) (hc : c.InSource) : (lastCursor c steps).InSource := by
  induction h with
  | stop _ => exact hc
  | step h _ _ ih => exact ih (ht.inSource hc h)

theorem Greedy.length_le (ht : TakesTexts outcome) {c : Cursor} {steps : List (Text × Cursor)}
    (h : Greedy outcome c steps) (hc : c.InSource) : (steps.length : Int) ≤ c.source.length - c.pos := by
  induction h with
  | @stop c _ =>
      have hl := hc.2
      simp only [List.length_nil]
      omega
  | @step c d t steps h hlt _ ih =>
      obtain ⟨-, hs, -, -⟩ := ht c hc _ _ h
      have ih := ih (ht.inSource hc h)
      rw [hs] at ih
      rw [List.length_cons]
      omega

namespace Parser

/-! ## Loops along the chain -/

/-- There are rounds enough for the whole chain. -/
theorem length_lt_rounds (ha : EndsAhead outcome) {c e : Cursor} {vs : List Value}
    (h : Chain (.moved outcome) c vs e) (hc : c.InSource) : vs.length < c.reach + spareRounds := by
  have hlen := h.length_le_of_moved
  have hend := ((reaches_iff hc).1 (h.reaches onward_inSource ha.forward hc)).2.2
  have hle := c.distance_le_reach
  simp only [distance] at hle
  rw [spareRounds]
  omega

/-- The loop follows the chain to its end, if it stops early only where no match moves. -/
theorem rounds_gives (hp : p.Computes outcome) (ha : EndsAhead outcome) {enough : Cursor → Bool}
    (henough : ∀ c, c.InSource → enough c → Stays outcome c) {limit : Nat} {c e : Cursor} {vs : List Value}
    (h : Chain (.moved outcome) c vs e) (hstays : Stays outcome e) (hc : c.InSource) (hl : vs.length < limit) :
    (rounds p enough limit c).Gives (vs, e) := by
  induction h generalizing limit with
  | nil c =>
      obtain ⟨limit, rfl⟩ := Nat.exists_eq_succ_of_ne_zero (Nat.ne_zero_of_lt hl)
      rw [rounds]
      split
      · exact gives_pure _
      · refine (hp c hc).bind ?_
        cases ho : outcome c with
        | failure m => exact gives_pure _
        | success v d =>
            dsimp only
            rw [if_pos (hstays v d ho)]
            exact gives_pure _
  | @cons c d _ v vs hm _ ih =>
      obtain ⟨limit, rfl⟩ := Nat.exists_eq_succ_of_ne_zero (Nat.ne_zero_of_lt hl)
      obtain ⟨ho, hlt⟩ := hm
      have hne : d.pos ≠ c.pos := Int.ne_of_gt hlt
      have hd := ha.inSource hc ho
      rw [List.length_cons] at hl
      rw [rounds]
      split
      · rename_i hstop
        exact absurd (henough c hc hstop _ _ ho) hne
      · refine (hp c hc).bind ?_
        rw [ho]
        dsimp only
        rw [if_neg hne]
        exact (ih hstays hd (by omega)).bind (gives_pure _)

theorem repeated_gives (hp : p.Computes outcome) (ha : EndsAhead outcome) {enough : Cursor → Bool}
    (henough : ∀ c, c.InSource → enough c → Stays outcome c) {c e : Cursor} {vs : List Value}
    (h : Chain (.moved outcome) c vs e) (hstays : Stays outcome e) (hc : c.InSource) :
    (repeated p enough c).Gives (vs, e) :=
  rounds_gives hp ha henough h hstays hc (length_lt_rounds ha h hc)

theorem repeated_atEnd_gives (hp : p.Computes outcome) (ha : EndsAhead outcome) {c e : Cursor} {vs : List Value}
    (h : Chain (.moved outcome) c vs e) (hstays : Stays outcome e) (hc : c.InSource) :
    (repeated p Cursor.atEnd c).Gives (vs, e) :=
  repeated_gives hp ha (fun _ hd hend => ha.stays_of_atEnd hd hend) h hstays hc

theorem zeroOrMore_gives (hp : p.Computes outcome) (ha : EndsAhead outcome) {c e : Cursor} {vs : List Value}
    (h : Chain (.moved outcome) c vs e) (hstays : Stays outcome e) (hc : c.InSource) :
    (p.zeroOrMore.run c).Gives (.success (.tuple vs) e) :=
  (repeated_gives hp ha (fun _ _ h => by cases h) h hstays hc).bind (gives_pure _)

/-- The repetitions of `p` from `c` on do what the steps tell. Those that look ahead stay at `c`. -/
structure RepeatsBy (p : Parser σ) (c : Cursor) (steps : List (Text × Cursor)) : Prop where
  zeroOrMore : (p.zeroOrMore.run c).Gives (.success (.tuple (valuesOf steps)) (lastCursor c steps))
  oneOrMore : steps ≠ [] →
    (p.oneOrMore.run c).Gives (.success (.tuple (valuesOf steps)) (lastCursor c steps))
  oneOrMore_none : steps = [] → ∃ m, (p.oneOrMore.run c).Gives (.failure m) ∧ m.cursor = c
  loop : ∀ stance, ((Parser.loop .whole stance p).run c).Gives
    (.success (.text (steps.map (·.1)).flatten) (stance.place c (lastCursor c steps)))
  loopLast : ∀ stance t d, steps.getLast? = some (t, d) →
    ((Parser.loop .last stance p).run c).Gives (.success (.text t) (stance.place c (lastCursor c steps)))
  loopLast_none : steps = [] → ∀ stance,
    ∃ m, ((Parser.loop .last stance p).run c).Gives (.failure m) ∧ m.cursor = c
  again : (p.zeroOrMore.run (lastCursor c steps)).Gives (.success (.tuple []) (lastCursor c steps))

theorem concat?_valuesOf (steps : List (Text × Cursor)) :
    Value.concat? (valuesOf steps) = some (steps.map (·.1)).flatten := by
  induction steps with
  | nil => rfl
  | cons step steps ih =>
      rw [valuesOf, List.map_cons, Value.concat?]
      rw [valuesOf] at ih
      simp [ih]

theorem getLast?_valuesOf {steps : List (Text × Cursor)} {t : Text} {d : Cursor}
    (h : steps.getLast? = some (t, d)) : (valuesOf steps).getLast? = some (.text t) := by
  simp [valuesOf, h]

theorem oneOrMore_gives (hp : p.Computes outcome) (ht : TakesTexts outcome) {c : Cursor}
    {steps : List (Text × Cursor)} (h : Greedy outcome c steps) (hc : c.InSource) :
    (p.oneOrMore.run c).Gives (if steps.isEmpty then .fail c (Wording.expectedMore p.name) []
      else .success (.tuple (valuesOf steps)) (lastCursor c steps)) := by
  refine (repeated_gives hp ht.endsAhead (fun _ _ h => by cases h) h.chain h.stays hc).bind ?_
  cases steps with
  | nil => exact gives_pure _
  | cons step steps => exact gives_pure _

theorem loop_gives (hp : p.Computes outcome) (ht : TakesTexts outcome) {c : Cursor}
    {steps : List (Text × Cursor)} (h : Greedy outcome c steps) (hc : c.InSource) (yield : Yield)
    (stance : Stance) {o : Outcome}
    (ho : yieldLoop c p (valuesOf steps) (stance.place c (lastCursor c steps)) yield = .ok o) :
    ((Parser.loop yield stance p).run c).Gives o :=
  (repeated_atEnd_gives hp ht.endsAhead h.chain h.stays hc).bind (gives_lift ho)

theorem repeatsBy (hp : p.Computes outcome) (ht : TakesTexts outcome) {c : Cursor}
    {steps : List (Text × Cursor)} (h : Greedy outcome c steps) (hc : c.InSource) :
    p.RepeatsBy c steps where
  zeroOrMore := zeroOrMore_gives hp ht.endsAhead h.chain h.stays hc
  oneOrMore hne := by
    have hone := oneOrMore_gives hp ht h hc
    rwa [if_neg (by simpa using hne)] at hone
  oneOrMore_none hnil := by
    have hone := oneOrMore_gives hp ht h hc
    rw [if_pos (by simpa using hnil)] at hone
    exact ⟨_, hone, rfl⟩
  loop stance := loop_gives hp ht h hc .whole stance (by rw [yieldLoop, concat?_valuesOf])
  loopLast stance t d hlast :=
    loop_gives hp ht h hc .last stance (by rw [yieldLoop, getLast?_valuesOf hlast])
  loopLast_none hnil stance := by
    subst hnil
    exact ⟨_, loop_gives hp ht h hc .last stance rfl, rfl⟩
  again := zeroOrMore_gives hp ht.endsAhead (.nil _) h.stays (h.inSource ht hc)

/-! ## The result -/

/-- From each cursor of a source there is one greedy chain, no longer than what remains, and all the
repetitions follow it. -/
theorem repetitions_agree (hp : p.Computes outcome) (ht : TakesTexts outcome) {c : Cursor}
    (hc : c.InSource) :
    ∃ steps, Greedy outcome c steps ∧ (∀ steps', Greedy outcome c steps' → steps' = steps) ∧
      (steps.length : Int) ≤ c.source.length - c.pos ∧ p.RepeatsBy c steps := by
  obtain ⟨steps, h⟩ := Greedy.exists ht hc
  exact ⟨steps, h, fun _ h' => h.unique h', h.length_le ht hc, repeatsBy hp ht h hc⟩

/-- A parser that counts its runs takes at most two letters `a`, also none: from the beginning of `aaab` it
moves twice, and then it matches the empty text before the `b`. -/
theorem repetitions_agree_pairs :
    let taken (c : Cursor) : Text := (c.rest.take 2).takeWhile (· == 'a')
    let outcome (c : Cursor) : Outcome := .success (.text (taken c)) (c.advance (taken c).length)
    let p : Parser Nat := { run := fun c => do modify (· + 1); return outcome c }
    let c : Cursor := { source := "aaab" }
    let steps : List (Text × Cursor) := [("aa", c.advance 2), ("a", c.advance 3)]
    p.Computes outcome ∧ TakesTexts outcome ∧ c.InSource ∧ Greedy outcome c steps ∧ p.RepeatsBy c steps := by
  intro taken outcome p c steps
  have hp : p.Computes outcome := fun _ _ s => ⟨s + 1, rfl⟩
  have ht : TakesTexts outcome := by
    intro c hc v d h
    obtain ⟨rfl, rfl⟩ := Outcome.success.inj h
    exact ⟨⟨_, rfl⟩, (reaches_iff hc).1 (reaches_advance c (Int.natCast_nonneg _))⟩
  have hc : c.InSource := ⟨by decide, by decide⟩
  have hstop : Stays outcome (c.advance 3) := by
    intro v d h
    obtain ⟨-, rfl⟩ := Outcome.success.inj h
    decide
  have hsteps : Greedy outcome c steps := .step rfl (by decide) (.step rfl (by decide) (.stop hstop))
  obtain ⟨steps', -, hunique, -, hrepeats⟩ := repetitions_agree hp ht hc
  rw [← hunique steps hsteps] at hrepeats
  exact ⟨hp, ht, hc, hsteps, hrepeats⟩

end Parser

end ParserAlgebra
