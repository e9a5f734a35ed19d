import ParserAlgebra.Parser.Assertion
import ParserAlgebra.Parser.Region
import ParserAlgebra.Proofs.Movement
import ParserAlgebra.Proofs.Run

/-!
# Matches in a row

If each match is a step of some kind, a run of several returns a chain of such steps. The kind of step is a parameter:
it may say where the match ends, or also what its value is.
-/

namespace ParserAlgebra

open Cursor Parse

/-- What is known of a match: the cursor it began at, its value, and the cursor behind it. -/
abbrev StepRel := Cursor → Value → Cursor → Prop

/-- Steps of one kind one after another, each from the cursor that the one before it left. -/
inductive Chain (M : StepRel) : Cursor → List Value → Cursor → Prop
  | nil (c : Cursor) : Chain M c [] c
  | cons {c d e : Cursor} {v : Value} {vs : List Value} :
      M c v d → Chain M d vs e → Chain M c (v :: vs) e

/-- From a cursor of `D`, a step of the kind leads forward. -/
def StepRel.Forward (D : Cursor → Prop) (M : StepRel) : Prop :=
  ∀ c v d, D c → M c v d → c.Reaches d

/-- On the cursors of `D`, the outcomes of the parser are as `R` asks, and only if `F` holds, it may end with
a fault. -/
def Parser.Meets {σ : Type} (F : Prop) (p : Parser σ) (D : Cursor → Prop)
    (R : Cursor → Outcome → Prop) : Prop :=
  ∀ c, D c → (p.run c).Returns F (R c)

/-- If the outcome of a run from `c` is a match, it is a step of the kind. -/
def Outcome.IsStep (M : StepRel) (c : Cursor) : Outcome → Prop
  | success v d => M c v d
  | failure _ => True

/-- On the cursors of `D`, all matches of the parser are steps of the kind. -/
abbrev Parser.StepsBy {σ : Type} (F : Prop) (p : Parser σ) (D : Cursor → Prop) (M : StepRel) : Prop :=
  p.Meets F D (Outcome.IsStep M)

/-- A step that begins somewhere ahead. -/
def StepRel.ahead (M : StepRel) : StepRel := fun c v d =>
  ∃ start, c.Reaches start ∧ ¬start.atEnd ∧ M start v d

variable {σ : Type} {F : Prop} {D : Cursor → Prop} {M : StepRel}

theorem Outcome.isStep_fail (M : StepRel) (c : Cursor) (message : Text) (expected : List Text) :
    (fail c message expected).IsStep M c :=
  trivial

theorem Chain.reaches (hD : Onward D) (hM : M.Forward D) {c e : Cursor} {vs : List Value} (hc : D c)
    (h : Chain M c vs e) : c.Reaches e := by
  induction h with
  | nil c => exact Reaches.refl c
  | cons hm _ ih =>
      have hd := hM _ _ _ hc hm
      exact hd.trans (ih (hD.reaches hc hd))

theorem Chain.imp {M' : StepRel} (hD : Onward D) (hM : M.Forward D) (hstep : ∀ c v d, D c → M c v d → M' c v d)
    {c e : Cursor} {vs : List Value} (hc : D c) (h : Chain M c vs e) : Chain M' c vs e := by
  induction h with
  | nil c => exact .nil c
  | cons hm _ ih => exact .cons (hstep _ _ _ hc hm) (ih (hD.reaches hc (hM _ _ _ hc hm)))

theorem StepRel.Forward.ahead (hD : Onward D) (hM : M.Forward D) : M.ahead.Forward D := by
  rintro c v d hc ⟨start, hs, -, hm⟩
  exact hs.trans (hM _ _ _ (hD.reaches hc hs) hm)

namespace Parser

/-! ## Repetitions -/

theorem rounds_returns (hD : Onward D) (hM : M.Forward D) {p : Parser σ} (hp : p.StepsBy F D M)
    (enough : Cursor → Bool) (limit : Nat) {c : Cursor} (hc : D c) (hl : c.distance < limit) :
    (rounds p enough limit c).Returns F fun r => Chain M c r.1 r.2 := by
  induction limit generalizing c with
  | zero => cases hl
  | succ limit ih =>
      rw [rounds]
      split
      · exact returns_pure (.nil c)
      · refine (hp c hc).bind fun o ho => ?_
        cases o with
        | failure m => exact returns_pure (.nil c)
        | success v d =>
            dsimp only
            split
            · exact returns_pure (.nil c)
            · rename_i hne
              -- The match moved, so it came closer to the end, and the rounds left suffice from there.
              have hd := hM _ _ _ hc ho
              have hlt := hd.distance_lt hne
              exact (ih (hD.reaches hc hd) (by omega)).bind fun r hr => returns_pure (.cons ho hr)

theorem repeated_returns (hD : Onward D) (hM : M.Forward D) {p : Parser σ} (hp : p.StepsBy F D M)
    (enough : Cursor → Bool) {c : Cursor} (hc : D c) :
    (repeated p enough c).Returns F fun r => Chain M c r.1 r.2 := by
  have hl := c.distance_le_reach
  exact rounds_returns hD hM hp enough _ hc (by rw [spareRounds]; omega)

theorem attempts_returns (hD : Onward D) (hM : M.Forward D) {p : Parser σ} (hp : p.StepsBy F D M)
    (count : Nat) {c : Cursor} (hc : D c) :
    (attempts p count c).Returns F fun r => Chain M c r.1 r.2 := by
  induction count generalizing c with
  | zero => exact returns_pure (.nil c)
  | succ count ih =>
      rw [attempts]
      split
      · exact returns_pure (.nil c)
      · refine (hp c hc).bind fun o ho => ?_
        cases o with
        | failure m => exact ih hc
        | success v d =>
            exact (ih (hD.reaches hc (hM _ _ _ hc ho))).bind fun r hr => returns_pure (.cons ho hr)

/-! ## Sequences -/

theorem collect_returns (hD : Onward D) (hM : M.Forward D) {ps : List (Parser σ)}
    (hps : ∀ p ∈ ps, p.StepsBy F D M) {c : Cursor} (hc : D c) :
    (collect ps c).Returns F fun r => Chain M c r.1 r.2 := by
  induction ps generalizing c with
  | nil => exact returns_pure (.nil c)
  | cons p ps ih =>
      rw [collect]
      refine (hps p (by simp) c hc).bind fun o ho => ?_
      cases o with
      | failure m => exact returns_pure (.nil c)
      | success v d =>
          have ih := ih (fun q hq => hps q (by simp [hq])) (hD.reaches hc (hM _ _ _ hc ho))
          exact ih.bind fun r hr => returns_pure (.cons ho hr)

/-! ## Going ahead -/

/-- What a search from `c` finds is a step that begins ahead. -/
def FoundBy (M : StepRel) (c : Cursor) (found : Option Found) : Prop :=
  ∀ f, found = some f → c.Reaches f.start ∧ ¬f.start.atEnd ∧ M f.start f.value f.stop

theorem searchAmong_returns (hD : Onward D) {p : Parser σ} (hp : p.StepsBy F D M) (count : Nat)
    {c : Cursor} (hc : D c) (hcount : count ≤ c.remaining) :
    (searchAmong p count c).Returns F (FoundBy M c) := by
  induction count generalizing c with
  | zero => exact returns_pure nofun
  | succ count ih =>
      rw [searchAmong]
      refine (hp c hc).bind fun o ho => ?_
      have hend : ¬c.atEnd := by
        rw [atEnd_iff]
        simp only [remaining] at hcount
        omega
      cases o with
      | success v d =>
          refine returns_pure fun f hf => ?_
          cases hf
          exact ⟨Reaches.refl c, hend, ho⟩
      | failure m =>
          have hr := c.reaches_advance (n := 1) (by omega)
          have hcount' : count ≤ (c.advance 1).remaining := by
            simp only [remaining, advance] at hcount ⊢
            omega
          exact (ih (hD.reaches hc hr) hcount').imp fun found hfound f hf =>
            ⟨hr.trans (hfound f hf).1, (hfound f hf).2⟩

theorem search_returns (hD : Onward D) {p : Parser σ} (hp : p.StepsBy F D M) {c : Cursor} (hc : D c) :
    (search p c).Returns F (FoundBy M c) :=
  searchAmong_returns hD hp _ hc (Nat.le_refl _)

theorem collectAt_returns (hD : Onward D) (hM : M.Forward D) {ps : List (Parser σ)}
    (hps : ∀ p ∈ ps, p.StepsBy F D M) {c : Cursor} (hc : D c) :
    (collectAt ps c).Returns F fun r => Chain M.ahead c r.1 r.2 := by
  induction ps generalizing c with
  | nil => exact returns_pure (.nil c)
  | cons p ps ih =>
      rw [collectAt]
      refine (search_returns hD (hps p (by simp)) hc).bind fun found hfound => ?_
      cases found with
      | none => exact returns_pure (.nil c)
      | some f =>
          have hstep : M.ahead c f.value f.stop := ⟨f.start, hfound f rfl⟩
          have hstop := hD.reaches hc (StepRel.Forward.ahead hD hM _ _ _ hc hstep)
          have ih := ih (fun q hq => hps q (by simp [hq])) hstop
          exact ih.bind fun r hr => returns_pure (.cons hstep hr)

/-! ## Outcomes passed on -/

section Passing

variable {R : Cursor → Outcome → Prop} {p q : Parser σ}

theorem Meets.choice (hp : p.Meets F D R) (hq : q.Meets F D R) : (p.choice q).Meets F D R := by
  intro c hc
  refine (hp c hc).bind fun o ho => ?_
  cases o with
  | success v d => exact returns_pure ho
  | failure m => exact hq c hc

theorem Meets.both (hp : p.Meets F D R) (hq : q.Meets F D R) : (p.both q).Meets F D R := by
  intro c hc
  refine (hp c hc).bind fun o ho => ?_
  cases o with
  | success v d => exact hq c hc
  | failure m => exact returns_pure ho

theorem Meets.xor (hp : p.Meets F D R) (hq : q.Meets F D R)
    (hR : ∀ c message expected, R c (.fail c message expected)) : (p.xor q).Meets F D R := by
  intro c hc
  refine (hp c hc).bind fun o ho => (hq c hc).bind fun o' ho' => ?_
  cases o with
  | success v d =>
      cases o' with
      | success w e => exact returns_pure (hR c _ _)
      | failure m => exact returns_pure ho
  | failure m =>
      cases o' with
      | success w e => exact returns_pure ho'
      | failure m' => exact returns_pure (hR c _ _)

theorem Meets.ifCondition (hp : p.Meets F D R) (hR : ∀ c message expected, R c (.fail c message expected))
    {test : Test Outcome} (htest : F ∨ test.Answers) : (p.ifCondition test).Meets F D R := by
  intro c hc
  refine (hp c hc).bind fun o ho => (returns_test htest o).bind fun _ _ => ?_
  split
  · exact returns_pure ho
  · exact returns_pure (hR c _ _)

theorem Meets.applyIf (hp : p.Meets F D R) (hR : ∀ c message expected, R c (.fail c message expected))
    {test : Test Text} (htest : F ∨ test.Answers) : (p.applyIf test).Meets F D R := by
  intro c hc
  refine (returns_test htest c.rest).bind fun _ _ => ?_
  split
  · exact hp c hc
  · exact returns_pure (hR c _ _)

theorem Meets.matcher (hp : p.Meets F D R) {onSuccess : Rule → Parse σ Unit}
    {onFailure : Option (Rule → Parse σ Unit)} (hs : ∀ rule, (onSuccess rule).Returns F fun _ => True)
    (hf : ∀ report ∈ onFailure, ∀ rule, (report rule).Returns F fun _ => True) :
    (p.matcher onSuccess onFailure).Meets F D R := by
  intro c hc
  refine (hp c hc).bind fun o ho => ?_
  cases o with
  | success v d => exact (hs _).bind fun _ _ => returns_pure ho
  | failure m =>
      cases onFailure with
      | none => exact returns_pure ho
      | some report => exact (hf report rfl _).bind fun _ _ => returns_pure ho

theorem Meets.track (hp : p.Meets F D R) (hR : ∀ c message expected, R c (.fail c message expected))
    (hmark : ∀ c v d, D c → ¬c.atEnd → R c (.success v d) → F ∨ ∃ mark, Mark.between c d = .ok mark)
    (record : Mark → σ → σ) : (p.track record).Meets F D R := by
  intro c hc
  unfold Parser.track
  dsimp only
  split
  · exact returns_pure (hR c _ _)
  · rename_i hend
    refine (hp c hc).bind fun o ho => ?_
    cases o with
    | failure m => exact returns_pure ho
    | success v d =>
        have hbetween : Returns F (liftM (Mark.between c d) : Parse σ Mark) fun _ => True := by
          rcases hmark c v d hc hend ho with hF | ⟨mark, hmark⟩
          · exact returns_lift (fun _ _ => trivial) fun _ _ => hF
          · exact returns_lift_ok hmark trivial
        exact hbetween.bind fun mark _ => (returns_modify _).bind fun _ _ => returns_pure ho

end Passing

end Parser

end ParserAlgebra
