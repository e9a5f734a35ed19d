import Mathlib.Data.List.Forall2
import ParserAlgebra.Proofs.Conformance

/-!
# Parsers that behave alike

Two parsers run side by side, on cursors related by `K` and from states related by `S`, and what they return and leave
behind is related again. If `E` holds, the words of the failures are the same too.
-/

namespace ParserAlgebra

open Cursor Parse

variable {σ τ : Type} {S : σ → τ → Prop} {K : Cursor → Cursor → Prop} {E : Prop}

/-! ## What corresponds -/

/-- Cursors that correspond show a parser the same. -/
structure Similar (K : Cursor → Cursor → Prop) : Prop where
  atEnd : ∀ {c d}, K c d → c.atEnd = d.atEnd
  rest : ∀ {c d}, K c d → c.rest = d.rest
  remaining : ∀ {c d}, K c d → c.remaining = d.remaining
  current : ∀ {c d}, K c d → ¬c.atEnd → c.current = d.current
  advance : ∀ {c d}, K c d → K (c.advance 1) (d.advance 1)
  since : ∀ {c d c' d'}, K c d → K c' d' → c'.since c = d'.since d
  pos : ∀ {c d c' d'}, K c d → K c' d' → (c'.pos = c.pos ↔ d'.pos = d.pos)
  mark : ∀ {c d c' d'}, K c d → K c' d' → ¬c.atEnd →
    EndsAlike (fun _ _ => True) (Mark.between c c') (Mark.between d d')

/-- Two outcomes correspond. -/
inductive Outcome.Alike (K : Cursor → Cursor → Prop) (E : Prop) : Outcome → Outcome → Prop
  | success {c d : Cursor} (v : Value) : K c d → Alike K E (.success v c) (.success v d)
  | failure {m m' : Mismatch} : K m.cursor m'.cursor →
      (E → m.message = m'.message ∧ m.expected = m'.expected) → Alike K E (.failure m) (.failure m')

/-- What two searches give corresponds. -/
inductive Found.Alike (K : Cursor → Cursor → Prop) : Option Found → Option Found → Prop
  | none : Alike K .none .none
  | some {c c' d d' : Cursor} (v : Value) : K c c' → K d d' →
      Alike K (.some { start := c, value := v, stop := d }) (.some { start := c', value := v, stop := d' })

/-- What two repetitions give corresponds. -/
def CollectedAlike (K : Cursor → Cursor → Prop) (r r' : List Value × Cursor) : Prop :=
  r.1 = r'.1 ∧ K r.2 r'.2

/-- On cursors that correspond the two parsers behave alike. -/
structure Parser.Alike (S : σ → τ → Prop) (K : Cursor → Cursor → Prop) (E : Prop) (p : Parser σ)
    (p' : Parser τ) : Prop where
  name : E → p.name = p'.name
  run : ∀ {c d}, K c d → Agrees S (Outcome.Alike K E) (p.run c) (p'.run d)

theorem Outcome.alike_fail {c d : Cursor} (h : K c d) {message message' : Text}
    {expected expected' : List Text} (hm : E → message = message') (he : E → expected = expected') :
    (fail c message expected).Alike K E (fail d message' expected') :=
  .failure h fun hE => ⟨hm hE, he hE⟩

theorem Outcome.alike_fail_same {c d : Cursor} (h : K c d) (message : Text) (expected : List Text) :
    (fail c message expected).Alike K E (fail d message expected) :=
  .failure h fun _ => ⟨rfl, rfl⟩

/-- The reports of two runs that end alike are the same. -/
theorem Outcome.Alike.rule_eq (hK : Similar K) {c d : Cursor} {o o' : Outcome} (h : o.Alike K E o')
    (hcd : K c d) : Rule.ofOutcome c o = Rule.ofOutcome d o' := by
  cases h with
  | success v h =>
      simp only [Rule.ofOutcome, Outcome.value, Outcome.rest, Outcome.cursor, Outcome.succeeded,
        hK.rest hcd, hK.rest h]
  | failure h _ =>
      simp only [Rule.ofOutcome, Outcome.value, Outcome.rest, Outcome.cursor, Outcome.succeeded,
        hK.rest hcd, hK.rest h]

theorem alike_place {c d c' d' : Cursor} (stance : Stance) (h : K c d) (h' : K c' d') :
    K (stance.place c c') (stance.place d d') := by
  cases stance with
  | consuming => exact h'
  | ahead => exact h

namespace Parser

variable {p q : Parser σ} {p' q' : Parser τ}

theorem nameOf_one (combinator : String) (h : E → p.name = p'.name) :
    E → nameOf combinator [p] = nameOf combinator [p'] := by
  intro hE
  simp only [nameOf, List.map_cons, List.map_nil, h hE]

theorem nameOf_two (combinator : String) (h : E → p.name = p'.name) (h' : E → q.name = q'.name) :
    E → nameOf combinator [p, q] = nameOf combinator [p', q'] := by
  intro hE
  simp only [nameOf, List.map_cons, List.map_nil, h hE, h' hE]

theorem nameOf_all (combinator : String) {ps : List (Parser σ)} {ps' : List (Parser τ)}
    (h : List.Forall₂ (Alike S K E) ps ps') : E → nameOf combinator ps = nameOf combinator ps' := by
  intro hE
  have hmap : ps.map (·.name) = ps'.map (·.name) := by
    induction h with
    | nil => rfl
    | cons h _ ih => rw [List.map_cons, List.map_cons, h.name hE, ih]
  simp only [nameOf, hmap]

theorem alike_ofOutcome {name : Text} {outcome : Cursor → Outcome}
    (h : ∀ {c d}, K c d → (outcome c).Alike K E (outcome d)) :
    (ofOutcome name outcome : Parser σ).Alike S K E (ofOutcome name outcome : Parser τ) where
  name _ := rfl
  run hcd := agrees_pure (h hcd)

/-! ## Assertions -/

theorem Alike.lookahead (h : p.Alike S K E p') : p.lookahead.Alike S K E p'.lookahead where
  name := nameOf_one _ h.name
  run {c d} hcd := by
    refine (h.run hcd).bind fun o o' ho => ?_
    cases ho with
    | success v _ => exact agrees_pure (.success v hcd)
    | failure _ hm => exact agrees_pure (.failure hcd hm)

theorem Alike.negate (hK : Similar K) (h : p.Alike S K E p') : p.negate.Alike S K E p'.negate where
  name := nameOf_one _ h.name
  run {c d} hcd := by
    unfold Parser.negate
    dsimp only
    rw [← hK.atEnd hcd]
    split
    · exact agrees_pure (Outcome.alike_fail_same hcd _ _)
    · rename_i hend
      refine (h.run hcd).bind fun o o' ho => ?_
      cases ho with
      | success v _ =>
          exact agrees_pure (Outcome.alike_fail hcd (fun hE => by rw [h.name hE]) fun _ => rfl)
      | failure _ _ =>
          rw [← hK.current hcd hend]
          refine agrees_lift_bind _ fun ch => ?_
          exact agrees_pure (.success _ (hK.advance hcd))

theorem Alike.ignore (h : p.Alike S K E p') : p.ignore.Alike S K E p'.ignore where
  name := nameOf_one _ h.name
  run {c d} hcd := by
    refine (h.run hcd).bind fun o o' ho => ?_
    cases ho with
    | success v hd => exact agrees_pure (.success _ hd)
    | failure hm he => exact agrees_pure (.failure hm he)

theorem Alike.ifCondition (h : p.Alike S K E p') {test test' : Test Outcome}
    (ht : ∀ o o', Outcome.Alike K E o o' → test o = test' o') :
    (p.ifCondition test).Alike S K E (p'.ifCondition test') where
  name := nameOf_one _ h.name
  run {c d} hcd := by
    refine (h.run hcd).bind fun o o' ho => ?_
    rw [ht o o' ho]
    refine agrees_lift_bind _ fun _ => ?_
    split
    · exact agrees_pure ho
    · exact agrees_pure (Outcome.alike_fail hcd (fun hE => by rw [h.name hE]) fun _ => rfl)

theorem Alike.applyIf (hK : Similar K) (h : p.Alike S K E p') (test : Test Text) :
    (p.applyIf test).Alike S K E (p'.applyIf test) where
  name := nameOf_one _ h.name
  run {c d} hcd := by
    unfold Parser.applyIf
    dsimp only
    rw [hK.rest hcd]
    refine agrees_lift_bind _ fun _ => ?_
    split
    · exact h.run hcd
    · exact agrees_pure (Outcome.alike_fail hcd (fun hE => by rw [h.name hE]) fun _ => rfl)

/-! ## Packing -/

theorem Alike.pack (h : p.Alike S K E p') : p.pack.Alike S K E p'.pack where
  name := nameOf_one _ h.name
  run {c d} hcd := by
    refine (h.run hcd).bind fun o o' ho => ?_
    cases ho with
    | success v hd => exact agrees_pure (.success _ hd)
    | failure _ _ => exact agrees_pure (.success _ hcd)

theorem Alike.unpack (h : p.Alike S K E p') : p.unpack.Alike S K E p'.unpack where
  name := nameOf_one _ h.name
  run {c d} hcd := by
    refine (h.run hcd).bind fun o o' ho => ?_
    cases ho with
    | failure hm he => exact agrees_pure (.failure hm he)
    | success v hd =>
        cases v with
        | none | int _ | text _ => exact agrees_throw _ _
        | tuple vs =>
            cases vs with
            | nil =>
                exact agrees_pure (Outcome.alike_fail hcd (fun hE => by rw [h.name hE]) fun _ => rfl)
            | cons v vs =>
                cases vs with
                | nil => exact agrees_pure (.success v hd)
                | cons w vs => exact agrees_throw _ _

/-! ## Choices -/

theorem Alike.choice (h : p.Alike S K E p') (h' : q.Alike S K E q') :
    (p.choice q).Alike S K E (p'.choice q') where
  name := nameOf_two _ h.name h'.name
  run {c d} hcd := by
    refine (h.run hcd).bind fun o o' ho => ?_
    cases ho with
    | success v hd => exact agrees_pure (.success v hd)
    | failure _ _ => exact h'.run hcd

theorem Alike.both (h : p.Alike S K E p') (h' : q.Alike S K E q') :
    (p.both q).Alike S K E (p'.both q') where
  name := nameOf_two _ h.name h'.name
  run {c d} hcd := by
    refine (h.run hcd).bind fun o o' ho => ?_
    cases ho with
    | failure hm he => exact agrees_pure (.failure hm he)
    | success v _ => exact h'.run hcd

theorem Alike.xor (h : p.Alike S K E p') (h' : q.Alike S K E q') :
    (p.xor q).Alike S K E (p'.xor q') where
  name := nameOf_two _ h.name h'.name
  run {c d} hcd := by
    refine (h.run hcd).bind fun o o' ho => (h'.run hcd).bind fun w w' hw => ?_
    cases ho with
    | success v hd =>
        cases hw with
        | success _ _ => exact agrees_pure (Outcome.alike_fail_same hcd _ _)
        | failure _ _ => exact agrees_pure (.success v hd)
    | failure _ _ =>
        cases hw with
        | success v hd => exact agrees_pure (.success v hd)
        | failure _ _ => exact agrees_pure (Outcome.alike_fail_same hcd _ _)

theorem Alike.choiceKeepFirst (h : p.Alike S K E p') (h' : q.Alike S K E q') :
    (p.choiceKeepFirst q).Alike S K E (p'.choiceKeepFirst q') where
  name := nameOf_two _ h.name h'.name
  run {c d} hcd := by
    refine (h.run hcd).bind fun o o' ho => ?_
    cases ho with
    | success v hd => exact agrees_pure (.success v hd)
    | failure _ _ =>
        refine (h'.run hcd).bind fun w w' hw => ?_
        cases hw with
        | failure hm he => exact agrees_pure (.failure hm he)
        | success _ hd => exact agrees_pure (.success _ hd)

/-! ## Sequences -/

theorem Alike.seq (h : p.Alike S K E p') (h' : q.Alike S K E q') :
    (p.seq q).Alike S K E (p'.seq q') where
  name := nameOf_two _ h.name h'.name
  run {c d} hcd := by
    refine (h.run hcd).bind fun o o' ho => ?_
    cases ho with
    | failure hm he => exact agrees_pure (.failure hm he)
    | success _ hd =>
        refine (h'.run hd).bind fun w w' hw => ?_
        cases hw with
        | failure _ he => exact agrees_pure (.failure hcd he)
        | success v he => exact agrees_pure (.success v he)

theorem Alike.seqKeepFirst (h : p.Alike S K E p') (h' : q.Alike S K E q') :
    (p.seqKeepFirst q).Alike S K E (p'.seqKeepFirst q') where
  name := nameOf_two _ h.name h'.name
  run {c d} hcd := by
    refine (h.run hcd).bind fun o o' ho => ?_
    cases ho with
    | failure hm he => exact agrees_pure (.failure hm he)
    | success v hd =>
        refine (h'.run hd).bind fun w w' hw => ?_
        cases hw with
        | failure _ _ => exact agrees_pure (.success v hd)
        | success _ he => exact agrees_pure (.success v he)

theorem Alike.before (h : p.Alike S K E p') (h' : q.Alike S K E q') :
    (p.before q).Alike S K E (p'.before q') where
  name := nameOf_two _ h.name h'.name
  run {c d} hcd := by
    rw [run_before, run_before]
    exact (Alike.seq h' h).run hcd

theorem Alike.after (h : p.Alike S K E p') (h' : q.Alike S K E q') :
    (p.after q).Alike S K E (p'.after q') where
  name := nameOf_two _ h.name h'.name
  run {c d} hcd := by
    refine (h.run hcd).bind fun o o' ho => ?_
    cases ho with
    | failure hm he => exact agrees_pure (.failure hm he)
    | success v hd =>
        refine (h'.run hd).bind fun w w' hw => ?_
        cases hw with
        | failure _ he => exact agrees_pure (.failure hcd he)
        | success _ he => exact agrees_pure (.success v he)

theorem Alike.join (f : Binary) (h : p.Alike S K E p') (h' : q.Alike S K E q') :
    (f.join p q).Alike S K E (f.join p' q') := by
  cases f with
  | seq => exact Alike.seq h h'
  | choice => exact Alike.choice h h'
  | both => exact Alike.both h h'
  | xor => exact Alike.xor h h'
  | seqKeepFirst => exact Alike.seqKeepFirst h h'
  | choiceKeepFirst => exact Alike.choiceKeepFirst h h'
  | before => exact Alike.before h h'
  | after => exact Alike.after h h'

theorem Alike.collect {ps : List (Parser σ)} {ps' : List (Parser τ)}
    (h : List.Forall₂ (Alike S K E) ps ps') {c d : Cursor} (hcd : K c d) :
    Agrees S (CollectedAlike K) (collect ps c) (collect ps' d) := by
  induction h generalizing c d with
  | nil => exact agrees_pure ⟨rfl, hcd⟩
  | cons h _ ih =>
      rw [Parser.collect, Parser.collect]
      refine (h.run hcd).bind fun o o' ho => ?_
      cases ho with
      | failure _ _ => exact agrees_pure ⟨rfl, hcd⟩
      | success v hd =>
          exact (ih hd).bind fun r r' hr => agrees_pure ⟨by rw [hr.1], hr.2⟩

theorem Alike.seqN (stance : Stance) {ps : List (Parser σ)} {ps' : List (Parser τ)}
    (h : List.Forall₂ (Alike S K E) ps ps') : (seqN stance ps).Alike S K E (seqN stance ps') where
  name := nameOf_all _ h
  run {c d} hcd := by
    refine (Alike.collect h hcd).bind fun r r' hr => ?_
    dsimp only
    rw [hr.1]
    exact agrees_pure (.success _ (alike_place stance hcd hr.2))

/-! ## Repetitions -/

/-- From `c`, the two numbers of rounds for a repetition of `p` are the same, or both are enough. -/
def RoundsSuffice (p : Parser σ) (limit limit' : Nat) (c : Cursor) : Prop :=
  limit = limit' ∨ p.ConformsOn True NotBefore ∧ c.NotBefore ∧ c.distance < limit ∧ c.distance < limit'

/-- Repetitions of `p` from cursors that correspond do not end for want of rounds on one side only. -/
def LoopsAlike (K : Cursor → Cursor → Prop) (p : Parser σ) : Prop :=
  ∀ c d, K c d → RoundsSuffice p (c.reach + spareRounds) (d.reach + spareRounds) c

/-- After a match that moved, what is left of the rounds suffices. -/
theorem RoundsSuffice.next {limit limit' : Nat} {c : Cursor}
    (h : RoundsSuffice p (limit + 1) (limit' + 1) c) :
    (p.run c).Returns True fun o =>
      ∀ v d, o = .success v d → d.pos ≠ c.pos → RoundsSuffice p limit limit' d := by
  rcases h with h | ⟨hp, hc, hl, hl'⟩
  · exact (returns_true _).imp fun _ _ _ _ _ _ => Or.inl (Nat.succ_inj.1 h)
  · refine (hp c hc).imp fun o ho v d hod hne => ?_
    subst hod
    have hlt := Reaches.distance_lt ho hne
    exact Or.inr ⟨hp, onward_notBefore.reaches hc ho, by omega, by omega⟩

/-- Whether a repetition has gone far enough shows alike on cursors that correspond. -/
def StopsAlike (K : Cursor → Cursor → Prop) (enough : Cursor → Bool) : Prop :=
  ∀ c d, K c d → enough c = enough d

theorem Alike.rounds (hK : Similar K) (h : p.Alike S K E p') {enough : Cursor → Bool}
    (he : StopsAlike K enough) {limit limit' : Nat} {c d : Cursor} (hcd : K c d)
    (hl : RoundsSuffice p limit limit' c) :
    Agrees S (CollectedAlike K) (rounds p enough limit c) (rounds p' enough limit' d) := by
  induction limit generalizing limit' c d with
  | zero =>
      cases limit' with
      | zero => exact agrees_throw _ _
      | succ limit' =>
          rcases hl with hl | ⟨_, _, hl, _⟩
          · cases hl
          · cases hl
  | succ limit ih =>
      cases limit' with
      | zero =>
          rcases hl with hl | ⟨_, _, _, hl⟩
          · cases hl
          · cases hl
      | succ limit' =>
          rw [Parser.rounds, Parser.rounds, ← he c d hcd]
          split
          · exact agrees_pure ⟨rfl, hcd⟩
          · refine ((h.run hcd).and_returns hl.next).bind fun o o' ho => ?_
            obtain ⟨ho, hnext⟩ := ho
            cases ho with
            | failure _ _ => exact agrees_pure ⟨rfl, hcd⟩
            | success v hd =>
                dsimp only
                rw [if_congr (hK.pos hcd hd) rfl rfl]
                split
                · exact agrees_pure ⟨rfl, hcd⟩
                · rename_i hne
                  have hne' := fun heq => hne ((hK.pos hcd hd).1 heq)
                  exact (ih hd (hnext v _ rfl hne')).bind fun r r' hr =>
                    agrees_pure ⟨by rw [hr.1], hr.2⟩

theorem Alike.repeated (hK : Similar K) (h : p.Alike S K E p') (hl : LoopsAlike K p)
    {enough : Cursor → Bool} (he : StopsAlike K enough) {c d : Cursor} (hcd : K c d) :
    Agrees S (CollectedAlike K) (repeated p enough c) (repeated p' enough d) :=
  h.rounds hK he hcd (hl c d hcd)

theorem Alike.zeroOrMore (hK : Similar K) (h : p.Alike S K E p') (hl : LoopsAlike K p) :
    p.zeroOrMore.Alike S K E p'.zeroOrMore where
  name := nameOf_one _ h.name
  run {c d} hcd := by
    refine (h.repeated hK hl (fun _ _ _ => rfl) hcd).bind fun r r' hr => ?_
    dsimp only
    rw [hr.1]
    exact agrees_pure (.success _ hr.2)

theorem Alike.oneOrMore (hK : Similar K) (h : p.Alike S K E p') (hl : LoopsAlike K p) :
    p.oneOrMore.Alike S K E p'.oneOrMore where
  name := nameOf_one _ h.name
  run {c d} hcd := by
    refine (h.repeated hK hl (fun _ _ _ => rfl) hcd).bind fun r r' hr => ?_
    dsimp only
    rw [hr.1]
    split
    · exact agrees_pure (Outcome.alike_fail hcd (fun hE => by rw [h.name hE]) fun _ => rfl)
    · exact agrees_pure (.success _ hr.2)

theorem Alike.attempts (hK : Similar K) (h : p.Alike S K E p') (count : Nat) {c d : Cursor}
    (hcd : K c d) : Agrees S (CollectedAlike K) (attempts p count c) (attempts p' count d) := by
  induction count generalizing c d with
  | zero => exact agrees_pure ⟨rfl, hcd⟩
  | succ count ih =>
      rw [Parser.attempts, Parser.attempts, ← hK.atEnd hcd]
      split
      · exact agrees_pure ⟨rfl, hcd⟩
      · refine (h.run hcd).bind fun o o' ho => ?_
        cases ho with
        | failure _ _ => exact ih hcd
        | success v hd =>
            exact (ih hd).bind fun r r' hr => agrees_pure ⟨by rw [hr.1], hr.2⟩

theorem Alike.exactly (hK : Similar K) (h : p.Alike S K E p') (n : Int) :
    (p.exactly n).Alike S K E (p'.exactly n) where
  name hE := by
    simp only [Parser.exactly, h.name hE]
  run {c d} hcd := by
    refine (h.attempts hK n.toNat hcd).bind fun r r' hr => ?_
    dsimp only
    rw [hr.1]
    exact agrees_pure (.success _ hr.2)

/-! ## Scans -/

theorem Alike.searchAmong (hK : Similar K) (h : p.Alike S K E p') (count : Nat) {c d : Cursor}
    (hcd : K c d) : Agrees S (Found.Alike K) (searchAmong p count c) (searchAmong p' count d) := by
  induction count generalizing c d with
  | zero => exact agrees_pure .none
  | succ count ih =>
      rw [Parser.searchAmong, Parser.searchAmong]
      refine (h.run hcd).bind fun o o' ho => ?_
      cases ho with
      | success v hd => exact agrees_pure (.some v hcd hd)
      | failure _ _ => exact ih (hK.advance hcd)

theorem Alike.search (hK : Similar K) (h : p.Alike S K E p') {c d : Cursor} (hcd : K c d) :
    Agrees S (Found.Alike K) (search p c) (search p' d) := by
  unfold Parser.search
  rw [hK.remaining hcd]
  exact h.searchAmong hK _ hcd

theorem Alike.neverMatched (h : p.Alike S K E p') {c d : Cursor} (hcd : K c d) :
    (neverMatched c p).Alike K E (neverMatched d p') :=
  Outcome.alike_fail hcd (fun hE => by rw [h.name hE]) fun hE => by rw [h.name hE]

theorem Alike.until (hK : Similar K) (h : p.Alike S K E p') (yield : Yield) (stance : Stance) :
    (Parser.until yield stance p).Alike S K E (Parser.until yield stance p') where
  name := nameOf_one _ h.name
  run {c d} hcd := by
    refine (h.search hK hcd).bind fun f f' hf => ?_
    cases hf with
    | none => exact agrees_pure (h.neverMatched hcd)
    | @some first first' last last' v hstart hstop =>
        have hyield : yieldFound c ⟨first, v, last⟩ yield = yieldFound d ⟨first', v, last'⟩ yield := by
          cases yield with
          | last => rfl
          | whole => simp only [yieldFound, hK.since hcd hstart]
        dsimp only
        rw [hyield]
        refine agrees_lift_bind _ fun w => ?_
        exact agrees_pure (.success w (alike_place stance hcd hstop))

theorem Alike.loop (hK : Similar K) (h : p.Alike S K E p') (hl : LoopsAlike K p) (yield : Yield)
    (stance : Stance) : (Parser.loop yield stance p).Alike S K E (Parser.loop yield stance p') where
  name := nameOf_one _ h.name
  run {c d} hcd := by
    refine (h.repeated hK hl (fun _ _ => hK.atEnd) hcd).bind fun r r' hr => agrees_lift ?_
    rw [hr.1]
    have hplace := alike_place stance hcd hr.2
    cases yield with
    | whole =>
        simp only [yieldLoop]
        split
        · exact .ok (.success _ hplace)
        · exact .error _
    | last =>
        simp only [yieldLoop]
        split
        · exact .ok (.success _ hplace)
        · exact .ok (Outcome.alike_fail hcd (fun hE => by rw [h.name hE]) fun hE => by rw [h.name hE])

theorem Alike.collectAt (hK : Similar K) {ps : List (Parser σ)} {ps' : List (Parser τ)}
    (h : List.Forall₂ (Alike S K E) ps ps') {c d : Cursor} (hcd : K c d) :
    Agrees S (CollectedAlike K) (collectAt ps c) (collectAt ps' d) := by
  induction h generalizing c d with
  | nil => exact agrees_pure ⟨rfl, hcd⟩
  | cons h _ ih =>
      rw [Parser.collectAt, Parser.collectAt]
      refine (h.search hK hcd).bind fun f f' hf => ?_
      cases hf with
      | none => exact agrees_pure ⟨rfl, hcd⟩
      | some v _ hstop =>
          exact (ih hstop).bind fun r r' hr => agrees_pure ⟨by rw [hr.1], hr.2⟩

theorem Alike.seqAt (hK : Similar K) (stance : Stance) {ps : List (Parser σ)} {ps' : List (Parser τ)}
    (h : List.Forall₂ (Alike S K E) ps ps') : (seqAt stance ps).Alike S K E (seqAt stance ps') where
  name := nameOf_all _ h
  run {c d} hcd := by
    refine (Alike.collectAt hK h hcd).bind fun r r' hr => ?_
    dsimp only
    rw [hr.1]
    exact agrees_pure (.success _ (alike_place stance hcd hr.2))

/-! ## Regions -/

theorem Alike.openRegion (hK : Similar K) (h : p.Alike S K E p') (hl : LoopsAlike K p) {c d : Cursor}
    (hcd : K c d) : Agrees S (Option.Rel K) (openRegion p c) (openRegion p' d) := by
  refine (h.search hK hcd).bind fun f f' hf => ?_
  cases hf with
  | none => exact agrees_pure .none
  | some v _ hstop =>
      exact (h.repeated hK hl (fun _ _ => hK.atEnd) hstop).bind fun r r' hr => agrees_pure (.some hr.2)

theorem Alike.captureBetweenParsers (hK : Similar K) (h : p.Alike S K E p') (hl : LoopsAlike K p)
    (h' : q.Alike S K E q') :
    (captureBetweenParsers p q).Alike S K E (captureBetweenParsers p' q') where
  name := nameOf_two _ h.name h'.name
  run {c d} hcd := by
    refine (h.openRegion hK hl hcd).bind fun i i' hi => ?_
    cases hi with
    | none => exact agrees_pure (h.neverMatched hcd)
    | some hinner =>
        refine (h'.search hK hinner).bind fun f f' hf => ?_
        cases hf with
        | none => exact agrees_pure (h'.neverMatched hcd)
        | some v hstart _ =>
            dsimp only
            rw [hK.since hinner hstart]
            exact agrees_pure (.success _ hstart)

theorem Alike.ignoreBetweenParsers (hK : Similar K) (h : p.Alike S K E p') (hl : LoopsAlike K p)
    (h' : q.Alike S K E q') (hl' : LoopsAlike K q) :
    (ignoreBetweenParsers p q).Alike S K E (ignoreBetweenParsers p' q') where
  name := nameOf_two _ h.name h'.name
  run {c d} hcd := by
    refine (h.openRegion hK hl hcd).bind fun i i' hi => ?_
    cases hi with
    | none => exact agrees_pure (h.neverMatched hcd)
    | some hinner =>
        refine (h'.search hK hinner).bind fun f f' hf => ?_
        cases hf with
        | none => exact agrees_pure (h'.neverMatched hcd)
        | some v _ hstop =>
            exact (h'.repeated hK hl' (fun _ _ => hK.atEnd) hstop).bind fun r r' hr =>
              agrees_pure (.success _ hr.2)

/-! ## Observers -/

theorem Alike.matcher (hK : Similar K) (h : p.Alike S K E p') {onSuccess : Rule → Parse σ Unit}
    {onSuccess' : Rule → Parse τ Unit} {onFailure : Option (Rule → Parse σ Unit)}
    {onFailure' : Option (Rule → Parse τ Unit)}
    (hs : ∀ rule, Agrees S (fun _ _ => True) (onSuccess rule) (onSuccess' rule))
    (hf : Option.Rel (fun f f' => ∀ rule, Agrees S (fun _ _ => True) (f rule) (f' rule)) onFailure
      onFailure') :
    (p.matcher onSuccess onFailure).Alike S K E (p'.matcher onSuccess' onFailure') where
  name := nameOf_one _ h.name
  run {c d} hcd := by
    refine (h.run hcd).bind fun o o' ho => ?_
    have hrule := ho.rule_eq hK hcd
    cases ho with
    | success v hd =>
        refine Agrees.bind (R := fun _ _ => True) ?_ fun _ _ _ => agrees_pure (.success v hd)
        rw [hrule]
        exact hs _
    | failure hm he =>
        cases hf with
        | none => exact agrees_pure (.failure hm he)
        | some hf =>
            refine Agrees.bind (R := fun _ _ => True) ?_ fun _ _ _ => agrees_pure (.failure hm he)
            rw [hrule]
            exact hf _

theorem Alike.track (hK : Similar K) (h : p.Alike S K E p') {record : Mark → σ → σ}
    {record' : Mark → τ → τ} (hr : ∀ mark mark' s t, S s t → S (record mark s) (record' mark' t)) :
    (p.track record).Alike S K E (p'.track record') where
  name := nameOf_one _ h.name
  run {c d} hcd := by
    unfold Parser.track
    dsimp only
    rw [← hK.atEnd hcd]
    split
    · exact agrees_pure (Outcome.alike_fail_same hcd _ _)
    · rename_i hend
      refine (h.run hcd).bind fun o o' ho => ?_
      cases ho with
      | failure hm he => exact agrees_pure (.failure hm he)
      | success v hd =>
          refine (agrees_lift (hK.mark hcd hd hend)).bind fun mark mark' _ => ?_
          exact (agrees_modify (hr mark mark')).bind fun _ _ _ => agrees_pure (.success v hd)

end Parser

/-! ## Nodes -/

/-- The tests of the combinator do not distinguish outcomes that are related. -/
def Unary.TestsBy (R : Outcome → Outcome → Prop) : Unary → Prop
  | ifCondition test | elseCondition test => ∀ o o', R o o' → test o = test o'
  | _ => True

namespace Parser

variable {p : Parser σ} {p' : Parser τ} {ps : List (Parser σ)} {ps' : List (Parser τ)}

theorem Alike.unary (hK : Similar K) {f : Unary} (hf : f.TestsBy (Outcome.Alike K E)) (hl : LoopsAlike K p)
    (h : p.Alike S K E p') : (f.apply p).Alike S K E (f.apply p') := by
  cases f with
  | zeroOrMore => exact h.zeroOrMore hK hl
  | oneOrMore => exact h.oneOrMore hK hl
  | exactly n => exact h.exactly hK n
  | lookahead => exact h.lookahead
  | negate => exact h.negate hK
  | ignore => exact h.ignore
  | ifCondition test => exact h.ifCondition hf
  | elseCondition test => exact h.ifCondition fun o o' ho => congrArg ((!·) <$> ·) (hf o o' ho)
  | applyIf test => exact h.applyIf hK test
  | applyElse test => exact h.applyIf hK test.not
  | pack => exact h.pack
  | unpack => exact h.unpack
  | «until» yield stance => exact h.until hK yield stance
  | loop yield stance => exact h.loop hK hl yield stance

theorem Alike.firstOf (h : p.Alike S K E p') (hs : List.Forall₂ (Alike S K E) ps ps') :
    (firstOf p ps).Alike S K E (firstOf p' ps') := by
  induction hs generalizing p p' with
  | nil => exact h
  | cons hq _ ih => exact Alike.choice h (ih hq)

theorem Alike.anyOf {combinator : String} (hs : List.Forall₂ (Alike S K E) ps ps')
    (h : anyOf combinator ps = .ok p) :
    ∃ p', Parser.anyOf combinator ps' = .ok p' ∧ p.Alike S K E p' := by
  cases hs with
  | nil => cases h
  | cons hq hs =>
      cases h
      exact ⟨_, rfl, hq.firstOf hs⟩

theorem Alike.applyAll (hK : Similar K) {f : Nary} (hs : List.Forall₂ (Alike S K E) ps ps')
    (hl : ∀ {combinator q}, Parser.anyOf combinator ps = .ok q → LoopsAlike K q) (h : f.applyAll ps = .ok p) :
    ∃ p', f.applyAll ps' = .ok p' ∧ p.Alike S K E p' := by
  cases f with
  | choice => exact Alike.anyOf hs h
  | seq stance =>
      cases h
      exact ⟨_, rfl, Alike.seqN stance hs⟩
  | seqAt stance =>
      cases h
      exact ⟨_, rfl, Alike.seqAt hK stance hs⟩
  | «until» yield stance =>
      obtain ⟨q, hq, h⟩ := bind_eq_ok h
      cases h
      obtain ⟨q', hq', hqq'⟩ := Alike.anyOf hs hq
      exact ⟨_, by rw [Nary.applyAll, untilN, hq']; rfl, hqq'.until hK yield stance⟩
  | loop yield stance =>
      obtain ⟨q, hq, h⟩ := bind_eq_ok h
      cases h
      obtain ⟨q', hq', hqq'⟩ := Alike.anyOf hs hq
      exact ⟨_, by rw [Nary.applyAll, loopN, hq']; rfl, hqq'.loop hK (hl hq) yield stance⟩

/-- Parsers that are each alike with themselves are put together to one that is. -/
theorem Alike.applyAll_self {S : σ → σ → Prop} (hK : Similar K) {f : Nary} (hs : ∀ q ∈ ps, q.Alike S K E q)
    (hl : ∀ {combinator q}, Parser.anyOf combinator ps = .ok q → LoopsAlike K q) (h : f.applyAll ps = .ok p) :
    p.Alike S K E p := by
  obtain ⟨p', hp', halike⟩ := Alike.applyAll hK (List.forall₂_same.2 hs) hl h
  cases h.symm.trans hp'
  exact halike

end Parser

end ParserAlgebra
