import ParserAlgebra.Proofs.Greedy

/-!
# Attempts

Attempts, a sequence of copies and a repetition stop for different reasons. Where the outcome depends on the cursor
alone and all matches move, the first two yield what the repetition begins with.
-/

namespace ParserAlgebra

open Cursor Parse

variable {σ : Type} {p : Parser σ} {outcome : Cursor → Outcome} {c d : Cursor} {v : Value} {vs : List Value}
  {place : Nat → Cursor}

/-! ## Matches by number -/

/-- From `c` on there are matches with the values `vs`, from each place to the next, and a failure at the last place. -/
structure MatchesThrough (outcome : Cursor → Outcome) (c : Cursor) (vs : List Value) (place : Nat → Cursor) : Prop where
  start : place 0 = c
  matched : ∀ i (h : i < vs.length), outcome (place i) = .success vs[i] (place (i + 1))
  failed : ∃ m, outcome (place vs.length) = .failure m

/-- The places in order if `c` comes before the others. -/
def placesFrom (c : Cursor) (place : Nat → Cursor) : Nat → Cursor
  | 0 => c
  | i + 1 => place i

namespace MatchesThrough

theorem nil {m : Mismatch} (h : outcome c = .failure m) : MatchesThrough outcome c [] fun _ => c where
  start := rfl
  matched := nofun
  failed := ⟨m, h⟩

theorem cons (ho : outcome c = .success v d) (h : MatchesThrough outcome d vs place) :
    MatchesThrough outcome c (v :: vs) (placesFrom c place) where
  start := rfl
  matched
    | 0, _ => by
        rw [← h.start] at ho
        exact ho
    | i + 1, hi => h.matched i (Nat.lt_of_succ_lt_succ hi)
  failed := h.failed

theorem failure (h : MatchesThrough outcome c [] place) : ∃ m, outcome c = .failure m := by
  rw [← h.start]
  exact h.failed

theorem head (h : MatchesThrough outcome c (v :: vs) place) : outcome c = .success v (place 1) := by
  rw [← h.start]
  exact h.matched 0 (Nat.zero_lt_succ _)

theorem tail (h : MatchesThrough outcome c (v :: vs) place) :
    MatchesThrough outcome (place 1) vs fun i => place (i + 1) where
  start := rfl
  matched i hi := h.matched (i + 1) (Nat.succ_lt_succ hi)
  failed := h.failed

theorem chain (hmoves : MovesAhead outcome) (h : MatchesThrough outcome c vs place) (hc : c.InSource) :
    Chain (.moved outcome) c vs (place vs.length) := by
  induction vs generalizing c place with
  | nil =>
      rw [← h.start]
      exact .nil _
  | cons v vs ih =>
      have hd := hmoves.endsAhead.inSource hc h.head
      exact .cons ⟨h.head, (hmoves c hc v _ h.head).2.1⟩ (ih h.tail hd)

theorem stays (h : MatchesThrough outcome c vs place) : Stays outcome (place vs.length) := by
  obtain ⟨m, hm⟩ := h.failed
  intro v d ho
  cases hm.symm.trans ho

/-- Each match ends further on than it began. -/
theorem pos_lt (hmoves : MovesAhead outcome) (h : MatchesThrough outcome c vs place) (hc : c.InSource) {i : Nat}
    (hi : i < vs.length) : (place i).pos < (place (i + 1)).pos := by
  induction vs generalizing c place i with
  | nil => cases hi
  | cons v vs ih =>
      obtain ⟨-, hlt, -⟩ := hmoves c hc v _ h.head
      cases i with
      | zero =>
          rw [h.start]
          exact hlt
      | succ i => exact ih h.tail (hmoves.endsAhead.inSource hc h.head) (Nat.lt_of_succ_lt_succ hi)

end MatchesThrough

theorem Chain.exists_matchesThrough {e : Cursor} {m : Mismatch} (h : Chain (.moved outcome) c vs e)
    (he : outcome e = .failure m) : ∃ place, MatchesThrough outcome c vs place := by
  induction h with
  | nil c => exact ⟨_, .nil he⟩
  | cons hm _ ih =>
      obtain ⟨place, h⟩ := ih he
      exact ⟨_, h.cons hm.1⟩

/-- From every cursor the matches go on up to a failure. -/
theorem MovesAhead.exists_matchesThrough (hmoves : MovesAhead outcome) (hc : c.InSource) :
    ∃ vs place, MatchesThrough outcome c vs place := by
  obtain ⟨vs, e, hchain, hstays⟩ := hmoves.endsAhead.exists_chain hc
  have he := hmoves.endsAhead.inSource_of_chain hc hchain
  obtain ⟨m, ho⟩ := hmoves.failure_of_stays he hstays
  exact ⟨vs, hchain.exists_matchesThrough ho⟩

/-! ## Runs that take the matches up to a number -/

/-- A run for so many matches gives none where there is a failure or where none is asked for, and a match is followed
by what the run for one match less gives behind it. -/
structure TakesMatches (outcome : Cursor → Outcome) (run : Nat → Cursor → Parse σ (List Value × Cursor)) : Prop where
  none_asked : ∀ c, (run 0 c).Gives ([], c)
  of_failure : ∀ count c m, c.InSource → outcome c = .failure m → (run count c).Gives ([], c)
  of_success : ∀ count c v d vs e, c.InSource → outcome c = .success v d → (run count d).Gives (vs, e) →
    (run (count + 1) c).Gives (v :: vs, e)

/-- The values are the first of those that there are, and the run ends at the place behind the last one taken. -/
theorem TakesMatches.gives {run : Nat → Cursor → Parse σ (List Value × Cursor)} (hrun : TakesMatches outcome run)
    (hmoves : MovesAhead outcome) (h : MatchesThrough outcome c vs place) (hc : c.InSource) (count : Nat) :
    (run count c).Gives (vs.take count, place (min count vs.length)) := by
  induction count generalizing c vs place with
  | zero =>
      rw [Nat.zero_min, h.start]
      exact hrun.none_asked c
  | succ count ih =>
      cases vs with
      | nil =>
          obtain ⟨m, hm⟩ := h.failure
          rw [List.length_nil, Nat.min_zero, h.start]
          exact hrun.of_failure _ c m hc hm
      | cons v vs =>
          rw [List.length_cons, Nat.succ_min_succ]
          exact hrun.of_success _ c v _ _ _ hc h.head (ih h.tail (hmoves.endsAhead.inSource hc h.head))

namespace Parser

/-- A failed attempt is like no attempt: all those that are left fail at the same cursor. -/
theorem attempts_gives_of_failure (hp : p.Computes outcome) (hc : c.InSource) {m : Mismatch}
    (ho : outcome c = .failure m) (count : Nat) : (attempts p count c).Gives ([], c) := by
  induction count with
  | zero => exact gives_pure _
  | succ count ih =>
      rw [attempts]
      split
      · exact gives_pure _
      · refine (hp c hc).bind ?_
        rw [ho]
        exact ih

theorem takesMatches_attempts (hp : p.Computes outcome) (hmoves : MovesAhead outcome) :
    TakesMatches outcome (attempts p) where
  none_asked _ := gives_pure _
  of_failure count _ _ hc ho := attempts_gives_of_failure hp hc ho count
  of_success count c v d vs e hc ho hrest := by
    -- At the end of the input there is no match, since a match moves.
    have hend : ¬c.atEnd := fun hend =>
      absurd (hmoves.endsAhead.stays_of_atEnd hc hend v d ho) (Int.ne_of_gt (hmoves c hc v d ho).2.1)
    rw [attempts, if_neg hend]
    refine (hp c hc).bind ?_
    rw [ho]
    exact hrest.bind (gives_pure _)

theorem takesMatches_collect (hp : p.Computes outcome) :
    TakesMatches outcome fun count => collect (List.replicate count p) where
  none_asked _ := gives_pure _
  of_failure count c m hc ho := by
    cases count with
    | zero => exact gives_pure _
    | succ count =>
        rw [List.replicate_succ, collect]
        refine (hp c hc).bind ?_
        rw [ho]
        exact gives_pure _
  of_success count c v d vs e hc ho hrest := by
    rw [List.replicate_succ, collect]
    refine (hp c hc).bind ?_
    rw [ho]
    exact hrest.bind (gives_pure _)

/-! ## The result -/

/-- From every cursor of a source there are matches, each ending further on, up to a failure, and the repetition yields
the values of them all. `n` attempts, and a sequence of `n` copies, yield the first `n` of these values, or all if there
are fewer, and end where the repetition was after so many matches; a negative `n` is like zero. Attempts where the
parser fails yield nothing and stay. -/
theorem exactly_takes_first_matches (hp : p.Computes outcome) (hmoves : MovesAhead outcome) (hc : c.InSource) :
    (∃ vs place, MatchesThrough outcome c vs place) ∧
    ∀ vs place, MatchesThrough outcome c vs place →
      (∀ i < vs.length, (place i).pos < (place (i + 1)).pos) ∧
      (p.zeroOrMore.run c).Gives (.success (.tuple vs) (place vs.length)) ∧
      (∀ (n : Int) (k : Nat), (k : Int) = min (max n 0) vs.length →
        ((p.exactly n).run c).Gives (.success (.tuple (vs.take k)) (place k)) ∧
        ((seqN .consuming (List.replicate n.toNat p)).run c).Gives (.success (.tuple (vs.take k)) (place k))) ∧
      ∀ n : Int, ((p.exactly n).run (place vs.length)).Gives (.success (.tuple []) (place vs.length)) := by
  refine ⟨hmoves.exists_matchesThrough hc, fun vs place h => ⟨fun i hi => h.pos_lt hmoves hc hi, ?many, ?first, ?failed⟩⟩
  case many => exact zeroOrMore_gives hp hmoves.endsAhead (h.chain hmoves hc) h.stays hc
  case first =>
    intro n k hk
    have hcount : k = min n.toNat vs.length := by omega
    have htake : vs.take k = vs.take n.toNat := by rw [hcount, ← List.take_eq_take_min]
    rw [htake, hcount]
    exact ⟨((takesMatches_attempts hp hmoves).gives hmoves h hc n.toNat).bind (gives_pure _),
      ((takesMatches_collect hp).gives hmoves h hc n.toNat).bind (gives_pure _)⟩
  case failed =>
    intro n
    obtain ⟨m, hm⟩ := h.failed
    have he := hmoves.endsAhead.inSource_of_chain hc (h.chain hmoves hc)
    exact (attempts_gives_of_failure hp he hm n.toNat).bind (gives_pure _)

/-- A parser that counts its runs takes one or two letters `a`. From the beginning of `aaab` it matches twice: one
attempt yields the first match, five attempts yield both and then fail at the `b`, and no attempts are made if their
number is negative. -/
theorem exactly_takes_first_matches_before_b :
    let taken (c : Cursor) : Text := (c.rest.take 2).takeWhile (· == 'a')
    let outcome (c : Cursor) : Outcome :=
      if (taken c).isEmpty then .fail c Wording.noMatch []
      else .success (.text (taken c)) (c.advance (taken c).length)
    let p : Parser Nat := { run := fun c => do modify (· + 1); return outcome c }
    let c : Cursor := { source := "aaab" }
    let vs : List Value := [.text "aa", .text "a"]
    let place (i : Nat) : Cursor := if i = 0 then c else c.advance (i + 1)
    p.Computes outcome ∧ MovesAhead outcome ∧ c.InSource ∧ MatchesThrough outcome c vs place ∧
      ((p.exactly 1).run c).Gives (.success (.tuple [.text "aa"]) (c.advance 2)) ∧
      ((p.exactly 5).run c).Gives (.success (.tuple vs) (c.advance 3)) ∧
      ((seqN .consuming (List.replicate 5 p)).run c).Gives (.success (.tuple vs) (c.advance 3)) ∧
      ((p.exactly (-2)).run c).Gives (.success (.tuple []) c) := by
  intro taken outcome p c vs place
  have hp : p.Computes outcome := fun _ _ s => ⟨s + 1, rfl⟩
  have hmoves : MovesAhead outcome := by
    intro c hc v d h
    simp only [outcome] at h
    split at h
    · cases h
    · rename_i htaken
      cases h
      have hend : ¬c.atEnd := fun hend => htaken (by simp only [taken, rest_of_atEnd hc.1 hend]; rfl)
      have hlen : (0 : Int) < (taken c).length := by simpa [List.length_pos_iff] using htaken
      exact ⟨rfl, pos_lt_advance hend hlen, ((reaches_iff hc).1 (reaches_advance c (Int.le_of_lt hlen))).2.2⟩
  have hc : c.InSource := ⟨by decide, by decide⟩
  have hthrough : MatchesThrough outcome c vs place :=
    { start := rfl
      matched := fun
        | 0, _ => rfl
        | 1, _ => rfl
      failed := ⟨_, rfl⟩ }
  obtain ⟨-, hmatches⟩ := exactly_takes_first_matches hp hmoves hc
  obtain ⟨-, -, hfirst, -⟩ := hmatches vs place hthrough
  exact ⟨hp, hmoves, hc, hthrough, (hfirst 1 1 rfl).1, (hfirst 5 2 rfl).1, (hfirst 5 2 rfl).2, (hfirst (-2) 0 rfl).1⟩

end Parser

end ParserAlgebra
