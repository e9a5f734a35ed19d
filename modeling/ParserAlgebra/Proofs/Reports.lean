import ParserAlgebra.Observer
import ParserAlgebra.Proofs.Greedy

/-!
# Reports of a repetition

A matcher under a repetition reports every run, also the last one, which fails and ends the repetition.
-/

namespace ParserAlgebra

open Cursor Parse

variable {κ : Type} {outcome : Cursor → Outcome} {c d e : Cursor} {v : Value} {vs : List Value} {rules : List Rule}

/-! ## What callbacks leave -/

/-- The list that a callback adds to and the calls of callbacks, beside the state that a parser has of its own. -/
structure Journal (κ : Type) where
  own : κ
  list : List Value
  calls : List Rule

/-- The callback that adds the value of a match to the list. It notes that it was called. -/
def appendResult (rule : Rule) : Parse (Journal κ) Unit :=
  modify fun j => { j with list := j.list ++ [rule.result], calls := j.calls ++ [rule] }

/-- On every cursor of a source, the parser ends with the outcome for that cursor. It writes only to a state of its own,
and leaves the list and the log of calls alone. -/
def Parser.ComputesBeside (p : Parser (Journal κ)) (outcome : Cursor → Outcome) : Prop :=
  ∀ c : Cursor, c.InSource → ∀ j, ∃ own, (p.run c).run j = .ok (outcome c) { j with own }

/-- On every cursor of a source, a failure stays there. -/
def FailsInPlace (outcome : Cursor → Outcome) : Prop :=
  ∀ c : Cursor, c.InSource → ∀ m, outcome c = .failure m → m.cursor = c

/-! ## Reports in a row -/

/-- The report of a failure at `c`. -/
def Rule.ofFailure (c : Cursor) : Rule where
  input := c.rest
  result := .none
  remaining := c.rest
  succeeded := false

theorem FailsInPlace.ofOutcome (h : FailsInPlace outcome) (hc : c.InSource) {m : Mismatch}
    (ho : outcome c = .failure m) : Rule.ofOutcome c (.failure m) = .ofFailure c := by
  have hm := h c hc m ho
  subst hm
  rfl

/-- From the text `t` to the text `u`, each report begins with what the one before it left. -/
def Linked : (t : Text) → List Rule → (u : Text) → Prop
  | t, [], u => t = u
  | t, rule :: rules, u => rule.input = t ∧ Linked rule.remaining rules u

theorem Linked.append {t u w : Text} {rules' : List Rule} (h : Linked t rules u) (h' : Linked u rules' w) :
    Linked t (rules ++ rules') w := by
  induction rules generalizing t with
  | nil =>
      cases h
      exact h'
  | cons rule rules ih => exact ⟨h.1, ih h.2⟩

/-- The reports tell of matches from one cursor to another, with these values. -/
structure Tells (rules : List Rule) (c : Cursor) (vs : List Value) (e : Cursor) : Prop where
  results : rules.map (·.result) = vs
  succeeded : ∀ rule ∈ rules, rule.succeeded = true
  linked : Linked c.rest rules e.rest

theorem tells_nil (c : Cursor) : Tells [] c [] c :=
  ⟨rfl, nofun, rfl⟩

theorem Tells.cons (v : Value) (h : Tells rules d vs e) :
    Tells (.ofOutcome c (.success v d) :: rules) c (v :: vs) e where
  results := congrArg (v :: ·) h.results
  succeeded := List.forall_mem_cons.2 ⟨rfl, h.succeeded⟩
  linked := ⟨rfl, h.linked⟩

namespace Parser

variable {p : Parser (Journal κ)} (onFailure : Rule → Parse (Journal κ) Unit)

/-! ## The repetition -/

theorem matcher_run_success {j : Journal κ} {own : κ} (h : (p.run c).run j = .ok (.success v d) { j with own }) :
    ((p.matcher appendResult (some onFailure)).run c).run j = .ok (.success v d)
      { own, list := j.list ++ [v], calls := j.calls ++ [.ofOutcome c (.success v d)] } :=
  run_bind_of_ok h _

theorem matcher_run_failure {j j' : Journal κ} {m : Mismatch} (h : (p.run c).run j = .ok (.failure m) j') :
    ((p.matcher appendResult (some onFailure)).run c).run j =
      (onFailure (.ofOutcome c (.failure m)) >>= fun _ => pure (.failure m) : Parse (Journal κ) Outcome).run j' :=
  run_bind_of_ok h _

/-- The rounds come to what is left of them at the end of the chain, where the matches were reported and the failure is
reported next. -/
theorem rounds_matcher_run (hp : p.ComputesBeside outcome) (hahead : EndsAhead outcome)
    (h : Chain (.moved outcome) c vs e) (hc : c.InSource) {m : Mismatch} (he : outcome e = .failure m) {limit : Nat}
    (hl : vs.length < limit) :
    ∃ rules, Tells rules c vs e ∧ ∀ j, ∃ own,
      (rounds (p.matcher appendResult (some onFailure)) (fun _ => false) limit c).run j =
        (onFailure (.ofOutcome e (.failure m)) >>= fun _ => pure (vs, e) : Parse (Journal κ) _).run
          { own, list := j.list ++ vs, calls := j.calls ++ rules } := by
  induction h generalizing limit with
  | nil c =>
      obtain ⟨limit, rfl⟩ := Nat.exists_eq_succ_of_ne_zero (Nat.ne_zero_of_lt hl)
      refine ⟨[], tells_nil c, fun j => ?_⟩
      obtain ⟨own, hrun⟩ := hp c hc j
      rw [he] at hrun
      refine ⟨own, ?_⟩
      rw [rounds, if_neg Bool.false_ne_true, List.append_nil, List.append_nil]
      rw [run_bind_congr (matcher_run_failure onFailure hrun), bind_assoc]
      rfl
  | @cons c d e v vs hm hchain ih =>
      obtain ⟨limit, rfl⟩ := Nat.exists_eq_succ_of_ne_zero (Nat.ne_zero_of_lt hl)
      obtain ⟨ho, hlt⟩ := hm
      have hd := hahead.inSource hc ho
      obtain ⟨rules, htells, hrest⟩ := ih hd he (Nat.lt_of_succ_lt_succ hl)
      refine ⟨_, htells.cons v, fun j => ?_⟩
      obtain ⟨own, hrun⟩ := hp c hc j
      rw [ho] at hrun
      -- The rounds that are left begin with this match in the list and among the calls.
      obtain ⟨own', hrounds⟩ :=
        hrest { own, list := j.list ++ [v], calls := j.calls ++ [.ofOutcome c (.success v d)] }
      refine ⟨own', ?_⟩
      rw [rounds, if_neg Bool.false_ne_true, run_bind_of_ok (matcher_run_success onFailure hrun)]
      dsimp only
      rw [if_neg (Int.ne_of_gt hlt), run_bind_congr hrounds, bind_assoc, List.append_assoc, List.append_assoc]
      rfl

theorem repeated_matcher_run (hp : p.ComputesBeside outcome) (hahead : EndsAhead outcome)
    (h : Chain (.moved outcome) c vs e) (hc : c.InSource) {m : Mismatch} (he : outcome e = .failure m) :
    ∃ rules, Tells rules c vs e ∧ ∀ j, ∃ own,
      ((p.matcher appendResult (some onFailure)).zeroOrMore.run c).run j =
        (onFailure (.ofOutcome e (.failure m)) >>= fun _ => pure (.success (.tuple vs) e) : Parse (Journal κ) _).run
          { own, list := j.list ++ vs, calls := j.calls ++ rules } := by
  obtain ⟨rules, htells, hrounds⟩ := rounds_matcher_run onFailure hp hahead h hc he (length_lt_rounds hahead h hc)
  refine ⟨rules, htells, fun j => ?_⟩
  obtain ⟨own, hrun⟩ := hrounds j
  refine ⟨own, ?_⟩
  change (rounds _ _ _ c >>= _).run j = _
  rw [run_bind_congr hrun, bind_assoc]
  rfl

/-- The callback for matches is told of the values that the repetition yields, of each once and in their order. As the
parser leaves the list and the log of calls alone, the list ends with these values. The first report begins with what
remains at the cursor, each later one with what the one before it left. Then the other callback is told of the failure,
with what the repetition leaves, and whatever it does, nothing is run after it. If it notes that it was called and keeps
the list, then it was called once and at the end. -/
theorem callbacks_see_matches_kept (hp : p.ComputesBeside outcome) (hmoves : MovesAhead outcome)
    (hfails : FailsInPlace outcome) (hc : c.InSource) :
    ∃ rules vs e, rules.map (·.result) = vs ∧ (∀ rule ∈ rules, rule.succeeded = true) ∧ c.Reaches e ∧
      Linked c.rest (rules ++ [.ofFailure e]) e.rest ∧
      (∀ j, ∃ own, ((p.matcher appendResult (some onFailure)).zeroOrMore.run c).run j =
        (onFailure (.ofFailure e) >>= fun _ => pure (.success (.tuple vs) e) : Parse (Journal κ) Outcome).run
          { own, list := j.list ++ vs, calls := j.calls ++ rules }) ∧
      ((∀ rule j, ∃ own, (onFailure rule).run j = .ok () { j with own, calls := j.calls ++ [rule] }) →
        ∀ j, ∃ own, ((p.matcher appendResult (some onFailure)).zeroOrMore.run c).run j = .ok (.success (.tuple vs) e)
          { own, list := j.list ++ vs, calls := j.calls ++ rules ++ [.ofFailure e] }) := by
  have hahead := hmoves.endsAhead
  obtain ⟨vs, e, hchain, hstays⟩ := hahead.exists_chain hc
  have hreach := hchain.reaches onward_inSource hahead.forward hc
  have he := onward_inSource.reaches hc hreach
  obtain ⟨m, ho⟩ := hmoves.failure_of_stays he hstays
  obtain ⟨rules, htells, hrun⟩ := repeated_matcher_run onFailure hp hahead hchain hc ho
  rw [hfails.ofOutcome he ho] at hrun
  refine ⟨rules, vs, e, htells.results, htells.succeeded, hreach, htells.linked.append ⟨rfl, rfl⟩, hrun, ?_⟩
  intro hnotes j
  obtain ⟨own, hj⟩ := hrun j
  obtain ⟨own', hnote⟩ := hnotes (.ofFailure e) { own, list := j.list ++ vs, calls := j.calls ++ rules }
  exact ⟨own', by rw [hj, run_bind_of_ok hnote]; rfl⟩

/-- A parser that counts its runs takes two letters `a` or one, the one without a value. From the second letter of
`xaaab` it matches twice, and then the failure at the `b` is reported. -/
theorem callbacks_see_matches_kept_before_b :
    let outcome (c : Cursor) : Outcome :=
      if c.startsWith "aa" then .success (.text "aa") (c.advance 2)
      else if c.startsWith "a" then .success .none (c.advance 1) else .fail c Wording.noMatch []
    let p : Parser (Journal Nat) :=
      { run := fun c => do modify fun j => { j with own := j.own + 1 }; return outcome c }
    let onFailure (rule : Rule) : Parse (Journal Nat) Unit := modify fun j => { j with calls := j.calls ++ [rule] }
    let c : Cursor := { source := "xaaab", pos := 1 }
    let calls : List Rule := [{ input := "aaab", result := .text "aa", remaining := "ab", succeeded := true },
      { input := "ab", result := .none, remaining := "b", succeeded := true }, .ofFailure (c.advance 3)]
    p.ComputesBeside outcome ∧ MovesAhead outcome ∧ FailsInPlace outcome ∧ c.InSource ∧
      (∀ rule j, ∃ own, (onFailure rule).run j = .ok () { j with own, calls := j.calls ++ [rule] }) ∧
      ((p.matcher appendResult (some onFailure)).zeroOrMore.run c).run { own := 0, list := [.text "z"], calls := [] } =
        .ok (.success (.tuple [.text "aa", .none]) (c.advance 3))
          { own := 3, list := [.text "z", .text "aa", .none], calls } ∧
      Linked "aaab" calls "b" := by
  intro outcome p onFailure c calls
  have hp : p.ComputesBeside outcome := fun _ _ j => ⟨j.own + 1, rfl⟩
  have hmoves : MovesAhead outcome := by
    intro c hc v d h
    have htaken : ∀ (t : Text) (n : Int), t ≠ [] → 0 < n → c.startsWith t →
        c.pos < (c.advance n).pos ∧ (c.advance n).pos ≤ c.source.length := by
      intro t n ht hn hstarts
      have hend : ¬c.atEnd := fun hend =>
        Bool.false_ne_true ((startsWith_of_atEnd hc.1 hend ht).symm.trans hstarts)
      exact ⟨pos_lt_advance hend hn, ((reaches_iff hc).1 (reaches_advance c (Int.le_of_lt hn))).2.2⟩
    simp only [outcome] at h
    split at h
    · rename_i hstarts
      cases h
      exact ⟨rfl, htaken "aa" 2 (by decide) (by decide) hstarts⟩
    · split at h
      · rename_i hstarts
        cases h
        exact ⟨rfl, htaken "a" 1 (by decide) (by decide) hstarts⟩
      · cases h
  have hfails : FailsInPlace outcome := by
    intro c _ m h
    simp only [outcome] at h
    split at h
    · cases h
    · split at h
      · cases h
      · cases h
        rfl
  have hc : c.InSource := ⟨by decide, by decide⟩
  have hnotes : ∀ rule j, ∃ own, (onFailure rule).run j = .ok () { j with own, calls := j.calls ++ [rule] } :=
    fun _ j => ⟨j.own, rfl⟩
  have hrun : ((p.matcher appendResult (some onFailure)).zeroOrMore.run c).run
      { own := 0, list := [.text "z"], calls := [] } = .ok (.success (.tuple [.text "aa", .none]) (c.advance 3))
        { own := 3, list := [.text "z", .text "aa", .none], calls } := rfl
  refine ⟨hp, hmoves, hfails, hc, hnotes, hrun, ?_⟩
  obtain ⟨rules, vs, e, -, -, -, hlinked, -, hnoted⟩ := callbacks_see_matches_kept onFailure hp hmoves hfails hc
  obtain ⟨own, hown⟩ := hnoted hnotes { own := 0, list := [.text "z"], calls := [] }
  obtain ⟨hresult, hjournal⟩ := EStateM.Result.ok.inj (hown.symm.trans hrun)
  obtain ⟨-, -, hcalls⟩ := Journal.mk.inj hjournal
  cases (Outcome.success.inj hresult).2
  rw [List.nil_append] at hcalls
  rwa [hcalls] at hlinked

end Parser

end ParserAlgebra
