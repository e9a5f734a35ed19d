import Mathlib.Data.List.Forall2
import ParserAlgebra.Parser.Sequence
import ParserAlgebra.Parser.Choice
import ParserAlgebra.Proofs.Run

/-!
# Grammars put together in another way

A sequence hands on the failure of its first part and moves every other one back to its beginning. However the brackets
stand, this leaves the failure of the very first part alone.
-/

namespace ParserAlgebra

open Parse

variable {σ α β : Type}

/-! ## Results that do not depend on the state -/

/-- From every state, the run has this result, which may be a fault. -/
def Parse.HasResult (m : Parse σ α) (x : Except Fault α) : Prop :=
  ∀ s, m.result s = x

theorem Parse.hasResult_pure (a : α) : (pure a : Parse σ α).HasResult (pure a) :=
  fun _ => rfl

theorem Parse.HasResult.bind {m : Parse σ α} {f : α → Parse σ β} {x : Except Fault α} {g : α → Except Fault β}
    (hm : m.HasResult x) (hf : ∀ a, (f a).HasResult (g a)) : (m >>= f).HasResult (x >>= g) := by
  intro s
  have hs := hm s
  unfold Parse.result at hs ⊢
  rw [EStateM.run_bind]
  cases hr : m.run s with
  | ok a s' =>
      rw [hr] at hs
      subst hs
      exact hf a s'
  | error fault s' =>
      rw [hr] at hs
      subst hs
      rfl

/-- At every cursor, the parser has the result for that cursor. -/
def Parser.HasResults (p : Parser σ) (result : Cursor → Except Fault Outcome) : Prop :=
  ∀ c, (p.run c).HasResult (result c)

/-! ## Bracketings -/

/-- A way to put things together two by two. -/
inductive Bracketing (α : Type) where
  | single (a : α)
  | pair (l r : Bracketing α)

namespace Bracketing

/-- What is put together, from left to right. -/
def leaves : Bracketing α → List α
  | single a => [a]
  | pair l r => l.leaves ++ r.leaves

def combine (f : α → α → α) : Bracketing α → α
  | single a => a
  | pair l r => f (l.combine f) (r.combine f)

theorem exists_leaves (t : Bracketing α) : ∃ a as, t.leaves = a :: as := by
  induction t with
  | single a => exact ⟨a, [], rfl⟩
  | pair l r ihl _ =>
      obtain ⟨a, as, hl⟩ := ihl
      exact ⟨a, as ++ r.leaves, by rw [leaves, hl, List.cons_append]⟩

end Bracketing

namespace Parser

variable {f : Parser σ → Parser σ → Parser σ} {p q r : Parser σ}

/-- The parsers put together with all brackets to the right. -/
def nestRight (f : Parser σ → Parser σ → Parser σ) (p : Parser σ) : List (Parser σ) → Parser σ
  | [] => p
  | q :: qs => f p (nestRight f q qs)

/-- The runs of two parsers put together depend on the runs of the two, and those of three do not depend on the
brackets. -/
structure RunsAssociate (f : Parser σ → Parser σ → Parser σ) : Prop where
  congr : ∀ {p p' q q'}, p.run = p'.run → q.run = q'.run → (f p q).run = (f p' q').run
  assoc : ∀ p q r, (f (f p q) r).run = (f p (f q r)).run

theorem RunsAssociate.nestRight_append (hf : RunsAssociate f) (p : Parser σ) (ps : List (Parser σ)) (q : Parser σ)
    (qs : List (Parser σ)) : (nestRight f p (ps ++ q :: qs)).run = (f (nestRight f p ps) (nestRight f q qs)).run := by
  induction ps generalizing p with
  | nil => rfl
  | cons p' ps ih => exact (hf.congr rfl (ih p')).trans (hf.assoc _ _ _).symm

/-- Every bracketing runs like the one to the right. -/
theorem RunsAssociate.run_combine (hf : RunsAssociate f) {t : Bracketing (Parser σ)} {ps : List (Parser σ)}
    (ht : t.leaves = p :: ps) : (t.combine f).run = (nestRight f p ps).run := by
  induction t generalizing p ps with
  | single a =>
      cases ht
      rfl
  | pair l r ihl ihr =>
      obtain ⟨a, as, hl⟩ := l.exists_leaves
      obtain ⟨b, bs, hr⟩ := r.exists_leaves
      rw [Bracketing.leaves, hl, hr, List.cons_append] at ht
      cases ht
      exact (hf.congr (ihl hl) (ihr hr)).trans (hf.nestRight_append _ _ _ _).symm

theorem RunsAssociate.combine_eq (hf : RunsAssociate f) {t t' : Bracketing (Parser σ)} (h : t'.leaves = t.leaves) :
    (t'.combine f).run = (t.combine f).run := by
  obtain ⟨p, ps, ht⟩ := t.exists_leaves
  rw [hf.run_combine ht, hf.run_combine (h.trans ht)]

/-! ## Choices -/

theorem runsAssociate_choice : RunsAssociate (choice (σ := σ)) where
  congr hp hq := by simp only [choice, hp, hq]
  assoc p q r := by
    funext c
    simp only [choice, bind_assoc]
    congr 1
    funext o
    cases o with
    | success v d => exact pure_bind _ _
    | failure m => rfl

theorem firstOf_eq_nestRight (p : Parser σ) (ps : List (Parser σ)) : firstOf p ps = nestRight choice p ps := by
  induction ps generalizing p with
  | nil => rfl
  | cons q ps ih => rw [firstOf, nestRight, ih]

/-- The result stands at index `i`. Those before it are failures, and no other follows if it is one too. -/
structure DecidedAt (results : List (Except Fault Outcome)) (i : Nat) (x : Except Fault Outcome) : Prop where
  here : results[i]? = some x
  failed : ∀ j < i, ∃ m, results[j]? = some (.ok (.failure m))
  last : ∀ m, x = .ok (.failure m) → i + 1 = results.length

theorem DecidedAt.later {results : List (Except Fault Outcome)} {i : Nat} {x : Except Fault Outcome} (m : Mismatch)
    (h : DecidedAt results i x) : DecidedAt (.ok (.failure m) :: results) (i + 1) x where
  here := h.here
  failed j hj := by
    cases j with
    | zero => exact ⟨m, rfl⟩
    | succ j => exact h.failed j (by omega)
  last m' hx := by rw [h.last m' hx, List.length_cons]

/-- The results of a choice, from those of its parts. -/
def choiceResult (result next : Cursor → Except Fault Outcome) (c : Cursor) : Except Fault Outcome := do
  match ← result c with
  | .success v d => return .success v d
  | .failure _ => next c

theorem HasResults.choice {result next : Cursor → Except Fault Outcome} (hp : p.HasResults result)
    (hq : q.HasResults next) : (p.choice q).HasResults (choiceResult result next) := by
  intro c
  refine (hp c).bind fun o => ?_
  cases o with
  | success v d => exact hasResult_pure _
  | failure m => exact hq c

theorem firstOf_decided {result : Cursor → Except Fault Outcome} {ps : List (Parser σ)}
    {results : List (Cursor → Except Fault Outcome)} (hp : p.HasResults result)
    (hps : List.Forall₂ HasResults ps results) :
    ∃ first, (firstOf p ps).HasResults first ∧ ∀ c, ∃ i, DecidedAt ((result :: results).map (· c)) i (first c) := by
  induction hps generalizing p result with
  | nil => exact ⟨result, hp, fun c => ⟨0, rfl, nofun, fun _ _ => rfl⟩⟩
  | @cons q next qs results hq _ ih =>
      obtain ⟨first, hfirst, hdecided⟩ := ih hq
      refine ⟨_, hp.choice hfirst, fun c => ?_⟩
      rw [List.map_cons, choiceResult]
      -- Only a failure of the first parser leaves the decision to the others.
      cases result c with
      | error fault => exact ⟨0, rfl, nofun, nofun⟩
      | ok o =>
          cases o with
          | success v d => exact ⟨0, rfl, nofun, nofun⟩
          | failure m =>
              obtain ⟨i, hi⟩ := hdecided c
              exact ⟨i + 1, hi.later m⟩

/-! ## Sequences -/

theorem runsAssociate_seq : RunsAssociate (seq (σ := σ)) where
  congr hp hq := by simp only [seq, hp, hq]
  assoc p q r := by
    funext c
    simp only [seq, bind_assoc]
    congr 1
    funext o
    cases o with
    | failure m => exact pure_bind _ _
    | success v d =>
        simp only [bind_assoc]
        congr 1
        funext o
        cases o with
        | failure m => simp only [pure_bind]
        | success w e =>
            simp only [pure_bind, bind_assoc]
            congr 1
            funext o
            cases o with
            | failure m => simp only [pure_bind, Mismatch.rewind]
            | success u e' => simp only [pure_bind]

/-- The results of a sequence, from those of its parts. -/
def seqResult (result next : Cursor → Except Fault Outcome) (c : Cursor) : Except Fault Outcome := do
  match ← result c with
  | .failure m => return .failure m
  | .success _ d =>
    match ← next d with
    | .failure m => return .failure (m.rewind c)
    | .success v e => return .success v e

theorem HasResults.seq {result next : Cursor → Except Fault Outcome} (hp : p.HasResults result)
    (hq : q.HasResults next) : (p.seq q).HasResults (seqResult result next) := by
  intro c
  refine (hp c).bind fun o => ?_
  cases o with
  | failure m => exact hasResult_pure _
  | success v d =>
      refine (hq d).bind fun o => ?_
      cases o with
      | failure m => exact hasResult_pure _
      | success w e => exact hasResult_pure _

/-- A common beginning may be taken out of a choice. -/
theorem choiceResult_seqResult (result next other : Cursor → Except Fault Outcome) (c : Cursor) :
    choiceResult (seqResult result next) (seqResult result other) c = seqResult result (choiceResult next other) c := by
  unfold choiceResult seqResult
  cases hr : result c with
  | error fault => rfl
  | ok o =>
      cases o with
      | failure m => rfl
      | success v d =>
          cases hn : next d with
          | error fault => simp [hn, bind, Except.bind]
          | ok o =>
              cases o with
              | success w e => simp [hn, bind, Except.bind, pure, Except.pure]
              | failure m => simp [hn, bind, Except.bind, pure, Except.pure]

/-! ## The result -/

/-- However a choice is bracketed, it runs like the choice of all its parsers in their order: the first result that is
no failure decides, or the failure of the last. However a sequence is bracketed, it runs like every other bracketing of
the same parsers. And a common beginning may be taken out of a choice, without a change of the result. -/
theorem refactorings_keep_result {t t' : Bracketing (Parser σ)} {results : List (Cursor → Except Fault Outcome)}
    (ht : List.Forall₂ HasResults t.leaves results) (ht' : t'.leaves = t.leaves) {a b d : Parser σ}
    {lead next other : Cursor → Except Fault Outcome} (ha : a.HasResults lead) (hb : b.HasResults next)
    (hd : d.HasResults other) (c : Cursor) :
    (∃ n x i, choiceN t.leaves = .ok n ∧ (t.combine choice).run c = n.run c ∧ (n.run c).HasResult x ∧
      DecidedAt (results.map (· c)) i x) ∧
    (t'.combine seq).run c = (t.combine seq).run c ∧
    ∃ x, (((a.seq b).choice (a.seq d)).run c).HasResult x ∧ ((a.seq (b.choice d)).run c).HasResult x := by
  refine ⟨?_, congrFun (runsAssociate_seq.combine_eq ht') c, ?_⟩
  · obtain ⟨p, ps, hleaves⟩ := t.exists_leaves
    rw [hleaves] at ht
    cases ht with
    | cons hp hps =>
        obtain ⟨first, hfirst, hdecided⟩ := firstOf_decided hp hps
        obtain ⟨i, hi⟩ := hdecided c
        refine ⟨firstOf p ps, first c, i, by rw [hleaves]; rfl, ?_, hfirst c, hi⟩
        rw [firstOf_eq_nestRight, runsAssociate_choice.run_combine hleaves]
  · refine ⟨_, (ha.seq hb).choice (ha.seq hd) c, ?_⟩
    rw [choiceResult_seqResult]
    exact ha.seq (hb.choice hd) c

/-- One parser fails two characters further on, one takes an `a`, one ends the run with a fault. The choice of the three
takes the `a`, their sequence fails two characters further on, and behind the `a` such a failure is moved back. -/
theorem refactorings_keep_result_failing_ahead :
    let c : Cursor := { source := "abc" }
    let ahead (c : Cursor) : Outcome := .fail (c.advance 2) Wording.noMatch []
    let letter (c : Cursor) : Outcome := if c.startsWith "a" then .success (.text "a") (c.advance 1) else ahead c
    let p : Parser Nat := { run := fun c => do modify (· + 1); return ahead c }
    let q : Parser Nat := { run := fun c => do modify (· + 1); return letter c }
    let r : Parser Nat := { run := fun _ => throw .wrongKind }
    let t : Bracketing (Parser Nat) := .pair (.pair (.single p) (.single q)) (.single r)
    let t' : Bracketing (Parser Nat) := .pair (.single p) (.pair (.single q) (.single r))
    List.Forall₂ HasResults t.leaves [fun c => .ok (ahead c), fun c => .ok (letter c), fun _ => .error .wrongKind] ∧
      t'.leaves = t.leaves ∧
      ((t.combine choice).run c).HasResult (.ok (.success (.text "a") (c.advance 1))) ∧
      (t'.combine seq).run c = (t.combine seq).run c ∧ ((t.combine seq).run c).HasResult (.ok (ahead c)) ∧
      (((q.seq p).choice (q.seq p)).run c).HasResult (.ok (.fail c Wording.noMatch [])) ∧
      ((q.seq (p.choice p)).run c).HasResult (.ok (.fail c Wording.noMatch [])) := by
  intro c ahead letter p q r t t'
  have hp : p.HasResults fun c => .ok (ahead c) := fun _ _ => rfl
  have hq : q.HasResults fun c => .ok (letter c) := fun _ _ => rfl
  have hr : r.HasResults fun _ => .error .wrongKind := fun _ _ => rfl
  have ht : List.Forall₂ HasResults t.leaves _ := .cons hp (.cons hq (.cons hr .nil))
  have ht' : t'.leaves = t.leaves := rfl
  obtain ⟨⟨n, x, i, hn, hrun, hx, -⟩, hseq, y, hy, hy'⟩ := refactorings_keep_result ht ht' hq hp hp c
  cases hn
  have hx' : x = .ok (.success (.text "a") (c.advance 1)) := (hx 0).symm
  have hy'' : y = .ok (.fail c Wording.noMatch []) := (hy 0).symm
  subst hx' hy''
  refine ⟨ht, ht', ?_, hseq, fun _ => rfl, hy, hy'⟩
  rw [hrun]
  exact hx

end Parser

end ParserAlgebra
