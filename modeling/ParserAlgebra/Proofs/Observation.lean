import ParserAlgebra.Proofs.Likeness
import ParserAlgebra.Proofs.Termination

/-!
# Observers do not influence parsing

Both results follow from one comparison of an expression with another that has its observers replaced.
-/

namespace ParserAlgebra

open Cursor Parse

variable {σ : Type} {E : Prop}

/-! ## The same cursor and any two states -/

theorem Outcome.alike_refl (o : Outcome) : o.Alike Eq E o := by
  cases o with
  | success v c => exact .success v rfl
  | failure m => exact .failure rfl fun _ => ⟨rfl, rfl⟩

theorem similar_eq : Similar Eq where
  atEnd h := by rw [h]
  rest h := by rw [h]
  remaining h := by rw [h]
  current h _ := by rw [h]
  advance h := by rw [h]
  since h h' := by rw [h, h']
  pos h h' := by rw [h, h']
  mark {c d c' d'} h h' _ := by
    subst h h'
    cases Mark.between c c' with
    | ok mark => exact .ok trivial
    | error fault => exact .error fault

namespace Parser

/-- On every cursor and from any two states the parsers behave alike. -/
abbrev Mimics (E : Prop) (p q : Parser σ) : Prop :=
  p.Alike (fun _ _ => True) Eq E q

variable {p q : Parser σ}

theorem loopsAlike_eq (p : Parser σ) : LoopsAlike Eq p := by
  rintro c _ rfl
  exact Or.inl rfl

theorem mimics_of_stateless (h : ∀ c, (p.run c).Stateless) : p.Mimics E p where
  name _ := rfl
  run {c _} hcd := by
    subst hcd
    exact (h c).agrees Outcome.alike_refl

/-! ## Leaves -/

theorem stateless_leaf {l : Leaf} (h : l.build = .ok p) (c : Cursor) : (p.run c).Stateless := by
  cases l with
  | satisfy k =>
      cases h
      unfold satisfy
      dsimp only
      split
      · exact stateless_pure _
      · refine (stateless_lift _).bind fun ch => (stateless_lift _).bind fun _ => ?_
        split <;> exact stateless_pure _
  | text t | textExact t | endsWith t | skip n =>
      cases h
      exact stateless_pure _
  | number | identifier =>
      cases h
      refine (stateless_lift _).bind fun t => ?_
      split <;> exact stateless_pure _
  | peek n =>
      rw [Leaf.build, peek] at h
      split at h
      · cases h
      · cases h
        exact stateless_pure _
  | precedence table exact =>
      rw [Leaf.build, operatorPrecedence] at h
      split at h
      · cases h
      · cases h
        exact stateless_pure _
  | localeNumber data locale =>
      obtain ⟨s, -, h⟩ := bind_eq_ok h
      cases h
      dsimp only
      split
      · exact stateless_pure _
      · refine (stateless_lift _).bind fun ch => ?_
        split <;> exact stateless_pure _
  | betweenStar opening closing | captureBetweenText opening closing | ignoreBetweenText opening closing =>
      obtain ⟨_, _, h⟩ := bind_eq_ok h
      cases h
      exact stateless_pure _

theorem stateless_betweenText {opening closing : Text} (h : betweenText opening closing = .ok p) (c : Cursor) :
    (p.run c).Stateless := by
  obtain ⟨_, _, h⟩ := bind_eq_ok h
  cases h
  exact stateless_pure _

theorem stateless_notBetweenText {opening closing : Text} (h : notBetweenText opening closing = .ok p)
    (c : Cursor) : (p.run c).Stateless := by
  obtain ⟨_, _, h⟩ := bind_eq_ok h
  cases h
  exact stateless_pure _

end Parser

/-! ## Operands -/

/-- The operands are the same text, or parsers that behave alike. -/
inductive Operand.Mimics (E : Prop) : Operand σ → Operand σ → Prop
  | literal (t : Text) : Mimics E (.literal t) (.literal t)
  | parser {p q : Parser σ} : p.Mimics E q → Mimics E (.parser p) (.parser q)

namespace Operand

variable {x x' y y' : Operand σ} {p : Parser σ}

theorem Mimics.toParser (h : x.Mimics E x') : x.toParser.Mimics E x'.toParser := by
  cases h with
  | literal t => exact Parser.mimics_of_stateless fun _ => stateless_pure _
  | parser h => exact h

theorem Mimics.literals (hx : x.Mimics E x') (hy : y.Mimics E y') :
    [x', y'].filterMap literal? = [x, y].filterMap literal? := by
  cases hx <;> cases hy <;> rfl

theorem Mimics.binary {f : Binary} (hx : x.Mimics E x') (hy : y.Mimics E y') (h : f.apply x y = .ok p) :
    ∃ p', f.apply x' y' = .ok p' ∧ p.Mimics E p' := by
  have hjoin := hx.toParser.join f hy.toParser
  rw [← Binary.apply_eq_join h] at hjoin
  have happly : f.apply x' y' = (f.apply x y).map fun _ => f.join x'.toParser y'.toParser := by
    cases hx <;> cases hy <;> cases f <;> rfl
  exact ⟨_, by rw [happly, h]; rfl, hjoin⟩

theorem Mimics.captureBetween (hx : x.Mimics E x') (hy : y.Mimics E y')
    (h : Parser.captureBetween x y = .ok p) :
    ∃ p', Parser.captureBetween x' y' = .ok p' ∧ p.Mimics E p' := by
  obtain ⟨_, hempty, h⟩ := bind_eq_ok h
  cases h
  rw [Parser.captureBetween, hx.literals hy, hempty]
  exact ⟨_, rfl, hx.toParser.captureBetweenParsers similar_eq (Parser.loopsAlike_eq _) hy.toParser⟩

theorem Mimics.ignoreBetween (hx : x.Mimics E x') (hy : y.Mimics E y')
    (h : Parser.ignoreBetween x y = .ok p) :
    ∃ p', Parser.ignoreBetween x' y' = .ok p' ∧ p.Mimics E p' := by
  obtain ⟨_, hempty, h⟩ := bind_eq_ok h
  cases h
  rw [Parser.ignoreBetween, hx.literals hy, hempty]
  exact ⟨_, rfl, hx.toParser.ignoreBetweenParsers similar_eq (Parser.loopsAlike_eq _) hy.toParser
    (Parser.loopsAlike_eq _)⟩

theorem Mimics.region {f : Region} (hx : x.Mimics E x') (hy : y.Mimics E y') (h : f.apply x y = .ok p) :
    ∃ p', f.apply x' y' = .ok p' ∧ p.Mimics E p' := by
  -- Between two texts both regions are one parser, otherwise they are found between two parsers.
  cases f with
  | capture => exact hx.captureBetween hy h
  | ignore => exact hx.ignoreBetween hy h
  | between =>
      cases hx with
      | parser hp => exact Mimics.captureBetween (.parser hp) hy h
      | literal t =>
          cases hy with
          | parser hq => exact Mimics.captureBetween (.literal t) (.parser hq) h
          | literal u => exact ⟨p, h, Parser.mimics_of_stateless (Parser.stateless_betweenText h)⟩
  | notBetween =>
      cases hx with
      | parser hp => exact Mimics.ignoreBetween (.parser hp) hy h
      | literal t =>
          cases hy with
          | parser hq => exact Mimics.ignoreBetween (.literal t) (.parser hq) h
          | literal u => exact ⟨p, h, Parser.mimics_of_stateless (Parser.stateless_notBetweenText h)⟩

theorem mapM_require_mimics {os os' : List (Operand σ)} (hos : List.Forall₂ (Mimics E) os os')
    {ps : List (Parser σ)} (h : os.mapM require = .ok ps) :
    ∃ ps', os'.mapM require = .ok ps' ∧ List.Forall₂ (Parser.Mimics E) ps ps' := by
  simp only [mapM_eq_ok_iff] at h ⊢
  induction hos generalizing ps with
  | nil =>
      cases h
      exact ⟨[], .nil, .nil⟩
  | cons hx _ ih =>
      obtain ⟨p, qs, hp, hqs, rfl⟩ := List.forall₂_cons_left_iff.1 h
      obtain ⟨qs', hqs', hall⟩ := ih hqs
      cases hx with
      | literal t => cases hp
      | @parser _ p' hpp =>
          cases hp
          exact ⟨p' :: qs', .cons rfl hqs', .cons hpp hall⟩

theorem mimics_nary {f : Nary} {os os' : List (Operand σ)} (hos : List.Forall₂ (Mimics E) os os')
    {o : Operand σ} (h : f.apply os = .ok o) : ∃ o', f.apply os' = .ok o' ∧ o.Mimics E o' := by
  unfold Nary.apply at h
  split at h
  · cases hos with
    | cons hx hnil =>
        cases hx
        cases hnil
        cases h
        exact ⟨_, rfl, .literal _⟩
  · obtain ⟨ps, hps, h⟩ := bind_eq_ok h
    obtain ⟨p, hp, h⟩ := bind_eq_ok h
    cases h
    obtain ⟨ps', hps', hall⟩ := mapM_require_mimics hos hps
    obtain ⟨p', hp', hpp⟩ := Parser.Alike.applyAll similar_eq hall (fun _ => Parser.loopsAlike_eq _) hp
    exact ⟨_, by rw [Nary.apply_of_require hps', hp']; rfl, .parser hpp⟩

end Operand

/-! ## Tests -/

/-- The outcomes look the same to a test. -/
def Outcome.SameLook (o o' : Outcome) : Prop :=
  o.succeeded = o'.succeeded ∧ o.value = o'.value ∧ o.cursor.pos = o'.cursor.pos ∧ o.rest = o'.rest

theorem Outcome.Alike.sameLook {o o' : Outcome} (h : o.Alike Eq E o') : o.SameLook o' := by
  cases h with
  | success v h => subst h; exact ⟨rfl, rfl, rfl, rfl⟩
  | @failure m m' h _ => exact ⟨rfl, rfl, congrArg Cursor.pos h, congrArg Cursor.rest h⟩

theorem Unary.TestsBy.mono {R R' : Outcome → Outcome → Prop} (hR : ∀ {o o'}, R o o' → R' o o') {f : Unary}
    (hf : f.TestsBy R') : f.TestsBy R := by
  cases f with
  | ifCondition test | elseCondition test => exact fun o o' h => hf o o' (hR h)
  | _ => trivial

/-- Tests look at the match and at what remains, and callbacks do not give up. -/
def Vocabulary.observing (σ : Type) : Vocabulary Empty (Observer σ) where
  leaf _ := True
  given _ := True
  unary f _ := f.TestsBy Outcome.SameLook
  nary _ _ := True
  observer o := o.NeverRaises

/-! ## Other observers -/

section Replacing

variable {ρ ω : Type} (r : ω → Expr ρ ω → Expr ρ ω)

mutual
/-- The expression, with something else in the place of each expression under observation. -/
def Expr.replaceObserved : Expr ρ ω → Expr ρ ω
  | .literal t => .literal t
  | .parserOf e => .parserOf e.replaceObserved
  | .leaf l => .leaf l
  | .given g => .given g
  | .unary f e => .unary f e.replaceObserved
  | .binary f a b => .binary f a.replaceObserved b.replaceObserved
  | .nary f es => .nary f (Expr.replaceAll es)
  | .region f a b => .region f a.replaceObserved b.replaceObserved
  | .observe o e => r o e.replaceObserved

def Expr.replaceAll : List (Expr ρ ω) → List (Expr ρ ω)
  | [] => []
  | e :: es => e.replaceObserved :: Expr.replaceAll es
end

end Replacing

section Comparison

variable {r : Observer σ → Expr Empty (Observer σ) → Expr Empty (Observer σ)}

/-- What `r` puts in the place of an expression under observation behaves like it. -/
def MimicsObserved (r : Observer σ → Expr Empty (Observer σ) → Expr Empty (Observer σ)) (E : Prop) : Prop :=
  ∀ {o : Observer σ} {e : Expr Empty (Observer σ)} {p q : Parser σ}, o.NeverRaises → p.Mimics E q →
    e.build .closed = .ok (.parser q) →
    ∃ q', (r o e).build .closed = .ok (.parser q') ∧ (o.apply p).Mimics E q'

-- The induction follows the two functions that build, as in `build_handsOn`, but keeps two operands in step.
mutual
theorem build_mimics (hr : MimicsObserved r E) :
    (e : Expr Empty (Observer σ)) → e.Within (.observing σ) → ∀ {o : Operand σ}, e.build .closed = .ok o →
      ∃ o', (e.replaceObserved r).build .closed = .ok o' ∧ o.Mimics E o'
  | .literal t, _, o, h => by
      cases h
      exact ⟨_, rfl, .literal t⟩
  | .parserOf e, hV, o, h => by
      obtain ⟨x, hx, h⟩ := bind_eq_ok h
      cases h
      obtain ⟨x', hx', hxx⟩ := build_mimics hr e hV hx
      exact ⟨_, bind_of_ok hx' rfl, .parser hxx.toParser⟩
  | .leaf l, _, o, h => by
      obtain ⟨p, hp, h⟩ := bind_eq_ok h
      cases h
      exact ⟨_, bind_of_ok hp rfl, .parser (Parser.mimics_of_stateless (Parser.stateless_leaf hp))⟩
  | .given g, _, _, _ => g.elim
  | .unary f e, hV, o, h => by
      obtain ⟨x, hx, h⟩ := bind_eq_ok h
      obtain ⟨p, hp, h⟩ := bind_eq_ok h
      cases h
      obtain ⟨x', hx', hxx⟩ := build_mimics hr e hV.2 hx
      rw [Operand.require_eq_ok hp] at hxx
      cases hxx with
      | parser hpp =>
          have htests : f.TestsBy (Outcome.Alike Eq E) := hV.1.mono Outcome.Alike.sameLook
          exact ⟨_, bind_of_ok hx' rfl, .parser (hpp.unary similar_eq htests (Parser.loopsAlike_eq _))⟩
  | .binary f a b, hV, o, h => by
      obtain ⟨x, hx, h⟩ := bind_eq_ok h
      obtain ⟨y, hy, h⟩ := bind_eq_ok h
      obtain ⟨p, hp, h⟩ := bind_eq_ok h
      cases h
      obtain ⟨x', hx', hxx⟩ := build_mimics hr a hV.1 hx
      obtain ⟨y', hy', hyy⟩ := build_mimics hr b hV.2 hy
      obtain ⟨p', hp', hpp⟩ := hxx.binary hyy hp
      exact ⟨_, bind_of_ok hx' (bind_of_ok hy' (bind_of_ok hp' rfl)), .parser hpp⟩
  | .nary f es, hV, o, h => by
      obtain ⟨os, hos, h⟩ := bind_eq_ok h
      obtain ⟨os', hos', hall⟩ := buildAll_mimics hr es hV.2 hos
      obtain ⟨o', ho', hoo⟩ := Operand.mimics_nary hall h
      exact ⟨o', bind_of_ok hos' ho', hoo⟩
  | .region f a b, hV, o, h => by
      obtain ⟨x, hx, h⟩ := bind_eq_ok h
      obtain ⟨y, hy, h⟩ := bind_eq_ok h
      obtain ⟨p, hp, h⟩ := bind_eq_ok h
      cases h
      obtain ⟨x', hx', hxx⟩ := build_mimics hr a hV.1 hx
      obtain ⟨y', hy', hyy⟩ := build_mimics hr b hV.2 hy
      obtain ⟨p', hp', hpp⟩ := hxx.region hyy hp
      exact ⟨_, bind_of_ok hx' (bind_of_ok hy' (bind_of_ok hp' rfl)), .parser hpp⟩
  | .observe o e, hV, _, h => by
      obtain ⟨p, hp, h⟩ := bind_eq_ok h
      cases h
      obtain ⟨x, hx, hp⟩ := bind_eq_ok hp
      obtain ⟨q, hq, hp⟩ := bind_eq_ok hp
      cases hp
      obtain ⟨x', hx', hxx⟩ := build_mimics hr e hV.2 hx
      rw [Operand.require_eq_ok hq] at hxx
      cases hxx with
      | parser hqq =>
          obtain ⟨q', hq', halike⟩ := hr hV.1 hqq hx'
          exact ⟨_, hq', .parser halike⟩

theorem buildAll_mimics (hr : MimicsObserved r E) :
    (es : List (Expr Empty (Observer σ))) → Expr.AllWithin (.observing σ) es → ∀ {os : List (Operand σ)},
      Expr.buildAll .closed es = .ok os →
      ∃ os', Expr.buildAll .closed (Expr.replaceAll r es) = .ok os' ∧ List.Forall₂ (Operand.Mimics E) os os'
  | [], _, os, h => by
      cases h
      exact ⟨[], rfl, .nil⟩
  | e :: es, hV, os, h => by
      obtain ⟨x, hx, h⟩ := bind_eq_ok h
      obtain ⟨xs, hxs, h⟩ := bind_eq_ok h
      cases h
      obtain ⟨x', hx', hxx⟩ := build_mimics hr e hV.1 hx
      obtain ⟨xs', hxs', hall⟩ := buildAll_mimics hr es hV.2 hxs
      exact ⟨_, bind_of_ok hx' (bind_of_ok hxs' rfl), .cons hxx hall⟩
end

end Comparison

/-! ## Matchers left out, and matchers that report nothing -/

/-- The expression under the observer if it is a tracker, and without it if it is a matcher. -/
def Observer.dropMatcher {ρ : Type} : Observer σ → Expr ρ (Observer σ) → Expr ρ (Observer σ)
  | matcher .., e => e
  | track record, e => .observe (.track record) e

/-- The expression without its matchers. -/
def Expr.withoutMatchers {ρ : Type} : Expr ρ (Observer σ) → Expr ρ (Observer σ) :=
  replaceObserved Observer.dropMatcher

/-- The observer, with callbacks that do nothing. -/
def Observer.muted : Observer σ → Observer σ
  | matcher .. => matcher (fun _ => pure ()) none
  | track record => track record

/-- The expression, with callbacks that do nothing. -/
def Expr.muted {ρ : Type} : Expr ρ (Observer σ) → Expr ρ (Observer σ) :=
  replaceObserved fun o e => .observe o.muted e

namespace Parser

variable {p q : Parser σ}

/-- A matcher that reports nothing is its parser under another name. -/
theorem matcher_muted (p : Parser σ) :
    p.matcher (fun _ => pure ()) none = { p with name := nameOf "matcher" [p] } := by
  unfold matcher
  congr 1
  funext c
  conv => rhs; rw [← bind_pure (p.run c)]
  congr 1
  funext o
  cases o <;> rfl

/-- A callback that does not give up leaves the outcome as it is. -/
theorem agrees_matcher {onSuccess : Rule → Parse σ Unit} {onFailure : Option (Rule → Parse σ Unit)}
    (ho : (Observer.matcher onSuccess onFailure).NeverRaises) {c : Cursor}
    (h : Agrees (fun _ _ => True) (Outcome.Alike Eq E) (p.run c) (q.run c)) :
    Agrees (fun _ _ => True) (Outcome.Alike Eq E) ((p.matcher onSuccess onFailure).run c) (q.run c) := by
  obtain ⟨hsuccess, hfailure⟩ := ho
  -- `q` does nothing where the callback runs.
  rw [← bind_pure (q.run c)]
  refine h.bind fun o o' ho => agrees_of_gives ?_ (gives_pure o') ho
  cases o with
  | success v d => exact Gives.bind (hsuccess _) (gives_pure _)
  | failure m =>
      cases onFailure with
      | none => exact gives_pure _
      | some report => exact Gives.bind (hfailure report rfl _) (gives_pure _)

theorem Mimics.track (h : p.Mimics E q) (record : Mark → σ → σ) :
    (p.track record).Mimics E (q.track record) :=
  Alike.track similar_eq h fun _ _ _ _ _ => trivial

end Parser

theorem mimicsObserved_dropMatcher : MimicsObserved (Observer.dropMatcher (σ := σ)) False := by
  intro o e p q ho hpq he
  cases o with
  | matcher onSuccess onFailure =>
      refine ⟨q, he, False.elim, fun {c _} hcd => ?_⟩
      subst hcd
      exact Parser.agrees_matcher ho (hpq.run rfl)
  | track record => exact ⟨_, bind_of_ok (bind_of_ok he rfl) rfl, hpq.track record⟩

theorem mimicsObserved_muted : MimicsObserved (σ := σ) (fun o => .observe o.muted) True := by
  intro o e p q ho hpq he
  refine ⟨_, bind_of_ok (bind_of_ok he rfl) rfl, ?_⟩
  cases o with
  | matcher onSuccess onFailure =>
      simp only [Observer.muted, id, Observer.apply, Parser.matcher_muted]
      refine ⟨Parser.nameOf_one _ hpq.name, fun {c _} hcd => ?_⟩
      subst hcd
      exact Parser.agrees_matcher ho (hpq.run rfl)
  | track record => exact hpq.track record

/-! ## The result -/

/-- The outcome without the words of a failure. -/
def Outcome.wordless : Outcome → Outcome
  | success v c => success v c
  | failure m => failure { cursor := m.cursor, message := [], expected := [] }

theorem Outcome.Alike.wordless_eq {o o' : Outcome} (h : o.Alike Eq E o') : o.wordless = o'.wordless := by
  cases h with
  | success v h => rw [h]
  | failure h _ => simp only [wordless, h]

theorem Outcome.Alike.eq {o o' : Outcome} (h : o.Alike Eq True o') : o = o' := by
  cases h with
  | success v h => rw [h]
  | @failure m m' hm he =>
      obtain ⟨hmessage, hexpected⟩ := he trivial
      cases m
      cases m'
      simp_all

namespace Parser

variable {p q : Parser σ}

theorem Mimics.wordless_eq (h : p.Mimics False q) (c : Cursor) (s t : σ) :
    ((p.run c).result s).map Outcome.wordless = ((q.run c).result t).map Outcome.wordless :=
  (h.run rfl).result_eq (fun _ _ ho => ho.wordless_eq) s t

theorem Mimics.result_eq (h : p.Mimics True q) (c : Cursor) (s t : σ) :
    (p.run c).result s = (q.run c).result t := by
  have hmap := (h.run (rfl : c = c)).result_eq (f := id) (g := id) (fun _ _ ho => ho.eq) s t
  simpa using hmap

/-- Matchers may be left out of a parser whose callbacks do not give up: on every cursor the result is the
same but for the words of a failure. The words are the same as well if the callbacks are replaced by ones
that do nothing, and all that such a matcher changes is the name. And the state of the observers, from which
the parser starts, does not matter. -/
theorem observers_leave_result {e : Expr Empty (Observer σ)} (he : e.Within (.observing σ))
    (h : e.build .closed = .ok (.parser p)) :
    (∃ q, e.withoutMatchers.build .closed = .ok (.parser q) ∧ ∀ (c : Cursor) (s t : σ),
      ((p.run c).result s).map Outcome.wordless = ((q.run c).result t).map Outcome.wordless) ∧
    (∃ q, e.muted.build .closed = .ok (.parser q) ∧ ∀ (c : Cursor) (s t : σ),
      (p.run c).result s = (q.run c).result t) ∧
    (∀ r : Parser σ, r.matcher (fun _ => pure ()) none = { r with name := nameOf "matcher" [r] }) ∧
    ∀ (c : Cursor) (s t : σ), (p.run c).result s = (p.run c).result t := by
  obtain ⟨_, hq, hwithout⟩ := build_mimics mimicsObserved_dropMatcher e he h
  obtain ⟨_, hq', hmuted⟩ := build_mimics mimicsObserved_muted e he h
  cases hwithout with
  | parser hwithout =>
      cases hmuted with
      | parser hmuted =>
          refine ⟨⟨_, hq, hwithout.wordless_eq⟩, ⟨_, hq', hmuted.result_eq⟩, matcher_muted, ?_⟩
          intro c s t
          rw [hmuted.result_eq c s s, hmuted.result_eq c t s]

/-- A counted and tracked word is given up for want of a mark, and read again under a test of what is left.
In `ab?` both alternatives fail, and the name of the matcher is in the words of the failure. -/
theorem observers_leave_result_rejected_word :
    let count : Rule → Parse (Nat × Mark) Unit := fun _ => modify fun s => (s.1 + 1, s.2)
    let word : Expr Empty (Observer (Nat × Mark)) :=
      .observe (.matcher count (some count)) (.unary .oneOrMore (.leaf (.satisfy .letter)))
    let tracked : Expr Empty (Observer (Nat × Mark)) := .observe (.track fun mark s => (s.1, mark)) word
    let e := Expr.binary .choice (.binary .after tracked (.literal "!"))
      (.unary (.ifCondition (.total (·.rest.isEmpty))) word)
    let c : Cursor := { source := "ab?" }
    ∃ p q : Parser (Nat × Mark), e.Within (.observing _) ∧ e.build .closed = .ok (.parser p) ∧
      e.withoutMatchers.build .closed = .ok (.parser q) ∧
      ((p.run c).result (0, {})).map Outcome.wordless = ((q.run c).result (7, {})).map Outcome.wordless ∧
      (p.run c).result (0, {}) ≠ (q.run c).result (0, {}) ∧
      (p.run c).result (0, {}) = (p.run c).result (7, { line := 3 }) := by
  intro count word tracked e c
  have hcount : ∀ rule s, ∃ s', (count rule).run s = .ok () s' := fun _ s => ⟨(s.1 + 1, s.2), rfl⟩
  have hword : word.Within (.observing _) := by
    refine ⟨⟨hcount, fun report hreport => ?_⟩, trivial, trivial⟩
    cases hreport
    exact hcount
  have he : e.Within (.observing _) := by
    refine ⟨⟨⟨trivial, hword⟩, trivial⟩, ?_, hword⟩
    rintro o o' ⟨-, -, -, hrest⟩
    exact congrArg (Except.ok ∘ List.isEmpty) hrest
  obtain ⟨⟨q, hq, hwithout⟩, -, -, hstates⟩ := observers_leave_result he rfl
  refine ⟨_, q, he, rfl, hq, hwithout c _ _, ?_, hstates c _ _⟩
  cases hq
  decide

end Parser

end ParserAlgebra
