import Mathlib.Data.List.Forall2
import ParserAlgebra.Expr

/-!
# Properties of nested parsers

A `Vocabulary` says which nodes are admitted, `HandsOn` collects what has to be shown of each kind of node, and
`build_handsOn` is the induction.
-/

namespace ParserAlgebra

variable {σ ρ ω : Type}

theorem bind_eq_ok {ε α β : Type} {x : Except ε α} {f : α → Except ε β} {b : β} (h : x >>= f = .ok b) :
    ∃ a, x = .ok a ∧ f a = .ok b := by
  cases x with
  | error e => cases h
  | ok a => exact ⟨a, rfl, h⟩

theorem bind_of_ok {ε α β : Type} {x : Except ε α} {f : α → Except ε β} {a : α} {b : β} (h : x = .ok a)
    (hf : f a = .ok b) : x >>= f = .ok b := by
  rw [h]
  exact hf

theorem map_eq_ok {ε α β : Type} {f : α → β} {x : Except ε α} {b : β} (h : f <$> x = .ok b) :
    ∃ a, x = .ok a ∧ b = f a := by
  cases x with
  | error e => cases h
  | ok a =>
      cases h
      exact ⟨a, rfl, rfl⟩

/-- A list is mapped to the list of what its elements are mapped to in turn. -/
theorem mapM_eq_ok_iff {ε α β : Type} {f : α → Except ε β} {xs : List α} {ys : List β} :
    xs.mapM f = .ok ys ↔ List.Forall₂ (fun x y => f x = .ok y) xs ys := by
  constructor
  · intro h
    induction xs generalizing ys with
    | nil =>
        cases h
        exact .nil
    | cons x xs ih =>
        rw [List.mapM_cons] at h
        obtain ⟨y, hy, h⟩ := bind_eq_ok h
        obtain ⟨ys, hys, h⟩ := bind_eq_ok h
        cases h
        exact .cons hy (ih hys)
  · intro h
    induction h with
    | nil => rfl
    | cons hy _ ih =>
        rw [List.mapM_cons]
        exact bind_of_ok hy (bind_of_ok ih rfl)

/-! ## Operands -/

theorem Operand.require_eq_ok {o : Operand σ} {p : Parser σ} (h : o.require = .ok p) : o = .parser p := by
  cases o with
  | literal t => cases h
  | parser q => cases h; rfl

/-- The parsers of a list of operands stand in the list. -/
theorem mapM_require {os : List (Operand σ)} {ps : List (Parser σ)}
    (h : os.mapM Operand.require = .ok ps) : ∀ p ∈ ps, .parser p ∈ os := by
  replace h := mapM_eq_ok_iff.1 h
  induction h with
  | nil => exact nofun
  | cons hp _ ih =>
      rw [Operand.require_eq_ok hp]
      exact List.forall_mem_cons.2 ⟨List.mem_cons_self, fun q hq => List.mem_cons_of_mem _ (ih q hq)⟩

/-! ## Admitted nodes -/

/-- Which primitives, parsers from outside, combinators and observers an expression may have. -/
structure Vocabulary (ρ ω : Type) where
  leaf : Leaf → Prop
  given : ρ → Prop
  unary : Unary → Expr ρ ω → Prop
  nary : Nary → List (Expr ρ ω) → Prop
  observer : ω → Prop

mutual
/-- The expression has only nodes of the vocabulary. -/
def Expr.Within (V : Vocabulary ρ ω) : Expr ρ ω → Prop
  | .literal _ => True
  | .parserOf e => e.Within V
  | .leaf l => V.leaf l
  | .given r => V.given r
  | .unary f e => V.unary f e ∧ e.Within V
  | .binary _ a b => a.Within V ∧ b.Within V
  | .nary f es => V.nary f es ∧ Expr.AllWithin V es
  | .region _ a b => a.Within V ∧ b.Within V
  | .observe o e => V.observer o ∧ e.Within V

/-- The expressions have only nodes of the vocabulary. -/
def Expr.AllWithin (V : Vocabulary ρ ω) : List (Expr ρ ω) → Prop
  | [] => True
  | e :: es => e.Within V ∧ Expr.AllWithin V es
end

/-! ## Operands of two -/

/-- The combinator applied to two parsers. -/
def Binary.join : Binary → Parser σ → Parser σ → Parser σ
  | seq, p, q => p.seq q
  | choice, p, q => p.choice q
  | both, p, q => p.both q
  | xor, p, q => p.xor q
  | seqKeepFirst, p, q => p.seqKeepFirst q
  | choiceKeepFirst, p, q => p.choiceKeepFirst q
  | before, p, q => p.before q
  | after, p, q => p.after q

theorem Binary.apply_eq_join {f : Binary} {x y : Operand σ} {p : Parser σ} (h : f.apply x y = .ok p) :
    p = f.join x.toParser y.toParser := by
  cases f with
  | before | after =>
      obtain ⟨r, hr, h⟩ := bind_eq_ok h
      cases h
      rw [Operand.require_eq_ok hr]
      rfl
  | seq | choice | both | xor | seqKeepFirst | choiceKeepFirst =>
      obtain ⟨r, hr, h⟩ := bind_eq_ok h
      obtain ⟨r', hr', h⟩ := bind_eq_ok h
      cases h
      rw [Operand.require_eq_ok hr, Operand.require_eq_ok hr']
      rfl

/-- A region is cut out between two texts, or found between two parsers. -/
theorem Region.apply_cases {f : Region} {x y : Operand σ} {p : Parser σ} (h : f.apply x y = .ok p) :
    (∃ t u, Parser.betweenText t u = .ok p) ∨ (∃ t u, Parser.notBetweenText t u = .ok p) ∨
      p = Parser.captureBetweenParsers x.toParser y.toParser ∨
      p = Parser.ignoreBetweenParsers x.toParser y.toParser := by
  have hcapture : Parser.captureBetween x y = .ok p →
      p = Parser.captureBetweenParsers x.toParser y.toParser := by
    intro h
    obtain ⟨_, _, h⟩ := bind_eq_ok h
    cases h
    rfl
  have hignore : Parser.ignoreBetween x y = .ok p →
      p = Parser.ignoreBetweenParsers x.toParser y.toParser := by
    intro h
    obtain ⟨_, _, h⟩ := bind_eq_ok h
    cases h
    rfl
  cases f with
  | capture => exact Or.inr (Or.inr (Or.inl (hcapture h)))
  | ignore => exact Or.inr (Or.inr (Or.inr (hignore h)))
  | between =>
      cases x with
      | parser _ => exact Or.inr (Or.inr (Or.inl (hcapture h)))
      | literal t =>
          cases y with
          | parser _ => exact Or.inr (Or.inr (Or.inl (hcapture h)))
          | literal u => exact Or.inl ⟨t, u, h⟩
  | notBetween =>
      cases x with
      | parser _ => exact Or.inr (Or.inr (Or.inr (hignore h)))
      | literal t =>
          cases y with
          | parser _ => exact Or.inr (Or.inr (Or.inr (hignore h)))
          | literal u => exact Or.inr (Or.inl ⟨t, u, h⟩)

/-- A property that a choice has if both alternatives have it. -/
theorem anyOf_handsOn {P : Parser σ → Prop} (hP : ∀ p q, P p → P q → P (p.choice q))
    {combinator : String} {ps : List (Parser σ)} {r : Parser σ}
    (h : Parser.anyOf combinator ps = .ok r) (hps : ∀ p ∈ ps, P p) : P r := by
  cases ps with
  | nil => cases h
  | cons p ps =>
      cases h
      induction ps generalizing p with
      | nil => exact hps p (by simp)
      | cons q qs ih =>
          exact hP _ _ (hps p (by simp)) (ih q fun r hr => hps r (by simp [List.mem_cons.1 hr]))

/-! ## Properties that nodes hand on -/

/-- Names stand for parsers and observers. -/
def Builder.over (named : ρ → Parser σ) (observer : ω → Observer σ) :
    Builder (Except Fault) σ ρ ω where
  given r := .ok (named r)
  observe o p := do
    let p ← (← p).require
    return (observer o).apply p

variable {named : ρ → Parser σ} {observer : ω → Observer σ}

/-- Every admitted node hands the property on to the parser it builds. -/
structure HandsOn (named : ρ → Parser σ) (observer : ω → Observer σ) (V : Vocabulary ρ ω)
    (P : Parser σ → Prop) : Prop where
  literal : ∀ t : Text, P (.text t)
  leaf : ∀ {l : Leaf} {p : Parser σ}, V.leaf l → l.build = .ok p → P p
  given : ∀ {r : ρ}, V.given r → P (named r)
  unary : ∀ {f : Unary} {e : Expr ρ ω} {p : Parser σ}, V.unary f e →
    e.build (.over named observer) = .ok (.parser p) → P p → P (f.apply p)
  binary : ∀ {f : Binary} {p q : Parser σ}, P p → P q → P (f.join p q)
  nary : ∀ {f : Nary} {es : List (Expr ρ ω)} {ps : List (Parser σ)} {p : Parser σ}, V.nary f es →
    (∀ q ∈ ps, ∃ e ∈ es, e.build (.over named observer) = .ok (.parser q)) → (∀ q ∈ ps, P q) →
    f.applyAll ps = .ok p → P p
  region : ∀ {f : Region} {x y : Operand σ} {p : Parser σ}, P x.toParser → P y.toParser →
    f.apply x y = .ok p → P p
  observe : ∀ {o : ω} {p : Parser σ}, V.observer o → P p → P ((observer o).apply p)

variable {V : Vocabulary ρ ω} {P : Parser σ → Prop}

/-- The choice among a single text is a text, every other node over any number of operands requires
parsers. -/
theorem Nary.apply_cases {f : Nary} {os : List (Operand σ)} {o : Operand σ} (h : f.apply os = .ok o) :
    (∃ t, o = .literal t) ∨
      ∃ ps p, os.mapM Operand.require = .ok ps ∧ f.applyAll ps = .ok p ∧ o = .parser p := by
  unfold Nary.apply at h
  split at h
  · cases h
    exact Or.inl ⟨_, rfl⟩
  · obtain ⟨ps, hps, h⟩ := bind_eq_ok h
    obtain ⟨p, hp, h⟩ := bind_eq_ok h
    cases h
    exact Or.inr ⟨ps, p, hps, hp, rfl⟩

/-- Operands that are all parsers are combined as parsers. -/
theorem Nary.apply_of_require {f : Nary} {os : List (Operand σ)} {ps : List (Parser σ)}
    (h : os.mapM Operand.require = .ok ps) :
    f.apply os = (f.applyAll ps >>= fun p => .ok (.parser p)) := by
  unfold Nary.apply
  split
  · cases h
  · rw [h]
    rfl

/-- Each operand of a list comes from an expression of the list. -/
theorem Expr.mem_of_buildAll {es : List (Expr ρ ω)} {os : List (Operand σ)}
    {b : Builder (Except Fault) σ ρ ω} (h : Expr.buildAll b es = .ok os) :
    ∀ o ∈ os, ∃ e ∈ es, e.build b = .ok o := by
  induction es generalizing os with
  | nil => cases h; simp
  | cons e es ih =>
      obtain ⟨o, ho, h⟩ := bind_eq_ok h
      obtain ⟨os', hos, h⟩ := bind_eq_ok h
      cases h
      intro x hx
      rcases List.mem_cons.1 hx with rfl | hx
      · exact ⟨e, List.mem_cons_self, ho⟩
      · obtain ⟨e', he', hb⟩ := ih hos x hx
        exact ⟨e', List.mem_cons_of_mem _ he', hb⟩

-- The induction follows the two functions that build: an expression and its list of operands.
mutual
theorem build_handsOn (hP : HandsOn named observer V P) :
    (e : Expr ρ ω) → e.Within V → ∀ {o : Operand σ}, e.build (.over named observer) = .ok o →
      P o.toParser
  | .literal t, _, o, h => by
      cases h
      exact hP.literal t
  | .parserOf e, hV, o, h => by
      obtain ⟨x, hx, h⟩ := bind_eq_ok h
      cases h
      have hx' := build_handsOn hP e hV hx
      exact hx'
  | .leaf l, hV, o, h => by
      obtain ⟨p, hp, h⟩ := bind_eq_ok h
      cases h
      exact hP.leaf hV hp
  | .given r, hV, o, h => by
      cases h
      exact hP.given hV
  | .unary f e, hV, o, h => by
      obtain ⟨x, hx, h⟩ := bind_eq_ok h
      obtain ⟨p, hp, h⟩ := bind_eq_ok h
      cases h
      have hx' := build_handsOn hP e hV.2 hx
      rw [Operand.require_eq_ok hp] at hx hx'
      exact hP.unary hV.1 hx hx'
  | .binary f e₁ e₂, hV, o, h => by
      obtain ⟨x, hx, h⟩ := bind_eq_ok h
      obtain ⟨y, hy, h⟩ := bind_eq_ok h
      obtain ⟨p, hp, h⟩ := bind_eq_ok h
      cases h
      have hj := hP.binary (f := f) (build_handsOn hP e₁ hV.1 hx) (build_handsOn hP e₂ hV.2 hy)
      rw [← Binary.apply_eq_join hp] at hj
      exact hj
  | .nary f es, hV, o, h => by
      obtain ⟨os, hos, h⟩ := bind_eq_ok h
      rcases Nary.apply_cases h with ⟨t, rfl⟩ | ⟨ps, p, hps, hp, rfl⟩
      · exact hP.literal t
      · have hmem := mapM_require hps
        refine hP.nary hV.1 (fun q hq => Expr.mem_of_buildAll hos _ (hmem q hq)) (fun q hq => ?_) hp
        exact buildAll_handsOn hP es hV.2 hos _ (hmem q hq)
  | .region f e₁ e₂, hV, o, h => by
      obtain ⟨x, hx, h⟩ := bind_eq_ok h
      obtain ⟨y, hy, h⟩ := bind_eq_ok h
      obtain ⟨p, hp, h⟩ := bind_eq_ok h
      cases h
      exact hP.region (build_handsOn hP e₁ hV.1 hx) (build_handsOn hP e₂ hV.2 hy) hp
  | .observe o e, hV, _, h => by
      obtain ⟨p, hp, h⟩ := bind_eq_ok h
      cases h
      obtain ⟨x, hx, hp⟩ := bind_eq_ok hp
      obtain ⟨q, hq, hp⟩ := bind_eq_ok hp
      cases hp
      have hx' := build_handsOn hP e hV.2 hx
      rw [Operand.require_eq_ok hq] at hx'
      exact hP.observe hV.1 hx'

theorem buildAll_handsOn (hP : HandsOn named observer V P) :
    (es : List (Expr ρ ω)) → Expr.AllWithin V es → ∀ {os : List (Operand σ)},
      Expr.buildAll (.over named observer) es = .ok os → ∀ o ∈ os, P o.toParser
  | [], _, os, h => by cases h; simp
  | e :: es, hV, os, h => by
      obtain ⟨x, hx, h⟩ := bind_eq_ok h
      obtain ⟨xs, hxs, h⟩ := bind_eq_ok h
      cases h
      intro y hy
      rcases List.mem_cons.1 hy with rfl | hy
      · exact build_handsOn hP e hV.1 hx
      · exact buildAll_handsOn hP es hV.2 hxs y hy
end

end ParserAlgebra
