import ParserAlgebra.Proofs.Chain
import ParserAlgebra.Proofs.Cutting
import ParserAlgebra.Proofs.LocaleScan
import ParserAlgebra.Proofs.Nesting

/-!
# Where outcomes lie

The lemmas speak of a set `D` of cursors that moving forward does not leave, such as those of the source, and of a
proposition `F`: only if it holds, a run may end with a fault.
-/

namespace ParserAlgebra

open Cursor Parse

/-- A match lies ahead of `c`, a failure at `c`. -/
def Outcome.Fits (c : Cursor) : Outcome → Prop
  | success _ d => c.Reaches d
  | failure m => m.cursor = c

/-- On the cursors of `D`, every outcome of the parser fits the cursor it was given. -/
abbrev Parser.ConformsOn {σ : Type} (F : Prop) (p : Parser σ) (D : Cursor → Prop) : Prop :=
  p.Meets F D Outcome.Fits

variable {σ : Type} {F : Prop} {D : Cursor → Prop} {p : Parser σ}

/-- If the leaf tests characters, the test never gives up, or faults are admitted. -/
def Leaf.FitFor (F : Prop) : Leaf → Prop
  | satisfy k => F ∨ k.test.Answers
  | _ => True

theorem Leaf.fitFor_true (l : Leaf) : l.FitFor True := by
  cases l with
  | satisfy k => exact Or.inl trivial
  | _ => trivial

theorem Outcome.fits_fail (c : Cursor) (message : Text) (expected : List Text) :
    (fail c message expected).Fits c :=
  rfl

namespace Parser

/-- A parser whose outcome depends on the cursor alone conforms if its outcomes fit. -/
theorem conformsOn_ofOutcome {name : Text} {outcome : Cursor → Outcome}
    (h : ∀ c, D c → (outcome c).Fits c) : (ofOutcome name outcome : Parser σ).ConformsOn F D :=
  fun c hc => returns_pure (h c hc)

/-! ## Primitives -/

theorem returns_current {c : Cursor} (hc : c.NotBefore) (h : ¬c.atEnd) :
    Returns F (liftM c.current : Parse σ Char) fun _ => True := by
  obtain ⟨ch, t, -, hcur⟩ := current_of_not_atEnd hc h
  exact returns_lift_ok hcur trivial

theorem returns_ahead {c : Cursor} (hc : c.NotBefore) :
    Returns F (liftM c.ahead : Parse σ Text) fun _ => True :=
  returns_lift_ok (ahead_of_nonneg hc) trivial

theorem conformsOn_satisfy (hD : Onward D) {k : CharClass} (hk : F ∨ k.test.Answers) :
    (satisfy k : Parser σ).ConformsOn F D := by
  intro c hc
  unfold satisfy
  dsimp only
  split
  · exact returns_pure rfl
  · rename_i hend
    refine (returns_current (hD.notBefore hc) hend).bind fun ch _ => (returns_test hk ch).bind fun _ _ => ?_
    split
    · exact returns_pure (c.reaches_advance (by omega))
    · exact returns_pure rfl

theorem conformsOn_text (t : Text) : (text t : Parser σ).ConformsOn F D := by
  refine conformsOn_ofOutcome fun c _ => ?_
  split
  · exact c.reaches_advance (by omega)
  · rfl

theorem conformsOn_textExact (t : Text) : (textExact t : Parser σ).ConformsOn F D := by
  refine conformsOn_ofOutcome fun c _ => ?_
  split
  · exact c.reaches_advance (by omega)
  · rfl

theorem conformsOn_endsWith (t : Text) : (endsWith t : Parser σ).ConformsOn F D := by
  refine conformsOn_ofOutcome fun c _ => ?_
  split
  · exact Reaches.refl c
  · rfl

theorem conformsOn_number (hD : Onward D) : (number : Parser σ).ConformsOn F D := by
  intro c hc
  refine (returns_ahead (hD.notBefore hc)).bind fun t _ => ?_
  cases Numeral.length? t with
  | some n => exact returns_pure (c.reaches_advance (by omega))
  | none => exact returns_pure rfl

theorem conformsOn_identifier (hD : Onward D) : (identifier : Parser σ).ConformsOn F D := by
  intro c hc
  refine (returns_ahead (hD.notBefore hc)).bind fun t _ => ?_
  cases identifierLength? t with
  | some n => exact returns_pure (c.reaches_advance (by omega))
  | none => exact returns_pure rfl

theorem conformsOn_peek {n : Int} (h : peek n = .ok p) : p.ConformsOn F D := by
  unfold peek at h
  split at h
  · cases h
  · cases h
    refine conformsOn_ofOutcome fun c _ => ?_
    split
    · rfl
    · exact Reaches.refl c

theorem conformsOn_skip (n : Int) : (skip n : Parser σ).ConformsOn F D :=
  conformsOn_ofOutcome fun c _ => c.reaches_advance (by omega)

theorem conformsOn_operatorPrecedence {table : PrecedenceTable} {exact : Bool}
    (h : operatorPrecedence table exact = .ok p) : p.ConformsOn F D := by
  unfold operatorPrecedence at h
  split at h
  · cases h
  · cases h
    refine conformsOn_ofOutcome fun c _ => ?_
    split
    · exact c.reaches_advance (by omega)
    · rfl

theorem conformsOn_localeNumber (hD : Onward D) {data : Installation} {locale : Text}
    (h : localeNumber data locale = .ok p) : p.ConformsOn F D := by
  obtain ⟨s, -, h⟩ := bind_eq_ok h
  cases h
  intro c hc
  dsimp only
  split
  · exact returns_pure rfl
  · rename_i hend
    have hsign := hD.reaches hc (s.reaches_skipSign c)
    refine (returns_current (hD.notBefore hsign) hend).bind fun ch _ => ?_
    split
    · exact returns_pure ((s.reaches_skipSign c).trans (s.reaches_skipDigits _))
    · exact returns_pure rfl

/-! ## Regions of the text -/

/-- What stands behind a region of the remaining text lies ahead. -/
theorem reaches_behind {c : Cursor} (hc : c.NotBefore) {s : Span} (h : s.after.length ≤ c.rest.length) :
    c.Reaches (behind c s) := by
  refine reaches_goTo ?_
  rw [length_rest hc, remaining] at h
  omega

theorem conformsOn_betweenText (hD : Onward D) {opening closing : Text}
    (h : betweenText opening closing = .ok p) : p.ConformsOn F D := by
  obtain ⟨_, _, h⟩ := bind_eq_ok h
  cases h
  refine conformsOn_ofOutcome fun c hc => ?_
  split
  · rename_i s hs
    split
    · rfl
    · exact reaches_behind (hD.notBefore hc) (Text.span?_length_le hs)
  · rfl

theorem conformsOn_betweenStar (hD : Onward D) {opening closing : Text}
    (h : betweenStar opening closing = .ok p) : p.ConformsOn F D := by
  obtain ⟨_, _, h⟩ := bind_eq_ok h
  cases h
  refine conformsOn_ofOutcome fun c hc => ?_
  split
  · rename_i s hs
    split
    · rfl
    · exact reaches_behind (hD.notBefore hc) (Text.spanAbsorbing?_length_le hs)
  · rfl

theorem conformsOn_captureBetweenText (hD : Onward D) {opening closing : Text}
    (h : captureBetweenText opening closing = .ok p) : p.ConformsOn F D := by
  obtain ⟨_, _, h⟩ := bind_eq_ok h
  cases h
  refine conformsOn_ofOutcome fun c hc => ?_
  split
  · rename_i s hs
    exact reaches_behind (hD.notBefore hc) (Text.span?_length_le hs)
  · rfl

theorem conformsOn_ignoreBetweenText (hD : Onward D) {opening closing : Text}
    (h : ignoreBetweenText opening closing = .ok p) : p.ConformsOn F D := by
  obtain ⟨_, _, h⟩ := bind_eq_ok h
  cases h
  refine conformsOn_ofOutcome fun c hc => ?_
  split
  · rename_i s hs
    split
    · rfl
    · exact reaches_behind (hD.notBefore hc) (Text.span?_length_le hs)
  · rfl

theorem conformsOn_notBetweenText {opening closing : Text}
    (h : notBetweenText opening closing = .ok p) : p.ConformsOn F D := by
  obtain ⟨_, _, h⟩ := bind_eq_ok h
  cases h
  exact conformsOn_ofOutcome fun c _ => c.reaches_toEnd

/-! ## All leaves -/

theorem conformsOn_leaf (hD : Onward D) {l : Leaf} (hl : l.FitFor F) (h : l.build = .ok p) :
    p.ConformsOn F D := by
  cases l with
  | satisfy k => cases h; exact conformsOn_satisfy hD hl
  | text t => cases h; exact conformsOn_text t
  | textExact t => cases h; exact conformsOn_textExact t
  | endsWith t => cases h; exact conformsOn_endsWith t
  | number => cases h; exact conformsOn_number hD
  | identifier => cases h; exact conformsOn_identifier hD
  | peek n => exact conformsOn_peek h
  | skip n => cases h; exact conformsOn_skip n
  | precedence table exact => exact conformsOn_operatorPrecedence h
  | localeNumber data locale => exact conformsOn_localeNumber hD h
  | betweenStar opening closing => exact conformsOn_betweenStar hD h
  | captureBetweenText opening closing => exact conformsOn_captureBetweenText hD h
  | ignoreBetweenText opening closing => exact conformsOn_ignoreBetweenText hD h

end Parser

end ParserAlgebra
