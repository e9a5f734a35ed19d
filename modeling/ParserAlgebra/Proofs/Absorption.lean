import ParserAlgebra.Parser.Region
import ParserAlgebra.Proofs.FirstMatch
import ParserAlgebra.Proofs.Occurrence

/-!
# Regions with repeated delimiters

Searching the text and running the parsers of the delimiters find the same span. They differ on an empty span and in
what becomes of the closing delimiter.
-/

namespace ParserAlgebra

open Cursor Parse Text

variable {σ : Type} {mark t opening closing : Text} {pos i inner j stop : Nat}

namespace Text

/-! ## The span -/

/-- The first opening delimiter from `pos` on and its immediate copies end at `inner`. -/
def Opens (opening t : Text) (pos inner : Nat) : Prop :=
  ∃ i, FirstFrom opening t pos i ∧ Copies opening t (i + opening.length) inner

/-- The region from `pos` on begins at `inner`, behind the first opening delimiter and its immediate copies, and
ends at `j`, where the first closing delimiter from there on stands. -/
structure AbsorbingSpan (opening closing t : Text) (pos inner j : Nat) : Prop where
  opens : Opens opening t pos inner
  closes : FirstFrom closing t inner j

/-- Without a span there is no opening delimiter, or no closing one behind the first and its copies. -/
theorem unopened_or_unclosed (h : ∀ inner j, ¬AbsorbingSpan opening closing t pos inner j) (hopening : opening ≠ []) :
    (∀ i, pos ≤ i → ¬OccursAt opening t i) ∨
      ∃ inner, Opens opening t pos inner ∧ ∀ j, inner ≤ j → ¬OccursAt closing t j := by
  by_cases hopens : ∃ i, pos ≤ i ∧ OccursAt opening t i
  · obtain ⟨i, hi⟩ := exists_firstFrom hopens
    obtain ⟨inner, hinner⟩ := Copies.exists hopening t (i + opening.length)
    refine Or.inr ⟨inner, ⟨i, hi, hinner⟩, fun j hle hj => ?_⟩
    obtain ⟨j, hj⟩ := exists_firstFrom ⟨j, hle, hj⟩
    exact h inner j ⟨⟨i, hi, hinner⟩, hj⟩
  · exact Or.inl fun i hle hi => hopens ⟨i, hle, hi⟩

theorem Opens.le_length (h : Opens opening t pos inner) (hopening : opening ≠ []) : inner ≤ t.length := by
  obtain ⟨i, hi, hinner⟩ := h
  exact hinner.le_length hopening (hi.occurs.add_length_le hopening)

/-! ## Searching the text -/

theorem Opens.cut (h : Opens opening t pos inner) (hopening : opening ≠ []) :
    ∃ before u, cut? opening (t.drop pos) = some (before, u) ∧ dropCopies opening u.length u = t.drop inner := by
  obtain ⟨i, hi, hinner⟩ := h
  refine ⟨_, _, cut?_eq_some_iff.2 hi.firstCut, ?_⟩
  exact hinner.dropCopies_eq hopening (by rw [List.length_drop])

theorem AbsorbingSpan.spanAbsorbing?_eq (h : AbsorbingSpan opening closing t pos inner j) (hopening : opening ≠ []) :
    ∃ before, Text.spanAbsorbing? (t.drop pos) opening closing =
      some { before, inner := t.slice inner j, after := t.drop (j + closing.length) } := by
  obtain ⟨before, u, hcut, hcopies⟩ := h.opens.cut hopening
  refine ⟨before, ?_⟩
  rw [Text.spanAbsorbing?, hcut]
  simp [hcopies, cut?_eq_some_iff.2 h.closes.firstCut]

theorem spanAbsorbing?_eq_none (h : ∀ inner j, ¬AbsorbingSpan opening closing t pos inner j)
    (hopening : opening ≠ []) : Text.spanAbsorbing? (t.drop pos) opening closing = none := by
  rw [Text.spanAbsorbing?]
  rcases unopened_or_unclosed h hopening with hunopened | ⟨inner, hopens, hunclosed⟩
  · rw [cut?_eq_none_iff.2 (not_infix_drop hunopened)]
    rfl
  · obtain ⟨before, u, hcut, hcopies⟩ := hopens.cut hopening
    rw [hcut]
    simp [hcopies, cut?_eq_none_iff.2 (not_infix_drop hunclosed)]

end Text

/-! ## Running the parser of a delimiter -/

abbrev Text.cursorAt (t : Text) (i : Nat) : Cursor where
  source := t
  pos := i

def matchText (mark : Text) (c : Cursor) : Outcome :=
  if c.startsWith mark then .success (.text mark) (c.advance mark.length)
  else .fail c (Wording.expected mark.quote) [mark]

theorem Parser.text_computes (mark : Text) : (Parser.text mark : Parser σ).Computes (matchText mark) :=
  fun _ _ => gives_pure _

theorem takesTexts_matchText (mark : Text) : TakesTexts (matchText mark) := by
  intro c hc v d h
  unfold matchText at h
  split at h
  · cases h
    exact ⟨⟨mark, rfl⟩, (reaches_iff hc).1 (reaches_advance c (Int.natCast_nonneg _))⟩
  · cases h

theorem startsWith_iff (hi : i ≤ t.length) : (t.cursorAt i).startsWith mark ↔ OccursAt mark t i := by
  simp [startsWith, rest, OccursAt, hi]

theorem matchText_of_occursAt (h : OccursAt mark t i) (hmark : mark ≠ []) :
    matchText mark (t.cursorAt i) = .success (.text mark) (t.cursorAt (i + mark.length)) := by
  have hle := h.add_length_le hmark
  rw [matchText, if_pos ((startsWith_iff (by omega)).2 h)]
  simp only [advance, Outcome.success.injEq, Cursor.mk.injEq, true_and]
  omega

theorem matchText_failed (h : ¬OccursAt mark t i) (hi : i ≤ t.length) :
    (matchText mark (t.cursorAt i)).succeeded = false := by
  rw [matchText, if_neg fun hstarts => h ((startsWith_iff hi).1 hstarts)]
  rfl

theorem inSource_of_le (h : i ≤ t.length) : (t.cursorAt i).InSource :=
  ⟨Int.natCast_nonneg i, Int.ofNat_le.2 h⟩

/-- The places that a search may come to, by their number. -/
theorem Cursor.Scans.exists_place {d : Cursor} (h : (t.cursorAt pos).Scans d) :
    ∃ i : Nat, d = (t.cursorAt i) ∧ pos ≤ i ∧ i < t.length := by
  obtain ⟨hs, hle, hlt⟩ := h
  obtain ⟨i, hi⟩ := Int.eq_ofNat_of_zero_le (Int.le_trans (Int.natCast_nonneg pos) hle)
  cases d
  cases hs
  subst hi
  exact ⟨i, rfl, Int.ofNat_le.1 hle, Int.ofNat_lt.1 hlt⟩

namespace Parser

theorem search_text (h : FirstFrom mark t pos i) (hmark : mark ≠ []) :
    (search (text mark : Parser σ) (t.cursorAt pos)).Gives
      (some { start := (t.cursorAt i), value := .text mark, stop := (t.cursorAt (i + mark.length)) }) := by
  have hpos : 0 < mark.length := List.length_pos_iff.2 hmark
  have hle := h.le
  have hlen := h.occurs.add_length_le hmark
  have hlt : i < t.length := by omega
  have hscans : (t.cursorAt pos).Scans (t.cursorAt i) := ⟨rfl, Int.ofNat_le.2 hle, Int.ofNat_lt.2 hlt⟩
  refine search_gives_found (text_computes mark) (inSource_of_le (by omega)) ⟨hscans, ?_, ?_⟩
  · exact matchText_of_occursAt h.occurs hmark
  · intro d hd hlt
    obtain ⟨k, rfl, hk, hk'⟩ := hd.exists_place
    exact matchText_failed (h.first k hk (Int.ofNat_lt.1 hlt)) (by omega)

theorem search_text_none (h : ∀ i, pos ≤ i → ¬OccursAt mark t i) (hpos : pos ≤ t.length) :
    (search (text mark : Parser σ) (t.cursorAt pos)).Gives none := by
  refine search_gives_none (text_computes mark) (inSource_of_le hpos) fun d hd => ?_
  obtain ⟨k, rfl, hk, hk'⟩ := hd.exists_place
  exact matchText_failed (h k hk) (by omega)

theorem exists_greedy (h : Copies mark t i stop) (hmark : mark ≠ []) (hi : i ≤ t.length) :
    ∃ steps, Greedy (matchText mark) (t.cursorAt i) steps ∧
      lastCursor (t.cursorAt i) steps = (t.cursorAt stop) := by
  induction h with
  | @stop i hno =>
      refine ⟨[], .stop fun v d hd => ?_, rfl⟩
      exact absurd (matchText_failed hno hi) (Outcome.not_failed hd)
  | @step i stop hoccurs _ ih =>
      have hpos : 0 < mark.length := List.length_pos_iff.2 hmark
      obtain ⟨steps, hsteps, hlast⟩ := ih (hoccurs.add_length_le hmark)
      exact ⟨_ :: steps, .step (matchText_of_occursAt hoccurs hmark) (Int.ofNat_lt.2 (by omega)) hsteps, hlast⟩

theorem repeated_text (h : Copies mark t i stop) (hmark : mark ≠ []) (hi : i ≤ t.length) :
    ∃ vs, (repeated (text mark : Parser σ) Cursor.atEnd (t.cursorAt i)).Gives
      (vs, (t.cursorAt stop)) := by
  obtain ⟨steps, hsteps, hlast⟩ := exists_greedy h hmark hi
  have hrun := repeated_atEnd_gives (text_computes (σ := σ) mark) (takesTexts_matchText mark).endsAhead hsteps.chain
    hsteps.stays (inSource_of_le hi)
  rw [hlast] at hrun
  exact ⟨_, hrun⟩

theorem openRegion_text (h : Opens opening t pos inner) (hopening : opening ≠ []) :
    (openRegion (text opening : Parser σ) (t.cursorAt pos)).Gives (some (t.cursorAt inner)) := by
  obtain ⟨i, hi, hinner⟩ := h
  obtain ⟨vs, hcopies⟩ := repeated_text (σ := σ) hinner hopening (hi.occurs.add_length_le hopening)
  exact (search_text hi hopening).bind (hcopies.bind (gives_pure _))

theorem openRegion_text_none (h : ∀ i, pos ≤ i → ¬OccursAt opening t i) (hpos : pos ≤ t.length) :
    (openRegion (text opening : Parser σ) (t.cursorAt pos)).Gives none :=
  (search_text_none h hpos).bind (gives_pure _)

/-! ## The parsers of a region -/

/-- The parser fails at the cursor, and stays there. -/
def FailsAt (p : Parser σ) (c : Cursor) : Prop :=
  ∃ m, (p.run c).Gives (.failure m) ∧ m.cursor = c

theorem requireNonEmpty_literals (hopening : opening ≠ []) (hclosing : closing ≠ []) (combinator : String)
    (p : Parser σ) : (requireNonEmpty combinator ([.literal opening, .literal closing].filterMap
      (Operand.literal? (σ := σ))) >>= fun _ => .ok p) = .ok p := by
  rw [show [.literal opening, .literal closing].filterMap (Operand.literal? (σ := σ)) = [opening, closing] from rfl,
    requireNonEmpty_ok hopening hclosing]
  rfl

theorem captureBetweenParsers_text (h : AbsorbingSpan opening closing t pos inner j) (hopening : opening ≠ [])
    (hclosing : closing ≠ []) :
    ((captureBetweenParsers (text opening) (text closing) : Parser σ).run (t.cursorAt pos)).Gives
      (.success (.text (t.slice inner j)) (t.cursorAt j)) :=
  (openRegion_text h.opens hopening).bind ((search_text h.closes hclosing).bind (gives_pure _))

theorem ignoreBetweenParsers_text (h : AbsorbingSpan opening closing t pos inner j) (hopening : opening ≠ [])
    (hclosing : closing ≠ []) :
    ∃ stop, Copies closing t j stop ∧
      ((ignoreBetweenParsers (text opening) (text closing) : Parser σ).run (t.cursorAt pos)).Gives
        (.success .none (t.cursorAt stop)) := by
  obtain ⟨stop, hstop⟩ := Copies.exists hclosing t (j + closing.length)
  obtain ⟨vs, hcopies⟩ := repeated_text (σ := σ) hstop hclosing (h.closes.occurs.add_length_le hclosing)
  refine ⟨stop, .step h.closes.occurs hstop, ?_⟩
  exact (openRegion_text h.opens hopening).bind ((search_text h.closes hclosing).bind (hcopies.bind (gives_pure _)))

theorem parsers_fail_text (h : ∀ inner j, ¬AbsorbingSpan opening closing t pos inner j) (hopening : opening ≠ [])
    (hpos : pos ≤ t.length) :
    (captureBetweenParsers (text opening) (text closing) : Parser σ).FailsAt (t.cursorAt pos) ∧
      (ignoreBetweenParsers (text opening) (text closing) : Parser σ).FailsAt (t.cursorAt pos) := by
  rcases unopened_or_unclosed h hopening with hunopened | ⟨inner, hopens, hunclosed⟩
  · have hregion := openRegion_text_none (σ := σ) hunopened hpos
    exact ⟨⟨_, hregion.bind (gives_pure _), rfl⟩, ⟨_, hregion.bind (gives_pure _), rfl⟩⟩
  · have hregion := openRegion_text (σ := σ) hopens hopening
    have hsearch := search_text_none (σ := σ) hunclosed (hopens.le_length hopening)
    exact ⟨⟨_, hregion.bind (hsearch.bind (gives_pure _)), rfl⟩, ⟨_, hregion.bind (hsearch.bind (gives_pure _)), rfl⟩⟩

theorem behind_drop {before inner : Text} (h : i ≤ t.length) :
    behind (t.cursorAt pos) { before, inner, after := t.drop i } = t.cursorAt i := by
  simp only [behind, goTo, List.length_drop, Cursor.mk.injEq, true_and]
  omega

theorem rest_cursorAt (t : Text) (pos : Nat) : (t.cursorAt pos).rest = t.drop pos := by
  simp [Cursor.rest]

theorem betweenStar_eq (hopening : opening ≠ []) (hclosing : closing ≠ []) :
    ∃ star : Parser σ, betweenStar opening closing = .ok star ∧
      (∀ inner j, AbsorbingSpan opening closing t pos inner j →
        (star.run (t.cursorAt pos)).Gives (if inner < j then
          .success (.text (t.slice inner j)) (t.cursorAt (j + closing.length))
          else noTextBetween (t.cursorAt pos) opening closing)) ∧
      ((∀ inner j, ¬AbsorbingSpan opening closing t pos inner j) →
        (star.run (t.cursorAt pos)).Gives (noTextBetween (t.cursorAt pos) opening closing)) := by
  rw [betweenStar, requireNonEmpty_ok hopening hclosing]
  refine ⟨_, rfl, ?_, ?_⟩
  · intro inner j h
    obtain ⟨before, hs⟩ := h.spanAbsorbing?_eq hopening
    have hlen := h.closes.occurs.add_length_le hclosing
    have hempty : (t.slice inner j).isEmpty ↔ ¬inner < j := by
      simp [slice_natCast]
      omega
    simp only [ofOutcome, rest_cursorAt, hs, hempty, behind_drop hlen, ite_not]
    exact gives_pure _
  · intro h
    simp only [ofOutcome, rest_cursorAt, spanAbsorbing?_eq_none h hopening]
    exact gives_pure _

/-- Searching the text and running the parsers of the delimiters find the same span. The first two parsers yield its
text, one leaves the closing delimiter and the other uses it up and refuses an empty span; the third uses up all
copies of the closing delimiter. Without a span all three fail and stay. -/
theorem regions_agree (hopening : opening ≠ []) (hclosing : closing ≠ []) (hpos : pos ≤ t.length) :
    ∃ capture star ignore : Parser σ, captureBetween (.literal opening) (.literal closing) = .ok capture ∧
      betweenStar opening closing = .ok star ∧
      ignoreBetween (.literal opening) (.literal closing) = .ok ignore ∧
      (∀ inner j, AbsorbingSpan opening closing t pos inner j →
        (capture.run (t.cursorAt pos)).Gives (.success (.text (t.slice inner j)) (t.cursorAt j)) ∧
        (inner < j → (star.run (t.cursorAt pos)).Gives
          (.success (.text (t.slice inner j)) (t.cursorAt (j + closing.length)))) ∧
        (¬inner < j → star.FailsAt (t.cursorAt pos)) ∧
        ∃ stop, Copies closing t j stop ∧
          (ignore.run (t.cursorAt pos)).Gives (.success .none (t.cursorAt stop))) ∧
      ((∀ inner j, ¬AbsorbingSpan opening closing t pos inner j) →
        capture.FailsAt (t.cursorAt pos) ∧ star.FailsAt (t.cursorAt pos) ∧ ignore.FailsAt (t.cursorAt pos)) := by
  obtain ⟨star, hstar, hfound, hmissed⟩ := betweenStar_eq (σ := σ) (t := t) hopening hclosing
  refine ⟨_, star, _, requireNonEmpty_literals hopening hclosing _ _, hstar,
    requireNonEmpty_literals hopening hclosing _ _, ?_, ?_⟩
  · intro inner j h
    have hrun := hfound inner j h
    refine ⟨captureBetweenParsers_text h hopening hclosing, fun hlt => ?_, fun hle => ?_,
      ignoreBetweenParsers_text h hopening hclosing⟩
    · rwa [if_pos hlt] at hrun
    · rw [if_neg hle] at hrun
      exact ⟨_, hrun, rfl⟩
  · intro h
    obtain ⟨hcapture, hignore⟩ := parsers_fail_text h hopening hpos
    exact ⟨hcapture, ⟨_, hmissed h, rfl⟩, hignore⟩

/-- The opening delimiter `aa` is absorbed twice and is the beginning of the closing delimiter `aab`, which ends the
source: the span in `baaaaabaab` is the `ab` between. -/
theorem regions_agree_self_overlap :
    let t : Text := "baaaaabaab"
    ("aa" : Text) ≠ [] ∧ ("aab" : Text) ≠ [] ∧ 1 ≤ t.length ∧ AbsorbingSpan "aa" "aab" t 1 5 7 ∧
      ∃ capture star ignore : Parser Unit, captureBetween (.literal "aa") (.literal "aab") = .ok capture ∧
        betweenStar "aa" "aab" = .ok star ∧ ignoreBetween (.literal "aa") (.literal "aab") = .ok ignore ∧
        (capture.run (t.cursorAt 1)).Gives (.success (.text "ab") (t.cursorAt 7)) ∧
        (star.run (t.cursorAt 1)).Gives (.success (.text "ab") (t.cursorAt 10)) ∧
        (ignore.run (t.cursorAt 1)).Gives (.success .none (t.cursorAt 10)) := by
  intro t
  have hopening : ("aa" : Text) ≠ [] := by decide
  have hclosing : ("aab" : Text) ≠ [] := by decide
  have hpos : 1 ≤ t.length := by decide
  have hspan : AbsorbingSpan "aa" "aab" t 1 5 7 := by
    refine ⟨⟨1, ⟨by decide, by decide, fun k h h' => by omega⟩, .step (by decide) (.stop (by decide))⟩, ?_⟩
    have hfirst : ∀ k < 7, 5 ≤ k → ¬OccursAt "aab" t k := by decide
    exact ⟨by decide, by decide, fun k h h' => hfirst k h' h⟩
  obtain ⟨capture, star, ignore, hcapture, hstar, hignore, hfound, -⟩ :=
    regions_agree (σ := Unit) hopening hclosing hpos
  obtain ⟨hrun, hrun', -, stop, hstop, hrun''⟩ := hfound 5 7 hspan
  have hend : stop = 10 := Copies.unique (.step (by decide) (.stop (by decide))) hstop
  subst hend
  exact ⟨hopening, hclosing, hpos, hspan, capture, star, ignore, hcapture, hstar, hignore, hrun, hrun' (by decide), hrun''⟩

end Parser

end ParserAlgebra
