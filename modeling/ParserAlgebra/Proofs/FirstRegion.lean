import Mathlib.Data.List.Infix
import ParserAlgebra.Proofs.Absorption

/-!
# The first region between two texts

A region that is refused is not passed over for a later one.
-/

namespace ParserAlgebra

open Cursor Parse

variable {σ : Type} {mark t before inner after opening closing : Text} {c : Cursor}

namespace Text

/-! ## Cutting at the first region -/

/-- Where `mark` follows `before`, it occurs nowhere but at the end. -/
def OnlyAtEnd (mark before : Text) : Prop :=
  ∀ i < before.length, ¬OccursAt mark (before ++ mark) i

instance : Decidable (OnlyAtEnd mark before) :=
  inferInstanceAs (Decidable (∀ i < before.length, ¬OccursAt mark (before ++ mark) i))

/-- Around the region stand the leftmost opening delimiter and the nearest closing one. -/
structure FirstRegion (opening closing t before inner after : Text) : Prop where
  eq : t = before ++ (opening ++ (inner ++ (closing ++ after)))
  opens : OnlyAtEnd opening before
  closes : OnlyAtEnd closing inner

theorem FirstCut.onlyAtEnd (h : FirstCut mark t before after) : OnlyAtEnd mark before := by
  intro i hi hoccurs
  have hbegins : before ++ mark <+: t := ⟨after, by rw [h.eq, List.append_assoc]⟩
  obtain ⟨a, ha⟩ := hoccurs.trans (hbegins.drop i)
  have hle := h.first (t.take i) a (by rw [ha, List.take_append_drop])
  rw [List.length_take] at hle
  omega

theorem firstCut_of_onlyAtEnd (h : OnlyAtEnd mark before) : FirstCut mark (before ++ (mark ++ after)) before after where
  eq := rfl
  first b a hb := by
    by_contra hlt
    -- An occurrence further to the left ends within `before` and `mark`, which precede it as far as it goes.
    have hearlier : b ++ mark <+: before ++ (mark ++ after) := ⟨a, by rw [hb, List.append_assoc]⟩
    have hlast : before ++ mark <+: before ++ (mark ++ after) := ⟨after, List.append_assoc ..⟩
    have hwithin : b ++ mark <+: before ++ mark := by
      refine List.prefix_of_prefix_length_le hearlier hlast ?_
      simp only [List.length_append]
      omega
    obtain ⟨u, hu⟩ := hwithin
    refine h b.length (by omega) ?_
    rw [OccursAt, ← hu, List.append_assoc, List.drop_left]
    exact List.prefix_append mark u

theorem firstCut_iff : FirstCut mark t before after ↔ t = before ++ (mark ++ after) ∧ OnlyAtEnd mark before := by
  constructor
  · exact fun h => ⟨h.eq, h.onlyAtEnd⟩
  · rintro ⟨rfl, h⟩
    exact firstCut_of_onlyAtEnd h

theorem span?_eq_some_iff_firstRegion :
    t.span? opening closing = some { before, inner, after } ↔ FirstRegion opening closing t before inner after := by
  simp only [span?_eq_some_iff, firstCut_iff]
  constructor
  · rintro ⟨u, ⟨rfl, hopens⟩, rfl, hcloses⟩
    exact ⟨rfl, hopens, hcloses⟩
  · rintro ⟨rfl, hopens, hcloses⟩
    exact ⟨_, ⟨rfl, hopens⟩, rfl, hcloses⟩

theorem FirstRegion.unique {before' inner' after' : Text} (h : FirstRegion opening closing t before inner after)
    (h' : FirstRegion opening closing t before' inner' after') :
    before' = before ∧ inner' = inner ∧ after' = after := by
  have hs := (span?_eq_some_iff_firstRegion.2 h').symm.trans (span?_eq_some_iff_firstRegion.2 h)
  cases hs
  exact ⟨rfl, rfl, rfl⟩

theorem span?_eq_none_of_no_firstRegion
    (h : ∀ before inner after, ¬FirstRegion opening closing t before inner after) : t.span? opening closing = none := by
  cases hs : t.span? opening closing with
  | none => rfl
  | some s => exact absurd (span?_eq_some_iff_firstRegion.1 hs) (h s.before s.inner s.after)

end Text

namespace Parser

open Text

/-! ## Behind the region -/

theorem behind_eq_advance (hc : c.InSource) (h : FirstRegion opening closing c.rest before inner after) :
    behind c { before, inner, after } = c.advance (before ++ (opening ++ (inner ++ closing))).length := by
  have hlen := congrArg List.length h.eq
  have hrest := length_rest hc.1
  simp only [List.length_append, remaining] at hlen hrest
  simp only [behind, goTo, advance, List.length_append, Cursor.mk.injEq, true_and]
  obtain ⟨h0, h1⟩ := hc
  omega

theorem rest_behind (hc : c.InSource) (h : FirstRegion opening closing c.rest before inner after) :
    (behind c { before, inner, after }).rest = after := by
  have hsplit : c.rest = before ++ (opening ++ (inner ++ closing)) ++ after := by simp [h.eq]
  rw [behind_eq_advance hc h, rest_advance hc.1, hsplit, List.drop_left]

/-! ## The three parsers -/

/-- The parser cuts the remaining text at its first region and yields the value for the text of it. It fails and stays
if that text is refused, or if there is no region. -/
structure CutsFirst (opening closing : Text) (refuses : Text → Bool) (value : Text → Value) (p : Parser σ)
    (c : Cursor) : Prop where
  yields : ∀ {before inner after}, FirstRegion opening closing c.rest before inner after → refuses inner = false →
    (p.run c).Gives (.success (value inner) (behind c { before, inner, after }))
  refused : ∀ {before inner after}, FirstRegion opening closing c.rest before inner after → refuses inner = true →
    p.FailsAt c
  missed : (∀ before inner after, ¬FirstRegion opening closing c.rest before inner after) → p.FailsAt c

theorem cutsFirst_of_gives {p : Parser σ} {refuses : Text → Bool} {value : Text → Value} {m : Mismatch}
    (hm : m.cursor = c) (h : (p.run c).Gives (match c.rest.span? opening closing with
      | some s => if refuses s.inner then .failure m else .success (value s.inner) (behind c s)
      | none => .failure m)) : p.CutsFirst opening closing refuses value c where
  yields hregion hyes := by
    simpa only [span?_eq_some_iff_firstRegion.2 hregion, hyes, Bool.false_eq_true, if_false] using h
  refused hregion hno := by
    simp only [span?_eq_some_iff_firstRegion.2 hregion, hno, if_true] at h
    exact ⟨m, h, hm⟩
  missed hnone := by
    simp only [span?_eq_none_of_no_firstRegion hnone] at h
    exact ⟨m, h, hm⟩

theorem captureBetweenText_cutsFirst (hopening : opening ≠ []) (hclosing : closing ≠ []) :
    ∃ p : Parser σ, captureBetweenText opening closing = .ok p ∧
      ∀ c, p.CutsFirst opening closing (fun _ => false) .text c := by
  rw [captureBetweenText, requireNonEmpty_ok hopening hclosing]
  exact ⟨_, rfl, fun _ => cutsFirst_of_gives rfl (gives_pure _)⟩

theorem betweenText_cutsFirst (hopening : opening ≠ []) (hclosing : closing ≠ []) :
    ∃ p : Parser σ, Parser.between (.literal opening) (.literal closing) = .ok p ∧
      ∀ c, p.CutsFirst opening closing List.isEmpty .text c := by
  rw [Parser.between, betweenText, requireNonEmpty_ok hopening hclosing]
  exact ⟨_, rfl, fun _ => cutsFirst_of_gives rfl (gives_pure _)⟩

theorem ignoreBetweenText_cutsFirst (hopening : opening ≠ []) (hclosing : closing ≠ []) :
    ∃ p : Parser σ, ignoreBetweenText opening closing = .ok p ∧
      ∀ c, p.CutsFirst opening closing List.isEmpty (fun _ => .none) c := by
  rw [ignoreBetweenText, requireNonEmpty_ok hopening hclosing]
  exact ⟨_, rfl, fun _ => cutsFirst_of_gives rfl (gives_pure _)⟩

/-- A region from the leftmost opening delimiter to the nearest closing one is the only one of its kind. One parser
yields its text, the other two refuse it if it is empty, whatever follows, and else yield the text and nothing; all
leave what stands behind it. Without such a region the three fail and stay, and then no opening delimiter has a closing
one behind it. -/
theorem textRegions_cut_first (hopening : opening ≠ []) (hclosing : closing ≠ []) (hc : c.InSource) :
    ∃ capture between ignore : Parser σ, captureBetweenText opening closing = .ok capture ∧
      Parser.between (.literal opening) (.literal closing) = .ok between ∧
      ignoreBetweenText opening closing = .ok ignore ∧
      (∀ before inner after, FirstRegion opening closing c.rest before inner after →
        (∀ before' inner' after', FirstRegion opening closing c.rest before' inner' after' →
          before' = before ∧ inner' = inner ∧ after' = after) ∧
        ∃ d, d = c.advance (before ++ (opening ++ (inner ++ closing))).length ∧ d.rest = after ∧
          (capture.run c).Gives (.success (.text inner) d) ∧
          (inner ≠ [] → (between.run c).Gives (.success (.text inner) d) ∧ (ignore.run c).Gives (.success .none d)) ∧
          (inner = [] → between.FailsAt c ∧ ignore.FailsAt c)) ∧
      ((∀ before inner after, ¬FirstRegion opening closing c.rest before inner after) →
        capture.FailsAt c ∧ between.FailsAt c ∧ ignore.FailsAt c ∧ ¬HasRegion opening closing c.rest) := by
  obtain ⟨capture, hcapture, hcaptures⟩ := captureBetweenText_cutsFirst (σ := σ) hopening hclosing
  obtain ⟨between, hbetween, hbetweens⟩ := betweenText_cutsFirst (σ := σ) hopening hclosing
  obtain ⟨ignore, hignore, hignores⟩ := ignoreBetweenText_cutsFirst (σ := σ) hopening hclosing
  refine ⟨capture, between, ignore, hcapture, hbetween, hignore, ?found, ?missed⟩
  case found =>
    intro before inner after h
    refine ⟨fun _ _ _ h' => h.unique h', _, behind_eq_advance hc h, rest_behind hc h, ?_, ?_, ?_⟩
    · exact (hcaptures c).yields h rfl
    · intro hne
      have hyes : inner.isEmpty = false := List.isEmpty_eq_false_iff.2 hne
      exact ⟨(hbetweens c).yields h hyes, (hignores c).yields h hyes⟩
    · intro hempty
      have hno : inner.isEmpty = true := List.isEmpty_iff.2 hempty
      exact ⟨(hbetweens c).refused h hno, (hignores c).refused h hno⟩
  case missed =>
    intro h
    exact ⟨(hcaptures c).missed h, (hbetweens c).missed h, (hignores c).missed h,
      span?_eq_none_iff.1 (span?_eq_none_of_no_firstRegion h)⟩

/-- Behind the first letter of `-<!----><!--b-->` an empty comment comes first, and two of the parsers do not pass on
to the one behind it. The `--` that opens it is not the beginning of what closes it. -/
theorem textRegions_cut_first_empty_comment :
    let c : Cursor := { source := "-<!----><!--b-->", pos := 1 }
    ("<!--" : Text) ≠ [] ∧ ("-->" : Text) ≠ [] ∧ c.InSource ∧
      FirstRegion "<!--" "-->" c.rest [] [] "<!--b-->" ∧ FirstRegion "<!--" "-->" "<!--b-->" [] "b" [] ∧
      ∃ capture between ignore : Parser Unit, captureBetweenText "<!--" "-->" = .ok capture ∧
        Parser.between (.literal "<!--") (.literal "-->") = .ok between ∧
        ignoreBetweenText "<!--" "-->" = .ok ignore ∧
        (capture.run c).Gives (.success (.text []) { c with pos := 8 }) ∧ between.FailsAt c ∧ ignore.FailsAt c := by
  intro c
  have hopening : ("<!--" : Text) ≠ [] := by decide
  have hclosing : ("-->" : Text) ≠ [] := by decide
  have hc : c.InSource := ⟨by decide, by decide⟩
  have hregion : FirstRegion "<!--" "-->" c.rest [] [] "<!--b-->" := ⟨by decide, by decide, by decide⟩
  have hlater : FirstRegion "<!--" "-->" "<!--b-->" [] "b" [] := ⟨by decide, by decide, by decide⟩
  obtain ⟨capture, between, ignore, hcapture, hbetween, hignore, hfound, -⟩ :=
    textRegions_cut_first (σ := Unit) hopening hclosing hc
  obtain ⟨-, d, hd, -, hrun, -, hempty⟩ := hfound _ _ _ hregion
  subst hd
  refine ⟨hopening, hclosing, hc, hregion, hlater, capture, between, ignore, hcapture, hbetween, hignore, ?_⟩
  exact ⟨hrun, hempty rfl⟩

end Parser

end ParserAlgebra
