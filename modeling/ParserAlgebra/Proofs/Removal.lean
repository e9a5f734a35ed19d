import ParserAlgebra.Proofs.Occurrence
import ParserAlgebra.Proofs.Run

/-!
# Removing regions
-/

namespace ParserAlgebra

namespace Text

variable {opening closing t last last' : Text} {parts parts' : List (Text × Text)}

/-! ## The regions of a text -/

/-- The text consists of regions, each with a gap before it, and a rest without regions. Each opening delimiter is
the first one behind the last region, each closing one the first one behind that. -/
inductive Regions (opening closing : Text) : Text → (parts : List (Text × Text)) → (last : Text) → Prop
  | done {t : Text} : ¬HasRegion opening closing t → Regions opening closing t [] t
  | region {t u v gap inner : Text} {parts : List (Text × Text)} {last : Text} : FirstCut opening t gap u →
      FirstCut closing u inner v → Regions opening closing v parts last →
      Regions opening closing t ((gap, inner) :: parts) last

/-- The gaps and the regions between them, joined to a text again. -/
def joinRegions (opening closing : Text) (parts : List (Text × Text)) (last : Text) : Text :=
  (parts.flatMap fun part => part.1 ++ opening ++ part.2 ++ closing) ++ last

theorem Regions.eq_joinRegions (h : Regions opening closing t parts last) :
    t = joinRegions opening closing parts last := by
  induction h with
  | done _ => rfl
  | region hu hv _ ih =>
      rw [hu.eq, hv.eq, ih]
      simp [joinRegions]

theorem Regions.unique (h : Regions opening closing t parts last) (h' : Regions opening closing t parts' last') :
    parts' = parts ∧ last' = last := by
  induction h generalizing parts' with
  | done hno =>
      cases h' with
      | done _ => exact ⟨rfl, rfl⟩
      | region hu hv _ => exact absurd (hu.hasRegion hv) hno
  | region hu hv _ ih =>
      cases h' with
      | done hno => exact absurd (hu.hasRegion hv) hno
      | region hu' hv' h' =>
          obtain ⟨rfl, rfl⟩ := hu.unique hu'
          obtain ⟨rfl, rfl⟩ := hv.unique hv'
          obtain ⟨rfl, rfl⟩ := ih h'
          exact ⟨rfl, rfl⟩

theorem Regions.exists (hopening : opening ≠ []) (closing t : Text) :
    ∃ parts last, Regions opening closing t parts last := by
  generalize hn : t.length = n
  induction n using Nat.strongRecOn generalizing t with
  | ind n ih =>
      cases hs : t.span? opening closing with
      | none => exact ⟨[], t, .done (span?_eq_none_iff.1 hs)⟩
      | some s =>
          have hlt := span?_length_lt hopening hs
          obtain ⟨u, hu, hv⟩ := span?_eq_some_iff.1 hs
          obtain ⟨parts, last, h⟩ := ih s.after.length (by omega) s.after rfl
          exact ⟨(s.before, s.inner) :: parts, last, .region hu hv h⟩

/-! ## What is left -/

theorem Regions.removeSpans_eq (h : Regions opening closing t parts last) (hopening : opening ≠ []) {limit : Nat}
    (hlimit : t.length ≤ limit) :
    removeSpans opening closing limit t = (parts.map (·.1)).flatten ++ last := by
  -- Each region takes one from the limit and at least one character from the text.
  induction h generalizing limit with
  | done hno =>
      cases limit with
      | zero => rfl
      | succ limit => rw [removeSpans, span?_eq_none_iff.2 hno]; rfl
  | @region t u v gap inner parts last hu hv _ ih =>
      have hs : t.span? opening closing = some { before := gap, inner, after := v } :=
        span?_eq_some_iff.2 ⟨u, hu, hv⟩
      have hlt : v.length < t.length := span?_length_lt hopening hs
      obtain ⟨limit, rfl⟩ : ∃ k, limit = k + 1 := Nat.exists_eq_succ_of_ne_zero (by omega)
      have hrest := @ih limit (by omega)
      rw [removeSpans, hs]
      simp [hrest]

theorem Regions.withoutSpans_eq (h : Regions opening closing t parts last) (hopening : opening ≠ []) :
    t.withoutSpans opening closing = (parts.map (·.1)).flatten ++ last :=
  h.removeSpans_eq hopening (Nat.le_refl _)

end Text

namespace Parser

open Text

/-- A text has one decomposition into regions and gaps, and the parser that removes regions yields what the gaps and
the rest make up, at the end of the source. -/
theorem notBetween_keeps_gaps {σ : Type} {opening closing : Text} (hopening : opening ≠ []) (hclosing : closing ≠ [])
    (c : Cursor) :
    ∃ parts last, Regions opening closing c.rest parts last ∧ c.rest = joinRegions opening closing parts last ∧
      (∀ parts' last', Regions opening closing c.rest parts' last' → parts' = parts ∧ last' = last) ∧
      ∃ p : Parser σ, notBetween (.literal opening) (.literal closing) = .ok p ∧
        (p.run c).Gives (.success (.text ((parts.map (·.1)).flatten ++ last)) { c with pos := c.source.length }) := by
  obtain ⟨parts, last, h⟩ := Regions.exists hopening closing c.rest
  refine ⟨parts, last, h, h.eq_joinRegions, fun _ _ => h.unique, ?_⟩
  rw [notBetween, notBetweenText, requireNonEmpty_ok hopening hclosing]
  refine ⟨_, rfl, ?_⟩
  rw [← h.withoutSpans_eq hopening]
  exact Parse.gives_pure _

/-- With the same text for both delimiters, `--` closes what the last one opened: of `x--a----b--c--` the text
`xc--` is left, whose last delimiter opens nothing. -/
theorem notBetween_keeps_gaps_same_delimiter :
    let c : Cursor := { source := "--x--a----b--c--", pos := 2 }
    ("--" : Text) ≠ [] ∧ Regions "--" "--" c.rest [("x", "a"), ("", "b")] "c--" ∧
      ∃ p : Parser Unit, notBetween (.literal "--") (.literal "--") = .ok p ∧
        (p.run c).Gives (.success (.text "xc--") { c with pos := 16 }) := by
  intro c
  have hmark : ("--" : Text) ≠ [] := by decide
  have hregions : Regions "--" "--" c.rest [("x", "a"), ("", "b")] "c--" :=
    .region (u := "a----b--c--") (v := "--b--c--") (cut?_eq_some_iff.1 (by decide)) (cut?_eq_some_iff.1 (by decide))
      (.region (u := "b--c--") (v := "c--") (cut?_eq_some_iff.1 (by decide)) (cut?_eq_some_iff.1 (by decide))
        (.done (span?_eq_none_iff.1 (by decide))))
  obtain ⟨parts, last, h, -, hunique, p, hp, hrun⟩ := @notBetween_keeps_gaps Unit _ _ hmark hmark c
  obtain ⟨rfl, rfl⟩ := hunique _ _ hregions
  exact ⟨hmark, hregions, p, hp, hrun⟩

end Parser

end ParserAlgebra
