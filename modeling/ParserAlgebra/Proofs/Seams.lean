import ParserAlgebra.Proofs.Removal

/-!
# Regions across seams

The gaps hold no opening delimiter, so one that is left has its beginning at the end of a gap and its other part behind
the seam. One of equal characters cannot form in this way.
-/

namespace ParserAlgebra

namespace Text

variable {opening closing t last a b c u w gap : Text} {parts : List (Text × Text)} {ch : Char}

/-! ## What is left -/

/-- The gaps and the rest behind the last region, joined. -/
def residue (parts : List (Text × Text)) (last : Text) : Text :=
  (parts.map (·.1)).flatten ++ last

@[simp] theorem residue_nil (last : Text) : residue [] last = last :=
  rfl

@[simp] theorem residue_cons (gap inner : Text) (parts : List (Text × Text)) (last : Text) :
    residue ((gap, inner) :: parts) last = gap ++ residue parts last :=
  List.append_assoc ..

theorem Regions.length_residue_le (h : Regions opening closing t parts last) :
    (residue parts last).length ≤ t.length := by
  induction h with
  | done _ => exact Nat.le_refl _
  | region hu hv _ ih =>
      rw [hu.eq, hv.eq]
      simp only [residue_cons, List.length_append]
      omega

/-- Exactly the texts without regions are left as they are. -/
theorem Regions.residue_eq_self_iff (h : Regions opening closing t parts last) (hopening : opening ≠ []) :
    residue parts last = t ↔ ¬HasRegion opening closing t := by
  cases h with
  | done hno => exact iff_of_true rfl hno
  | region hu hv hrest =>
      refine iff_of_false (fun heq => ?_) (not_not_intro (hu.hasRegion hv))
      have hpos := List.length_pos_iff.2 hopening
      have hle := hrest.length_residue_le
      have hlen := congrArg List.length heq
      rw [hu.eq, hv.eq] at hlen
      simp only [residue_cons, List.length_append] at hlen
      omega

/-! ## Seams -/

/-- Behind `a` in what is left, an opening delimiter begins in a gap and ends behind that gap. -/
inductive AcrossSeam (opening : Text) : (parts : List (Text × Text)) → (a : Text) → Prop
  | here {b x y inner : Text} {parts : List (Text × Text)} : opening = x ++ y → x ≠ [] → y ≠ [] →
      AcrossSeam opening ((b ++ x, inner) :: parts) b
  | further {a gap inner : Text} {parts : List (Text × Text)} : AcrossSeam opening parts a →
      AcrossSeam opening ((gap, inner) :: parts) (gap ++ a)

theorem FirstCut.not_infix (h : FirstCut opening t gap u) (hopening : opening ≠ []) : ¬opening <:+: gap := by
  rintro ⟨b, a, rfl⟩
  have hpos := List.length_pos_iff.2 hopening
  have hle := h.first b (a ++ (opening ++ u)) (by rw [h.eq]; simp only [List.append_assoc])
  simp only [List.length_append] at hle
  omega

/-- Every region that is left opens across a seam. -/
theorem Regions.acrossSeam (h : Regions opening closing t parts last) (hopening : opening ≠ [])
    (hleft : residue parts last = a ++ (opening ++ (b ++ (closing ++ c)))) : AcrossSeam opening parts a := by
  induction h generalizing a with
  | done hno => exact absurd ⟨a, b, c, hleft⟩ hno
  | @region t u v gap inner parts last hu hv _ ih =>
      have hgap := hu.not_infix hopening
      rw [residue_cons] at hleft
      rcases List.append_eq_append_iff.1 hleft with ⟨a, rfl, hrest⟩ | ⟨x, rfl, hrest⟩
      · exact .further (ih hrest)
      · rcases List.append_eq_append_iff.1 hrest with ⟨z, rfl, -⟩ | ⟨y, hy, -⟩
        · exact absurd ⟨a, z, by simp⟩ hgap
        · rcases eq_or_ne x [] with rfl | hx
          · simpa using (@ih [] hrest.symm).further
          · refine .here hy hx ?_
            rintro rfl
            exact hgap ⟨a, [], by simp [hy]⟩

/-! ## Delimiters of equal characters -/

theorem cons_comm_of_forall_eq (h : ∀ d ∈ w, d = ch) : ch :: w = w ++ [ch] := by
  rw [List.eq_replicate_iff.2 ⟨rfl, h⟩, ← List.replicate_succ, List.replicate_succ']

/-- A first occurrence of a delimiter of equal characters does not follow such a character. -/
theorem FirstCut.not_across (h : FirstCut opening t gap u) (hsame : ∀ d ∈ opening, d = ch) {x y : Text}
    (hopening : opening = x ++ y) (hx : x ≠ []) (hgap : gap = b ++ x) : False := by
  obtain ⟨x, d, rfl⟩ : ∃ x' d, x = x' ++ [d] := ⟨_, _, (List.dropLast_concat_getLast hx).symm⟩
  obtain rfl : d = ch := hsame d (by simp [hopening])
  have hearlier : t = b ++ x ++ (opening ++ d :: u) := by
    calc t = b ++ x ++ (d :: opening ++ u) := by simp [h.eq, hgap]
      _ = b ++ x ++ (opening ++ d :: u) := by simp [cons_comm_of_forall_eq hsame]
  have hle := h.first _ _ hearlier
  simp only [hgap, List.length_append, List.length_singleton] at hle
  omega

theorem Regions.not_acrossSeam (h : Regions opening closing t parts last) (hsame : ∀ d ∈ opening, d = ch) :
    ¬AcrossSeam opening parts a := by
  induction h generalizing a with
  | done _ => exact nofun
  | region hu _ _ ih =>
      intro hacross
      cases hacross with
      | here hopening hx _ => exact hu.not_across hsame hopening hx rfl
      | further hacross => exact ih hacross

/-! ## Delimiters of different characters -/

theorem forall_eq_of_prefix_cons (h : w <+: ch :: (w ++ u)) : ∀ d ∈ w, d = ch := by
  induction w with
  | nil => simp
  | cons d w ih =>
      obtain ⟨rfl, hw⟩ := List.cons_prefix_cons.1 h
      exact List.forall_mem_cons.2 ⟨rfl, ih hw⟩

/-- With its first character in front of a region and its other characters behind it, an opening delimiter forms
again. -/
theorem regions_reopened (hopening : opening = ch :: w) (hdiffer : ¬∀ d ∈ w, d = ch) :
    Regions opening closing (ch :: (opening ++ (closing ++ (w ++ closing)))) [([ch], [])] (w ++ closing) := by
  have hopen : FirstCut opening (ch :: (opening ++ (closing ++ (w ++ closing)))) [ch]
      (closing ++ (w ++ closing)) := by
    refine ⟨rfl, fun b a hb => ?_⟩
    cases b with
    | nil =>
        refine absurd (forall_eq_of_prefix_cons (u := closing ++ (w ++ closing)) ?_) hdiffer
        rw [hopening, List.nil_append] at hb
        exact ⟨a, (List.cons.inj hb).2.symm⟩
    | cons d b => simp
  refine .region hopen (firstCut_here (List.prefix_append _ _)) ?_
  rw [List.drop_left]
  refine .done ?_
  rintro ⟨a, b, c, h⟩
  have hlen := congrArg List.length h
  simp only [hopening, List.length_append, List.length_cons] at hlen
  omega

/-- Whether regions can be left is up to the opening delimiter alone. -/
theorem residues_regionless_iff (hopening : opening ≠ []) :
    (∀ t parts last, Regions opening closing t parts last → ¬HasRegion opening closing (residue parts last)) ↔
      ∀ a ∈ opening, ∀ b ∈ opening, a = b := by
  obtain ⟨ch, w, hcons⟩ := List.exists_cons_of_ne_nil hopening
  constructor
  · intro hnone
    have hsame : ∀ d ∈ w, d = ch := by
      by_contra hdiffer
      refine hnone _ _ _ (regions_reopened hcons hdiffer) ⟨[], [], [], ?_⟩
      simp [hcons]
    have hall : ∀ d ∈ opening, d = ch := by simpa [hcons] using hsame
    exact fun a ha b hb => (hall a ha).trans (hall b hb).symm
  · rintro hall t parts last h ⟨a, b, c, hleft⟩
    have hsame : ∀ d ∈ opening, d = ch := fun d hd => hall d hd ch (by simp [hcons])
    exact h.not_acrossSeam hsame (h.acrossSeam hopening hleft)

end Text

namespace Parser

open Text

variable {σ : Type} {opening closing : Text}

theorem notBetween_runs (hopening : opening ≠ []) (hclosing : closing ≠ []) :
    ∃ p : Parser σ, notBetween (.literal opening) (.literal closing) = .ok p ∧
      ∀ c parts last s, Regions opening closing c.rest parts last →
        (p.run c).run s = .ok (.success (.text (residue parts last)) c.toEnd) s := by
  rw [notBetween, notBetweenText, requireNonEmpty_ok hopening hclosing]
  refine ⟨_, rfl, fun c parts last s h => ?_⟩
  rw [residue, ← h.withoutSpans_eq hopening]
  rfl

/-- What is left when the regions are removed may have regions, but only such as open across a seam. It has none
exactly if removing regions again leaves it as it is, and that is so for every source exactly if the characters of
the opening delimiter are all the same. -/
theorem notBetween_leaves_no_region_iff (hopening : opening ≠ []) (hclosing : closing ≠ []) (s : σ) :
    ∃ p : Parser σ, notBetween (.literal opening) (.literal closing) = .ok p ∧
      (∀ c : Cursor, ∃ parts last, Regions opening closing c.rest parts last ∧
        (p.run c).run s = .ok (.success (.text (residue parts last)) c.toEnd) s ∧
        ∀ a b d, residue parts last = a ++ (opening ++ (b ++ (closing ++ d))) → AcrossSeam opening parts a) ∧
      (∀ v : Text, ¬HasRegion opening closing v ↔
        (p.run { source := v }).run s = .ok (.success (.text v) { source := v, pos := v.length }) s) ∧
      ((∀ c v d s', (p.run c).run s = .ok (.success (.text v) d) s' → ¬HasRegion opening closing v) ↔
        ∀ a ∈ opening, ∀ b ∈ opening, a = b) := by
  obtain ⟨p, hp, hrun⟩ := notBetween_runs (σ := σ) hopening hclosing
  have hrest : ∀ t : Text, Cursor.rest { source := t } = t := fun _ => Cursor.rest_of_nonneg (Int.le_refl 0)
  refine ⟨p, hp, fun c => ?_, fun v => ?_, ?_⟩
  · obtain ⟨parts, last, h⟩ := Regions.exists hopening closing c.rest
    exact ⟨parts, last, h, hrun c parts last s h, fun a b d => h.acrossSeam hopening⟩
  · obtain ⟨parts, last, h⟩ := Regions.exists hopening closing v
    rw [hrun { source := v } parts last s ((hrest v).symm ▸ h), ← h.residue_eq_self_iff hopening]
    simp [Cursor.toEnd]
  · rw [← residues_regionless_iff hopening]
    constructor
    · intro hnone t parts last h
      exact hnone _ _ _ _ (hrun { source := t } parts last s ((hrest t).symm ▸ h))
    · intro hnone c v d s' hv
      obtain ⟨parts, last, h⟩ := Regions.exists hopening closing c.rest
      cases (hrun c parts last s h).symm.trans hv
      exact hnone _ _ _ h

/-- With brackets that are doubled, nothing is left to remove, of no source. -/
theorem notBetween_leaves_no_region_doubled :
    ("[[" : Text) ≠ [] ∧ ("]]" : Text) ≠ [] ∧
      ∃ p : Parser Unit, notBetween (.literal "[[") (.literal "]]") = .ok p ∧
        (p.run { source := "a[[[b]][c]]" }).run () =
          .ok (.success (.text "a[c]]") { source := "a[[[b]][c]]", pos := 11 }) () ∧
        ¬HasRegion "[[" "]]" "a[c]]" := by
  have hopening : ("[[" : Text) ≠ [] := by decide
  have hclosing : ("]]" : Text) ≠ [] := by decide
  obtain ⟨p, hp, -, -, hnone⟩ := notBetween_leaves_no_region_iff hopening hclosing ()
  have hrun : (p.run { source := "a[[[b]][c]]" }).run () =
      .ok (.success (.text "a[c]]") { source := "a[[[b]][c]]", pos := 11 }) () := by
    cases hp
    rfl
  exact ⟨hopening, hclosing, p, hp, hrun, hnone.2 (by simp) _ _ _ _ hrun⟩

/-- Of `//* x */* y */` the comment `/* y */` is left. -/
theorem notBetween_leaves_comment :
    ∃ p : Parser Unit, notBetween (.literal "/*") (.literal "*/") = .ok p ∧
      (p.run { source := "//* x */* y */" }).run () =
        .ok (.success (.text "/* y */") { source := "//* x */* y */", pos := 14 }) () ∧
      HasRegion "/*" "*/" "/* y */" ∧
      (p.run { source := "/* y */" }).run () = .ok (.success (.text []) { source := "/* y */", pos := 7 }) () :=
  ⟨_, rfl, rfl, ⟨[], " y ", [], rfl⟩, rfl⟩

end Parser

end ParserAlgebra
