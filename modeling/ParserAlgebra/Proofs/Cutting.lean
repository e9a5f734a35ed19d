import ParserAlgebra.Parser.Region

/-!
# Cutting texts
-/

namespace ParserAlgebra.Text

/-- The parts of a cut and the mark between them make up the text. -/
theorem eq_of_cut? {mark t before after : Text} (h : cut? mark t = some (before, after)) :
    t = before ++ (mark ++ after) := by
  induction t generalizing before with
  | nil =>
      simp only [cut?, List.isEmpty_iff] at h
      split at h
      · rename_i hm
        cases h
        rw [hm]
        rfl
      · cases h
  | cons c t ih =>
      simp only [cut?] at h
      split at h
      · rename_i hp
        cases h
        obtain ⟨u, hu⟩ := List.isPrefixOf_iff_prefix.1 hp
        rw [← hu, List.drop_left, List.nil_append]
      · obtain ⟨⟨b, a⟩, hb, he⟩ := Option.map_eq_some_iff.1 h
        cases he
        rw [List.cons_append, ← ih hb]

theorem dropCopies_length_le (mark : Text) (limit : Nat) (t : Text) :
    (dropCopies mark limit t).length ≤ t.length := by
  induction limit generalizing t with
  | zero => exact Nat.le_refl _
  | succ limit ih =>
      rw [dropCopies]
      split
      · refine Nat.le_trans (ih _) ?_
        rw [List.length_drop]
        omega
      · exact Nat.le_refl _

theorem cut?_length_le {mark t before after : Text} (h : cut? mark t = some (before, after)) :
    after.length ≤ t.length := by
  rw [eq_of_cut? h, List.length_append, List.length_append]
  omega

/-- What follows a region is not longer than the text. -/
theorem span?_length_le {t opening closing : Text} {s : Span} (h : t.span? opening closing = some s) :
    s.after.length ≤ t.length := by
  obtain ⟨⟨before, u⟩, hu, h⟩ := Option.bind_eq_some_iff.1 h
  obtain ⟨⟨inner, after⟩, ha, h⟩ := Option.bind_eq_some_iff.1 h
  cases h
  exact Nat.le_trans (cut?_length_le ha) (cut?_length_le hu)

theorem spanAbsorbing?_length_le {t opening closing : Text} {s : Span}
    (h : t.spanAbsorbing? opening closing = some s) : s.after.length ≤ t.length := by
  obtain ⟨⟨before, u⟩, hu, h⟩ := Option.bind_eq_some_iff.1 h
  obtain ⟨⟨inner, after⟩, ha, h⟩ := Option.bind_eq_some_iff.1 h
  cases h
  exact Nat.le_trans (cut?_length_le ha)
    (Nat.le_trans (dropCopies_length_le opening u.length u) (cut?_length_le hu))

/-! ## Limits -/

theorem dropCopies_nil {mark : Text} (hmark : mark ≠ []) (limit : Nat) : dropCopies mark limit [] = [] := by
  cases limit with
  | zero => rfl
  | succ limit =>
      cases mark with
      | nil => exact absurd rfl hmark
      | cons ch mark => rfl

/-- Copies of a text that is not empty run out before the limit is reached. -/
theorem dropCopies_limit {mark : Text} (hmark : mark ≠ []) {limit limit' : Nat} {t : Text}
    (hl : t.length ≤ limit) (hl' : t.length ≤ limit') :
    dropCopies mark limit t = dropCopies mark limit' t := by
  have hpos : 0 < mark.length := List.length_pos_iff.2 hmark
  induction limit generalizing limit' t with
  | zero =>
      cases List.length_eq_zero_iff.1 (Nat.le_zero.1 hl)
      rw [dropCopies_nil hmark, dropCopies_nil hmark]
  | succ limit ih =>
      cases limit' with
      | zero =>
          cases List.length_eq_zero_iff.1 (Nat.le_zero.1 hl')
          rw [dropCopies_nil hmark, dropCopies_nil hmark]
      | succ limit' =>
          rw [dropCopies, dropCopies]
          split
          · rename_i h
            have hlen := (List.isPrefixOf_iff_prefix.1 h).length_le
            have hdrop : (t.drop mark.length).length = t.length - mark.length := List.length_drop
            exact ih (by omega) (by omega)
          · rfl

theorem span?_length_lt {t opening closing : Text} (hopening : opening ≠ []) {s : Span}
    (h : t.span? opening closing = some s) : s.after.length < t.length := by
  have hpos : 0 < opening.length := List.length_pos_iff.2 hopening
  obtain ⟨⟨before, u⟩, hu, h⟩ := Option.bind_eq_some_iff.1 h
  obtain ⟨⟨inner, after⟩, ha, h⟩ := Option.bind_eq_some_iff.1 h
  cases h
  have hafter := cut?_length_le ha
  rw [eq_of_cut? hu, List.length_append, List.length_append]
  dsimp only
  omega

theorem removeSpans_nil {opening : Text} (hopening : opening ≠ []) (closing : Text) (limit : Nat) :
    removeSpans opening closing limit [] = [] := by
  cases limit with
  | zero => rfl
  | succ limit =>
      rw [removeSpans]
      cases hs : span? [] opening closing with
      | none => rfl
      | some s =>
          have hlt := span?_length_lt hopening hs
          cases hlt

/-- The regions of a text run out before the limit is reached. -/
theorem removeSpans_limit {opening : Text} (hopening : opening ≠ []) (closing : Text)
    {limit limit' : Nat} {t : Text} (hl : t.length ≤ limit) (hl' : t.length ≤ limit') :
    removeSpans opening closing limit t = removeSpans opening closing limit' t := by
  induction limit generalizing limit' t with
  | zero =>
      cases List.length_eq_zero_iff.1 (Nat.le_zero.1 hl)
      rw [removeSpans_nil hopening, removeSpans_nil hopening]
  | succ limit ih =>
      cases limit' with
      | zero =>
          cases List.length_eq_zero_iff.1 (Nat.le_zero.1 hl')
          rw [removeSpans_nil hopening, removeSpans_nil hopening]
      | succ limit' =>
          rw [removeSpans, removeSpans]
          cases hs : t.span? opening closing with
          | none => rfl
          | some s =>
              have hlt := span?_length_lt hopening hs
              have ih : removeSpans opening closing limit s.after = removeSpans opening closing limit' s.after :=
                ih (by omega) (by omega)
              dsimp only
              rw [ih]

end ParserAlgebra.Text
