import Mathlib.Data.Nat.Find
import ParserAlgebra.Proofs.Cutting

/-!
# Occurrences
-/

namespace ParserAlgebra.Text

variable {mark t before after opening closing : Text}

/-! ## The first occurrence -/

/-- The first occurrence of `mark` in `t` stands between `before` and `after`. -/
structure FirstCut (mark t before after : Text) : Prop where
  eq : t = before ++ (mark ++ after)
  first : ∀ b a, t = b ++ (mark ++ a) → before.length ≤ b.length

theorem FirstCut.unique {before' after' : Text} (h : FirstCut mark t before after)
    (h' : FirstCut mark t before' after') : before' = before ∧ after' = after := by
  have hlen : before'.length = before.length := Nat.le_antisymm (h'.first _ _ h.eq) (h.first _ _ h'.eq)
  obtain ⟨hbefore, hafter⟩ := List.append_inj (h'.eq.symm.trans h.eq) hlen
  exact ⟨hbefore, List.append_cancel_left hafter⟩

theorem firstCut_here (h : mark <+: t) : FirstCut mark t [] (t.drop mark.length) where
  eq := (List.prefix_iff_eq_append.1 h).symm
  first _ _ _ := Nat.zero_le _

theorem FirstCut.cons {c : Char} (hc : ¬mark <+: c :: t) (h : FirstCut mark t before after) :
    FirstCut mark (c :: t) (c :: before) after where
  eq := congrArg (c :: ·) h.eq
  first b a hb := by
    cases b with
    | nil => exact absurd ⟨a, hb.symm⟩ hc
    | cons d b => exact Nat.succ_le_succ (h.first b a (List.cons.inj hb).2)

theorem firstCut_of_cut? (h : cut? mark t = some (before, after)) : FirstCut mark t before after := by
  induction t generalizing before with
  | nil =>
      simp only [cut?, List.isEmpty_iff] at h
      split at h
      · rename_i hmark
        cases h
        subst hmark
        exact firstCut_here (List.prefix_refl [])
      · cases h
  | cons c t ih =>
      simp only [cut?, List.isPrefixOf_iff_prefix] at h
      split at h
      · rename_i hc
        cases h
        exact firstCut_here hc
      · rename_i hc
        obtain ⟨⟨b, a⟩, hb, he⟩ := Option.map_eq_some_iff.1 h
        cases he
        exact (ih hb).cons hc

theorem not_infix_of_cut? (h : cut? mark t = none) : ¬mark <:+: t := by
  induction t with
  | nil =>
      simp only [cut?, List.isEmpty_iff, ite_eq_right_iff, reduceCtorEq, imp_false] at h
      simpa using h
  | cons c t ih =>
      simp only [cut?, List.isPrefixOf_iff_prefix] at h
      split at h
      · cases h
      · rename_i hc
        rw [List.infix_cons_iff, not_or]
        exact ⟨hc, ih (Option.map_eq_none_iff.1 h)⟩

theorem FirstCut.isInfix (h : FirstCut mark t before after) : mark <:+: t :=
  ⟨before, after, by rw [h.eq, List.append_assoc]⟩

theorem cut?_eq_some_iff : cut? mark t = some (before, after) ↔ FirstCut mark t before after := by
  refine ⟨firstCut_of_cut?, fun h => ?_⟩
  cases hcut : cut? mark t with
  | none => exact absurd h.isInfix (not_infix_of_cut? hcut)
  | some parts =>
      obtain ⟨hbefore, hafter⟩ := h.unique (firstCut_of_cut? hcut)
      rw [← hbefore, ← hafter]

theorem cut?_eq_none_iff : cut? mark t = none ↔ ¬mark <:+: t := by
  refine ⟨not_infix_of_cut?, fun h => ?_⟩
  cases hcut : cut? mark t with
  | none => rfl
  | some parts => exact absurd (firstCut_of_cut? hcut).isInfix h

theorem exists_firstCut (h : mark <:+: t) : ∃ before after, FirstCut mark t before after := by
  cases hcut : cut? mark t with
  | none => exact absurd h (not_infix_of_cut? hcut)
  | some parts => exact ⟨parts.1, parts.2, firstCut_of_cut? hcut⟩

/-! ## The first region -/

/-- Somewhere in the text is an opening delimiter, and a closing one behind it. -/
def HasRegion (opening closing t : Text) : Prop :=
  ∃ a b c, t = a ++ (opening ++ (b ++ (closing ++ c)))

theorem span?_eq_some_iff {s : Span} : t.span? opening closing = some s ↔
    ∃ u, FirstCut opening t s.before u ∧ FirstCut closing u s.inner s.after := by
  simp only [span?, Option.bind_eq_bind, Option.bind_eq_some_iff, Prod.exists, cut?_eq_some_iff]
  constructor
  · rintro ⟨before, u, hu, inner, after, ha, hs⟩
    cases hs
    exact ⟨u, hu, ha⟩
  · rintro ⟨u, hu, ha⟩
    exact ⟨_, u, hu, _, _, ha, rfl⟩

theorem FirstCut.hasRegion {u inner : Text} (h : FirstCut opening t before u) (h' : FirstCut closing u inner after) :
    HasRegion opening closing t :=
  ⟨before, inner, after, by rw [h.eq, h'.eq]⟩

theorem HasRegion.isInfix (h : HasRegion opening closing t) : opening <:+: t := by
  obtain ⟨a, b, c, rfl⟩ := h
  exact ⟨a, b ++ (closing ++ c), List.append_assoc ..⟩

/-- If any opening delimiter has a closing one behind it, then the first has. -/
theorem FirstCut.isInfix_of_hasRegion {u : Text} (h : FirstCut opening t before u)
    (hregion : HasRegion opening closing t) : closing <:+: u := by
  obtain ⟨a, b, c, hregion⟩ := hregion
  have hle := h.first _ _ hregion
  have hlen := congrArg List.length (h.eq.symm.trans hregion)
  simp only [List.length_append] at hlen
  have hu : u <:+ t := ⟨before ++ opening, by rw [h.eq, List.append_assoc]⟩
  have hrest : b ++ (closing ++ c) <:+ t := ⟨a ++ opening, by rw [hregion, List.append_assoc]⟩
  -- The first opening delimiter leaves the longer rest.
  have hsuffix : b ++ (closing ++ c) <:+ u :=
    List.suffix_of_suffix_length_le hrest hu (by simp only [List.length_append]; omega)
  exact List.IsInfix.trans ⟨b, c, List.append_assoc ..⟩ hsuffix.isInfix

theorem span?_eq_none_iff : t.span? opening closing = none ↔ ¬HasRegion opening closing t := by
  constructor
  · intro h hregion
    obtain ⟨before, u, hu⟩ := exists_firstCut hregion.isInfix
    obtain ⟨inner, after, ha⟩ := exists_firstCut (hu.isInfix_of_hasRegion hregion)
    have hs : t.span? opening closing = some { before, inner, after } := span?_eq_some_iff.2 ⟨u, hu, ha⟩
    rw [h] at hs
    cases hs
  · intro h
    cases hs : t.span? opening closing with
    | none => rfl
    | some s =>
        obtain ⟨u, hu, ha⟩ := span?_eq_some_iff.1 hs
        exact absurd (hu.hasRegion ha) h

/-! ## Occurrences by their place -/

variable {i start stop : Nat}

def OccursAt (mark t : Text) (i : Nat) : Prop :=
  mark <+: t.drop i

instance : DecidablePred (OccursAt mark t) :=
  fun i => inferInstanceAs (Decidable (mark <+: t.drop i))

/-- The first of the places from `start` on where `mark` occurs. -/
structure FirstFrom (mark t : Text) (start i : Nat) : Prop where
  le : start ≤ i
  occurs : OccursAt mark t i
  first : ∀ k, start ≤ k → k < i → ¬OccursAt mark t k

theorem OccursAt.add_length_le (h : OccursAt mark t i) (hmark : mark ≠ []) : i + mark.length ≤ t.length := by
  have hpos : 0 < mark.length := List.length_pos_iff.2 hmark
  have hle := h.length_le
  rw [List.length_drop] at hle
  omega

theorem exists_firstFrom (h : ∃ i, start ≤ i ∧ OccursAt mark t i) : ∃ i, FirstFrom mark t start i :=
  ⟨Nat.find h, (Nat.find_spec h).1, (Nat.find_spec h).2, fun _ hle hlt hk => Nat.find_min h hlt ⟨hle, hk⟩⟩

theorem occursAt_of_drop {b a : Text} (h : t.drop start = b ++ (mark ++ a)) : OccursAt mark t (start + b.length) := by
  rw [OccursAt, ← List.drop_drop, h, List.drop_left]
  exact List.prefix_append mark a

theorem FirstFrom.firstCut (h : FirstFrom mark t start i) :
    FirstCut mark (t.drop start) (t.slice start i) (t.drop (i + mark.length)) where
  eq := by
    have hle := h.le
    have hoccurs : t.drop i = mark ++ t.drop (i + mark.length) := by
      rw [← List.drop_drop]
      exact (List.prefix_iff_eq_append.1 h.occurs).symm
    have hslice : t.slice start i = (t.drop start).take (i - start) := by
      rw [slice_natCast, List.take_drop, Nat.add_sub_cancel' hle]
    have hdrop : (t.drop start).drop (i - start) = t.drop i := by
      rw [List.drop_drop, Nat.add_sub_cancel' hle]
    rw [hslice, ← hoccurs, ← hdrop, List.take_append_drop]
  first b a hb := by
    have hnot : ¬start + b.length < i := fun hlt =>
      h.first _ (Nat.le_add_right _ _) hlt (occursAt_of_drop hb)
    simp only [slice_natCast, List.length_drop, List.length_take]
    omega

theorem not_infix_drop (h : ∀ i, start ≤ i → ¬OccursAt mark t i) : ¬mark <:+: t.drop start := by
  rintro ⟨b, a, hb⟩
  rw [List.append_assoc] at hb
  exact h _ (Nat.le_add_right _ _) (occursAt_of_drop hb.symm)

/-- Copies of `mark` stand back to back from one place on up to the other, and no further one there. -/
inductive Copies (mark t : Text) : Nat → Nat → Prop
  | stop {i : Nat} : ¬OccursAt mark t i → Copies mark t i i
  | step {i stop : Nat} : OccursAt mark t i → Copies mark t (i + mark.length) stop → Copies mark t i stop

theorem Copies.exists (hmark : mark ≠ []) (t : Text) (i : Nat) : ∃ stop, Copies mark t i stop := by
  generalize hn : t.length - i = n
  induction n using Nat.strongRecOn generalizing i with
  | ind n ih =>
      by_cases hoccurs : OccursAt mark t i
      · have hle := hoccurs.add_length_le hmark
        have hpos : 0 < mark.length := List.length_pos_iff.2 hmark
        obtain ⟨stop, h⟩ := ih (t.length - (i + mark.length)) (by omega) (i + mark.length) rfl
        exact ⟨stop, .step hoccurs h⟩
      · exact ⟨i, .stop hoccurs⟩

theorem Copies.unique {stop' : Nat} (h : Copies mark t i stop) (h' : Copies mark t i stop') : stop' = stop := by
  induction h with
  | stop hno =>
      cases h' with
      | stop _ => rfl
      | step hoccurs _ => exact absurd hoccurs hno
  | step hoccurs _ ih =>
      cases h' with
      | stop hno => exact absurd hoccurs hno
      | step _ h' => exact ih h'

theorem Copies.le_length (h : Copies mark t i stop) (hmark : mark ≠ []) (hi : i ≤ t.length) : stop ≤ t.length := by
  induction h with
  | stop _ => exact hi
  | step hoccurs _ ih => exact ih (hoccurs.add_length_le hmark)

theorem Copies.dropCopies_eq (h : Copies mark t i stop) (hmark : mark ≠ []) {limit : Nat}
    (hlimit : t.length - i ≤ limit) : dropCopies mark limit (t.drop i) = t.drop stop := by
  induction h generalizing limit with
  | stop hno =>
      cases limit with
      | zero => rfl
      | succ limit =>
          rw [dropCopies, if_neg]
          exact fun h => hno (List.isPrefixOf_iff_prefix.1 h)
  | step hoccurs _ ih =>
      have hle := hoccurs.add_length_le hmark
      have hpos : 0 < mark.length := List.length_pos_iff.2 hmark
      obtain ⟨limit, rfl⟩ : ∃ k, limit = k + 1 := Nat.exists_eq_succ_of_ne_zero (by omega)
      rw [dropCopies, if_pos (List.isPrefixOf_iff_prefix.2 hoccurs), List.drop_drop]
      exact ih (by omega)

end ParserAlgebra.Text

namespace ParserAlgebra.Parser

theorem requireNonEmpty_ok {opening closing : Text} (hopening : opening ≠ []) (hclosing : closing ≠ [])
    (combinator : String) : requireNonEmpty combinator [opening, closing] = .ok () := by
  rw [requireNonEmpty, if_neg]
  simp [hopening, hclosing]

end ParserAlgebra.Parser
