import ParserAlgebra.Proofs.Absorption

/-!
# Regions by their places

The source is searched for the places where a region begins and ends, or what remains is cut there.
-/

namespace ParserAlgebra

open Text

variable {mark opening closing : Text}

namespace Text

/-- The place behind the copies of `mark` that stand back to back from `i` on, at most `limit` of them. -/
def skipCopies (mark t : Text) : (limit : Nat) → Nat → Nat
  | 0, i => i
  | limit + 1, i => if mark.isPrefixOf (t.drop i) then skipCopies mark t limit (i + mark.length) else i

/-- Copies of a text that is not empty run out before the limit is reached. -/
theorem Copies.skipCopies_eq {t : Text} {i stop limit : Nat} (h : Copies mark t i stop) (hmark : mark ≠ [])
    (hlimit : t.length - i ≤ limit) : skipCopies mark t limit i = stop := by
  induction h generalizing limit with
  | stop hno =>
      cases limit with
      | zero => rfl
      | succ limit =>
          rw [skipCopies, if_neg]
          exact fun h => hno (List.isPrefixOf_iff_prefix.1 h)
  | step hoccurs _ ih =>
      have hle := hoccurs.add_length_le hmark
      have hpos : 0 < mark.length := List.length_pos_iff.2 hmark
      obtain ⟨limit, rfl⟩ : ∃ k, limit = k + 1 := Nat.exists_eq_succ_of_ne_zero (by omega)
      rw [skipCopies, if_pos (List.isPrefixOf_iff_prefix.2 hoccurs)]
      exact ih (by omega)

/-- Dropping the copies from what is behind a place leaves what is behind the place they reach to. -/
theorem dropCopies_drop (hmark : mark ≠ []) (t : Text) (i : Nat) :
    dropCopies mark (t.drop i).length (t.drop i) = t.drop (skipCopies mark t t.length i) := by
  obtain ⟨stop, hcopies⟩ := Copies.exists hmark t i
  rw [hcopies.dropCopies_eq hmark (by rw [List.length_drop]), hcopies.skipCopies_eq hmark (by omega)]

end Text

namespace Cursor

/-! ## Two places of the source -/

/-- Where the text inside the first region begins and ends, with or without the immediate copies of the opening
delimiter absorbed. -/
def locate? (c : Cursor) (opening closing : Text) (absorbing : Bool) : Option (Nat × Nat) := do
  let start ← c.find? opening 0
  let behind := start + opening.length
  let inner := if absorbing then skipCopies opening c.source c.source.length behind else behind
  let stop ← (c.source.cursorAt inner).find? closing 0
  return (inner, stop)

theorem find?_eq (hmark : mark ≠ []) (c : Cursor) :
    c.find? mark 0 = (cut? mark c.rest).map fun parts => c.source.index c.pos + parts.1.length := by
  unfold find?
  rw [Int.add_zero]
  dsimp only
  split
  · rw [indexOf?, Option.map_map]
    rfl
  · rename_i hpast
    rw [rest, List.drop_eq_nil_of_le (Nat.le_of_not_le hpast)]
    simp [cut?, hmark]

/-- Finding a text in the source cuts what remains at its first occurrence. -/
theorem cut?_rest (hmark : mark ≠ []) (c : Cursor) :
    cut? mark c.rest =
      (c.find? mark 0).map fun i : Nat => (c.source.slice c.pos i, c.source.drop (i + mark.length)) := by
  rw [find?_eq hmark, Option.map_map]
  cases hcut : cut? mark c.rest with
  | none => rfl
  | some parts =>
      obtain ⟨before, after⟩ := parts
      have hrest : c.source.drop (c.source.index c.pos) = before ++ (mark ++ after) := eq_of_cut? hcut
      have hbefore : c.source.slice c.pos ((c.source.index c.pos + before.length : Nat)) = before := by
        rw [slice, index_natCast, List.drop_take, hrest, Nat.add_sub_cancel_left, List.take_left]
      have hafter : c.source.drop (c.source.index c.pos + before.length + mark.length) = after := by
        rw [← List.drop_drop, ← List.drop_drop, hrest, List.drop_left, List.drop_left]
      simp only [Option.map_some, Function.comp_apply, hbefore, hafter]

theorem span?_eq_locate? (hopening : opening ≠ []) (hclosing : closing ≠ []) (c : Cursor) :
    c.rest.span? opening closing = (c.locate? opening closing false).map fun place : Nat × Nat => {
      before := c.source.slice c.pos (place.1 - opening.length : Nat)
      inner := c.source.slice place.1 place.2
      after := c.source.drop (place.2 + closing.length) } := by
  rw [span?, locate?, cut?_rest hopening]
  cases c.find? opening 0 with
  | none => rfl
  | some start =>
      simp only [Option.map_some, Option.bind_eq_bind, Option.bind_some, Bool.false_eq_true, if_false]
      rw [← Parser.rest_cursorAt, cut?_rest hclosing]
      cases (c.source.cursorAt (start + opening.length)).find? closing 0 with
      | none => rfl
      | some stop =>
          simp only [Option.map_some, Option.bind_some, Option.pure_def, Nat.add_sub_cancel]

theorem spanAbsorbing?_eq_locate? (hopening : opening ≠ []) (hclosing : closing ≠ []) (c : Cursor) :
    (c.rest.spanAbsorbing? opening closing).map (fun s => (s.inner, s.after)) =
      (c.locate? opening closing true).map fun place : Nat × Nat =>
        (c.source.slice place.1 place.2, c.source.drop (place.2 + closing.length)) := by
  rw [spanAbsorbing?, locate?, cut?_rest hopening]
  cases c.find? opening 0 with
  | none => rfl
  | some start =>
      simp only [Option.map_some, Option.bind_eq_bind, Option.bind_some, if_true]
      rw [dropCopies_drop hopening]
      generalize skipCopies opening c.source c.source.length (start + opening.length) = inner
      rw [← Parser.rest_cursorAt, cut?_rest hclosing]
      cases (c.source.cursorAt inner).find? closing 0 with
      | none => rfl
      | some stop => rfl

/-- A region that is found lies in the source. -/
theorem locate?_le {absorbing : Bool} {inner stop : Nat} (hclosing : closing ≠ []) {c : Cursor}
    (h : c.locate? opening closing absorbing = some (inner, stop)) : inner ≤ stop ∧ stop ≤ c.source.length := by
  obtain ⟨start, -, h⟩ := Option.bind_eq_some_iff.1 h
  obtain ⟨stop', hstop, h⟩ := Option.bind_eq_some_iff.1 h
  cases h
  rw [find?_eq hclosing, Option.map_eq_some_iff] at hstop
  obtain ⟨⟨before, after⟩, hcut, rfl⟩ := hstop
  have hlen := congrArg List.length (eq_of_cut? hcut)
  have hpos : 0 < closing.length := List.length_pos_iff.2 hclosing
  rw [Parser.rest_cursorAt] at hlen
  simp only [index_natCast, List.length_drop, List.length_append] at hlen ⊢
  omega

theorem isEmpty_slice_locate? {absorbing : Bool} {inner stop : Nat} (hclosing : closing ≠ []) {c : Cursor}
    (h : c.locate? opening closing absorbing = some (inner, stop)) :
    (c.source.slice inner stop).isEmpty = true ↔ inner = stop := by
  have hle := locate?_le hclosing h
  rw [List.isEmpty_iff, ← List.length_eq_zero_iff, slice_natCast, List.length_drop, List.length_take]
  omega

theorem rest_goTo (c : Cursor) (i : Nat) : (c.goTo i).rest = c.source.drop i := by
  have hpos : 0 ≤ (c.goTo i).pos := by simp only [goTo]; omega
  rw [rest_of_nonneg hpos, goTo_source]
  rcases Nat.le_total i c.source.length with hle | hle
  · congr 1
    simp only [goTo]
    omega
  · rw [List.drop_eq_nil_of_le hle, List.drop_eq_nil_of_le (by simp only [goTo]; omega)]

end Cursor

namespace Parser

open Cursor

variable {σ : Type}

/-! ## The parsers by places -/

theorem behind_eq_goTo {c : Cursor} {s : Span} {i : Nat} (h : s.after = c.source.drop i) : behind c s = c.goTo i := by
  simp only [behind, goTo, h, List.length_drop, Cursor.mk.injEq, true_and]
  omega

/-- The region and the places are the same one: the texts inside are equal, and so is what is left. -/
def SameRegion (closing : Text) (c : Cursor) (region : Option Span) (place : Option (Nat × Nat)) : Prop :=
  region.map (fun s => (s.inner, s.after)) =
    place.map fun place => (c.source.slice place.1 place.2, c.source.drop (place.2 + closing.length))

theorem sameRegion_span? (hopening : opening ≠ []) (hclosing : closing ≠ []) (c : Cursor) :
    SameRegion closing c (c.rest.span? opening closing) (c.locate? opening closing false) := by
  rw [SameRegion, span?_eq_locate? hopening hclosing, Option.map_map]
  rfl

variable {c : Cursor} {region : Option Span} {place : Option (Nat × Nat)}

theorem SameRegion.outcome_eq (missed : Outcome) (found : Text → Cursor → Outcome) :
    SameRegion closing c region place →
    (match region with
      | some s => found s.inner (behind c s)
      | none => missed) =
    match place with
    | some (inner, stop) => found (c.source.slice inner stop) (c.goTo (stop + closing.length : Nat))
    | none => missed := by
  intro h
  cases place with
  | none =>
      cases Option.map_eq_none_iff.1 h
      rfl
  | some place =>
      obtain ⟨s, rfl, hs⟩ := Option.map_eq_some_iff.1 h
      obtain ⟨hinner, hafter⟩ := Prod.mk.inj hs
      simp only [hinner, behind_eq_goTo hafter]

/-- A region is refused for its text being empty where its places are the same. -/
theorem SameRegion.outcome_eq_of_refused {absorbing : Bool} (hclosing : closing ≠ [])
    (h : SameRegion closing c region (c.locate? opening closing absorbing)) (missed : Outcome)
    (found : Text → Cursor → Outcome) :
    (match region with
      | some s => if s.inner.isEmpty then missed else found s.inner (behind c s)
      | none => missed) =
    match c.locate? opening closing absorbing with
    | some (inner, stop) =>
      if inner = stop then missed else found (c.source.slice inner stop) (c.goTo (stop + closing.length : Nat))
    | none => missed := by
  rw [h.outcome_eq missed fun inner behind => if inner.isEmpty then missed else found inner behind]
  cases hplace : c.locate? opening closing absorbing with
  | none => rfl
  | some place => simp only [isEmpty_slice_locate? hclosing hplace]

theorem betweenText_by_places (hopening : opening ≠ []) (hclosing : closing ≠ []) :
    ∃ p : Parser σ, betweenText opening closing = .ok p ∧ ∀ c, p.run c = pure (
      match c.locate? opening closing false with
      | some (inner, stop) =>
        if inner = stop then noTextBetween c opening closing
        else .success (.text (c.source.slice inner stop)) (c.goTo (stop + closing.length : Nat))
      | none => noTextBetween c opening closing) := by
  rw [betweenText, requireNonEmpty_ok hopening hclosing]
  refine ⟨_, rfl, fun c => congrArg pure ?_⟩
  exact (sameRegion_span? hopening hclosing c).outcome_eq_of_refused hclosing _ fun inner d => .success (.text inner) d

theorem betweenStar_by_places (hopening : opening ≠ []) (hclosing : closing ≠ []) :
    ∃ p : Parser σ, betweenStar opening closing = .ok p ∧ ∀ c, p.run c = pure (
      match c.locate? opening closing true with
      | some (inner, stop) =>
        if inner = stop then noTextBetween c opening closing
        else .success (.text (c.source.slice inner stop)) (c.goTo (stop + closing.length : Nat))
      | none => noTextBetween c opening closing) := by
  rw [betweenStar, requireNonEmpty_ok hopening hclosing]
  refine ⟨_, rfl, fun c => congrArg pure ?_⟩
  have hsame : SameRegion closing c (c.rest.spanAbsorbing? opening closing) (c.locate? opening closing true) :=
    spanAbsorbing?_eq_locate? hopening hclosing c
  exact hsame.outcome_eq_of_refused hclosing _ fun inner d => .success (.text inner) d

theorem captureBetweenText_by_places (hopening : opening ≠ []) (hclosing : closing ≠ []) :
    ∃ p : Parser σ, captureBetweenText opening closing = .ok p ∧ ∀ c, p.run c = pure (
      match c.locate? opening closing false with
      | some (inner, stop) => .success (.text (c.source.slice inner stop)) (c.goTo (stop + closing.length : Nat))
      | none => .fail c (Wording.expectedRegion opening closing) [opening, closing]) := by
  rw [captureBetweenText, requireNonEmpty_ok hopening hclosing]
  refine ⟨_, rfl, fun c => congrArg pure ?_⟩
  exact (sameRegion_span? hopening hclosing c).outcome_eq _ fun inner d => .success (.text inner) d

theorem ignoreBetweenText_by_places (hopening : opening ≠ []) (hclosing : closing ≠ []) :
    ∃ p : Parser σ, ignoreBetweenText opening closing = .ok p ∧ ∀ c, p.run c = pure (
      match c.locate? opening closing false with
      | some (inner, stop) =>
        if inner = stop then noTextBetween c opening closing
        else .success .none (c.goTo (stop + closing.length : Nat))
      | none => noTextBetween c opening closing) := by
  rw [ignoreBetweenText, requireNonEmpty_ok hopening hclosing]
  refine ⟨_, rfl, fun c => congrArg pure ?_⟩
  exact (sameRegion_span? hopening hclosing c).outcome_eq_of_refused hclosing _ fun _ d => .success .none d

/-! ## What is left between the regions -/

/-- The pieces of the source from the cursor on, as far as they are outside the first `limit` regions. -/
def outside (opening closing : Text) : (limit : Nat) → Cursor → Text
  | 0, c => c.rest
  | limit + 1, c =>
    match c.locate? opening closing false with
    | some (inner, stop) =>
      c.source.slice c.pos (inner - opening.length : Nat) ++
        outside opening closing limit (c.goTo (stop + closing.length : Nat))
    | none => c.rest

theorem removeSpans_rest (hopening : opening ≠ []) (hclosing : closing ≠ []) (limit : Nat) (c : Cursor) :
    removeSpans opening closing limit c.rest = outside opening closing limit c := by
  induction limit generalizing c with
  | zero => rfl
  | succ limit ih =>
      rw [removeSpans, outside, span?_eq_locate? hopening hclosing]
      cases c.locate? opening closing false with
      | none => rfl
      | some place => simp only [Option.map_some, ← ih, rest_goTo]

theorem notBetweenText_by_places (hopening : opening ≠ []) (hclosing : closing ≠ []) :
    ∃ p : Parser σ, notBetweenText opening closing = .ok p ∧ ∀ c limit, c.rest.length ≤ limit →
      p.run c = pure (.success (.text (outside opening closing limit c)) c.toEnd) := by
  rw [notBetweenText, requireNonEmpty_ok hopening hclosing]
  refine ⟨_, rfl, fun c limit hlimit => ?_⟩
  rw [← removeSpans_rest hopening hclosing, removeSpans_limit hopening closing hlimit (Nat.le_refl _)]
  rfl

end Parser

end ParserAlgebra
