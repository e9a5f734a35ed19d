import ParserAlgebra.Observer
import ParserAlgebra.Parser.Repetition

/-!
# Moving forward

A cursor past the end can stay or go back to the end, so `Cursor.distance` to the end, and not what remains, is what
every proper move makes smaller.
-/

namespace ParserAlgebra.Cursor

/-! ## Places ahead -/

/-- The cursor stands in the source or at its end. -/
def InSource (c : Cursor) : Prop :=
  0 ≤ c.pos ∧ c.pos ≤ c.source.length

/-- The cursor does not stand before the source. It may stand past the end. -/
def NotBefore (c : Cursor) : Prop :=
  0 ≤ c.pos

/-- `d` is where `c` is, or lies ahead of it in the source. -/
def Reaches (c d : Cursor) : Prop :=
  d.source = c.source ∧
    (d.pos = c.pos ∨ min c.pos c.source.length ≤ d.pos ∧ d.pos ≤ c.source.length)

/-- A set of cursors that moving forward does not leave. -/
structure Onward (D : Cursor → Prop) : Prop where
  notBefore : ∀ {c}, D c → c.NotBefore
  reaches : ∀ {c d}, D c → c.Reaches d → D d

theorem Reaches.refl (c : Cursor) : c.Reaches c :=
  ⟨rfl, Or.inl rfl⟩

theorem Reaches.trans {c d e : Cursor} (h : c.Reaches d) (h' : d.Reaches e) : c.Reaches e := by
  obtain ⟨hs, hp⟩ := h
  obtain ⟨hs', hp'⟩ := h'
  rw [hs] at hs' hp'
  refine ⟨hs', ?_⟩
  omega

theorem reaches_iff {c d : Cursor} (hc : c.InSource) :
    c.Reaches d ↔ d.source = c.source ∧ c.pos ≤ d.pos ∧ d.pos ≤ c.source.length := by
  obtain ⟨h0, h1⟩ := hc
  refine and_congr_right fun _ => ?_
  omega

theorem onward_inSource : Onward InSource where
  notBefore h := h.1
  reaches {c d} hc h := by
    obtain ⟨hs, hp, hl⟩ := (reaches_iff hc).1 h
    exact ⟨Int.le_trans hc.1 hp, by rw [hs]; exact hl⟩

theorem onward_notBefore : Onward NotBefore where
  notBefore h := h
  reaches {c d} hc h := by
    obtain ⟨hs, hp⟩ := h
    simp only [NotBefore] at hc ⊢
    omega

/-! ## Moves -/

theorem reaches_advance (c : Cursor) {n : Int} (h : 0 ≤ n) : c.Reaches (c.advance n) := by
  refine ⟨rfl, Or.inr ?_⟩
  simp only [advance]
  omega

theorem pos_lt_advance {c : Cursor} (hend : ¬c.atEnd) {n : Int} (h : 0 < n) : c.pos < (c.advance n).pos := by
  rw [atEnd_iff] at hend
  simp only [advance]
  omega

theorem reaches_goTo {c : Cursor} {pos : Int} (h : min c.pos c.source.length ≤ pos) :
    c.Reaches (c.goTo pos) := by
  refine ⟨rfl, Or.inr ?_⟩
  simp only [goTo]
  omega

theorem reaches_toEnd (c : Cursor) : c.Reaches c.toEnd := by
  refine ⟨rfl, Or.inr ?_⟩
  simp only [toEnd]
  omega

/-! ## The way to the end -/

/-- How far the cursor is from the end of the source, on either side of it. -/
def distance (c : Cursor) : Nat :=
  (c.source.length - c.pos).natAbs

theorem distance_le_reach (c : Cursor) : c.distance ≤ c.reach := by
  simp only [distance, reach]
  omega

/-- A move forward that leaves the place comes closer to the end. -/
theorem Reaches.distance_lt {c d : Cursor} (h : c.Reaches d) (hne : d.pos ≠ c.pos) :
    d.distance < c.distance := by
  obtain ⟨hs, hp⟩ := h
  simp only [distance, hs]
  omega

/-! ## The next character -/

/-- Before the end of the input there is a next character. -/
theorem current_of_not_atEnd {c : Cursor} (hc : c.NotBefore) (h : ¬c.atEnd) :
    ∃ ch t, c.rest = ch :: t ∧ c.current = .ok ch := by
  cases hr : c.rest with
  | nil =>
      have hl := length_rest hc
      rw [hr, List.length_nil, remaining] at hl
      rw [atEnd_iff] at h
      omega
  | cons ch t =>
      refine ⟨ch, t, rfl, ?_⟩
      rw [current, ahead_of_nonneg hc, hr]
      rfl

theorem rest_of_atEnd {c : Cursor} (hc : c.NotBefore) (h : c.atEnd) : c.rest = [] := by
  rw [atEnd_iff] at h
  rw [← List.length_eq_zero_iff, length_rest hc, remaining]
  omega

theorem current_of_atEnd {c : Cursor} (hc : c.NotBefore) (h : c.atEnd) :
    c.current = .error (.endOfInput c.pos) := by
  rw [current, ahead_of_nonneg hc, rest_of_atEnd hc h]
  rfl

theorem startsWith_eq_true_iff {c : Cursor} (hc : c.InSource) {t : Text} : c.startsWith t = true ↔ t <+: c.rest := by
  have hindex : c.source.index c.pos ≤ c.source.length := by
    rw [Text.index_of_nonneg _ hc.1]
    exact Int.toNat_le.2 hc.2
  simp [startsWith, hindex]

theorem startsWith_of_atEnd {c : Cursor} (hc : c.NotBefore) (h : c.atEnd) {t : Text} (ht : t ≠ []) :
    c.startsWith t = false := by
  obtain ⟨ch, t, rfl⟩ := List.exists_cons_of_ne_nil ht
  rw [startsWith, rest_of_atEnd hc h, List.isPrefixOf_cons_nil, Bool.and_false]

/-! ## The text between two cursors -/

@[simp] theorem since_self (c : Cursor) : c.since c = [] := by
  simp only [since, Text.slice, List.drop_eq_nil_iff, List.length_take]
  omega

/-- What lies between cursors of the same source is what lies on the two legs of the way. -/
theorem since_append {c d e : Cursor} (hc : c.InSource) (hd : c.Reaches d) (he : d.Reaches e) :
    d.since c ++ e.since d = e.since c := by
  have hdS := onward_inSource.reaches hc hd
  obtain ⟨hs, hp, hl⟩ := (reaches_iff hc).1 hd
  obtain ⟨hs', hp', hl'⟩ := (reaches_iff hdS).1 he
  obtain ⟨i, hi⟩ := Int.eq_ofNat_of_zero_le hc.1
  obtain ⟨j, hj⟩ := Int.eq_ofNat_of_zero_le hdS.1
  obtain ⟨k, hk⟩ := Int.eq_ofNat_of_zero_le (Int.le_trans hdS.1 hp')
  have hlen : i ≤ (c.source.take j).length := by
    rw [List.length_take]
    omega
  have htake : c.source.take j = (c.source.take k).take j := by
    rw [List.take_take, Nat.min_eq_left (by omega)]
  simp only [since, hs', hs, hi, hj, hk, Text.slice_natCast]
  rw [← List.drop_append_of_le_length hlen, htake, List.take_append_drop]

theorem sliceAhead_eq_take {c : Cursor} (hc : c.NotBefore) (n : Nat) : c.sliceAhead n = c.rest.take n := by
  obtain ⟨i, hi⟩ := Int.eq_ofNat_of_zero_le hc
  have hsum : (i : Int) + n = (i + n : Nat) := by omega
  rw [sliceAhead, rest_of_nonneg hc, hi, hsum, Text.slice_natCast, Int.toNat_natCast, List.take_drop]

/-- The text of a move is what came next. -/
theorem since_advance {c : Cursor} (hc : c.InSource) {n : Int} (h : 0 ≤ n) :
    (c.advance n).since c = c.sliceAhead n := by
  obtain ⟨i, hi⟩ := Int.eq_ofNat_of_zero_le hc.1
  obtain ⟨k, rfl⟩ := Int.eq_ofNat_of_zero_le h
  have hmin : min ((i : Int) + k) c.source.length = (min (i + k) c.source.length : Nat) := by omega
  have hsum : (i : Int) + k = (i + k : Nat) := by omega
  simp only [since, sliceAhead, advance, hi]
  rw [hmin, hsum, Text.slice_natCast, Text.slice_natCast, ← List.take_take, List.take_length]

end ParserAlgebra.Cursor

/-! ## The record of a match -/

namespace ParserAlgebra.Mark

open Cursor

/-- A match that began before the end of the input has a record if and only if it ended in the source. -/
theorem between_ok {c d : Cursor} (hc : c.NotBefore) (hd : d.NotBefore) (h : ¬c.atEnd)
    (hl : d.pos ≤ c.source.length) : ∃ mark, between c d = .ok mark := by
  rw [atEnd_iff] at h
  simp only [NotBefore] at hc hd
  unfold between
  dsimp only
  split
  · exact ⟨_, rfl⟩
  · have hlt : c.source.index (d.pos - 1) < c.source.length := by
      simp only [Text.index]
      split <;> omega
    have hat : c.source.at? (d.pos - 1) = some c.source[c.source.index (d.pos - 1)] := by
      rw [Text.at?, if_neg (by omega), List.getElem?_eq_getElem hlt]
    rw [hat]
    exact ⟨_, rfl⟩

theorem between_error {c d : Cursor} (h : ¬c.atEnd) (hl : c.source.length < d.pos) :
    between c d = .error .outsideSource := by
  rw [atEnd_iff] at h
  have hat : c.source.at? (d.pos - 1) = none := by
    rw [Text.at?, if_neg (by omega), Text.index_of_nonneg _ (by omega), List.getElem?_eq_none (by omega)]
  unfold between
  dsimp only
  rw [if_neg (by omega), hat]

end ParserAlgebra.Mark
