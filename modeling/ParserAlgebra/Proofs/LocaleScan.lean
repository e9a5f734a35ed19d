import ParserAlgebra.Locale
import ParserAlgebra.Proofs.Movement

/-!
# Scanning numbers of a locale
-/

namespace ParserAlgebra.NumberSymbols

open Cursor

/-! ## Where the scan leads -/

theorem digitNext_of_atEnd {c : Cursor} (hc : c.NotBefore) (h : c.atEnd) : digitNext c = false := by
  rw [digitNext, current_of_atEnd hc h]

theorem reaches_skipSymbol? {symbols : List Text} {c d : Cursor} (h : skipSymbol? symbols c = some d) :
    c.Reaches d := by
  obtain ⟨symbol, -, rfl⟩ := Option.map_eq_some_iff.1 h
  exact c.reaches_advance (by omega)

theorem reaches_skipGrouped (group : Text) (limit : Nat) (c : Cursor) :
    c.Reaches (skipGrouped group limit c) := by
  induction limit generalizing c with
  | zero => exact Reaches.refl c
  | succ limit ih =>
      rw [skipGrouped]
      split
      · exact (c.reaches_advance (by omega)).trans (ih _)
      · split
        · rename_i d hd
          split
          · exact (reaches_skipSymbol? hd).trans (ih d)
          · exact Reaches.refl c
        · exact Reaches.refl c

theorem reaches_skipFraction (decimal : Text) (c : Cursor) : c.Reaches (skipFraction decimal c) := by
  unfold skipFraction
  split
  · rename_i d hd
    split
    · exact (reaches_skipSymbol? hd).trans (reaches_skipGrouped [] d.remaining d)
    · exact Reaches.refl c
  · exact Reaches.refl c

theorem reaches_skipSign (s : NumberSymbols) (c : Cursor) : c.Reaches (s.skipSign c) := by
  unfold skipSign
  cases h : skipSymbol? [s.plus, s.minus, ['+'], ['-']] c with
  | none => exact Reaches.refl c
  | some d => exact reaches_skipSymbol? h

theorem reaches_skipDigits (s : NumberSymbols) (c : Cursor) : c.Reaches (s.skipDigits c) :=
  (reaches_skipGrouped s.group c.remaining c).trans (reaches_skipFraction s.decimal _)

/-! ## Why the scan ends -/

theorem remaining_advance_lt {c : Cursor} {n : Nat} (h : 0 < n) (hc : 0 < c.remaining) :
    (c.advance n).remaining < c.remaining := by
  simp only [remaining, advance] at hc ⊢
  omega

theorem remaining_pos_of_digitNext {c : Cursor} (hc : c.NotBefore) (h : digitNext c = true) :
    0 < c.remaining := by
  by_cases hend : c.atEnd
  · rw [digitNext_of_atEnd hc hend] at h
    cases h
  · rw [atEnd_iff] at hend
    simp only [remaining]
    omega

/-- A symbol that is not empty leaves less behind it. -/
theorem remaining_skipSymbol?_lt {symbols : List Text} {c d : Cursor} (hc : c.NotBefore)
    (h : skipSymbol? symbols c = some d) : d.remaining < c.remaining := by
  obtain ⟨symbol, hfind, rfl⟩ := Option.map_eq_some_iff.1 h
  have htest := List.find?_some hfind
  simp only [Bool.and_eq_true, Bool.not_eq_true', startsWith] at htest
  obtain ⟨hne, -, hprefix⟩ := htest
  have hlen := (List.isPrefixOf_iff_prefix.1 hprefix).length_le
  rw [length_rest hc] at hlen
  have hpos : 0 < symbol.length := List.length_pos_iff.2 (List.isEmpty_eq_false_iff.1 hne)
  exact remaining_advance_lt hpos (by omega)

theorem skipGrouped_at_end (group : Text) (limit : Nat) {c : Cursor} (hc : c.NotBefore)
    (h0 : c.remaining = 0) : skipGrouped group limit c = c := by
  cases limit with
  | zero => rfl
  | succ limit =>
      rw [skipGrouped]
      split
      · rename_i h
        have hpos := remaining_pos_of_digitNext hc h
        omega
      · cases hs : skipSymbol? [group] c with
        | none => rfl
        | some d =>
            have hlt := remaining_skipSymbol?_lt hc hs
            omega

/-- The scan of digits and separators ends for want of them, and not because of its limit. -/
theorem skipGrouped_limit (group : Text) {limit limit' : Nat} {c : Cursor} (hc : c.NotBefore)
    (hl : c.remaining ≤ limit) (hl' : c.remaining ≤ limit') :
    skipGrouped group limit c = skipGrouped group limit' c := by
  induction limit generalizing limit' c with
  | zero => rw [skipGrouped_at_end group _ hc (by omega), skipGrouped_at_end group _ hc (by omega)]
  | succ limit ih =>
      cases limit' with
      | zero => rw [skipGrouped_at_end group _ hc (by omega), skipGrouped_at_end group _ hc (by omega)]
      | succ limit' =>
          rw [skipGrouped, skipGrouped]
          split
          · rename_i h
            have hlt : (c.advance 1).remaining < c.remaining :=
              remaining_advance_lt (n := 1) (by omega) (remaining_pos_of_digitNext hc h)
            exact ih (onward_notBefore.reaches hc (c.reaches_advance (by omega))) (by omega) (by omega)
          · cases hs : skipSymbol? [group] c with
            | none => rfl
            | some d =>
                have hlt := remaining_skipSymbol?_lt hc hs
                have hd := onward_notBefore.reaches hc (reaches_skipSymbol? hs)
                have ih : skipGrouped group limit d = skipGrouped group limit' d :=
                  ih hd (by omega) (by omega)
                dsimp only
                rw [ih]

end ParserAlgebra.NumberSymbols
