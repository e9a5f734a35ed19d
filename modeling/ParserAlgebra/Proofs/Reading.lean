import ParserAlgebra.Proofs.LocaleScan

/-!
# Reading character by character

Numbers and identifiers are measured on the remaining text. A reader that goes on by one character at a time, and
looks at the next one only after it has seen that the end is not reached, comes to the same places.
-/

namespace ParserAlgebra.Cursor

/-! ## Readers -/

/-- Whether a character comes next that passes the test. -/
def nextIs (test : Char → Bool) (c : Cursor) : Except Fault Bool := do
  if c.atEnd then return false
  return test (← c.current)

/-- Moves on by one character if it passes the test. -/
def skipOne (test : Char → Bool) (c : Cursor) : Except Fault Cursor := do
  if ← c.nextIs test then return c.advance 1 else return c

/-- Moves on while the next character passes the test. -/
def skipWhile (test : Char → Bool) : (limit : Nat) → Cursor → Except Fault Cursor
  | 0, _ => throw .endless
  | limit + 1, c => do
    if ← c.nextIs test then skipWhile test limit (c.advance 1) else return c

/-- Moves on behind the characters that pass the test, with a limit that is never reached. -/
def skipAll (test : Char → Bool) (c : Cursor) : Except Fault Cursor :=
  c.skipWhile test (c.remaining + 1)

/-- The cursor behind the digits and the decimal point. A point needs a digit on one of its sides. -/
def readMantissa (c : Cursor) : Except Fault (Option Cursor) := do
  let whole ← c.skipAll Unicode.isDecimal
  if ← whole.nextIs (· == '.') then
    let fraction ← (whole.advance 1).skipAll Unicode.isDecimal
    return if c.pos < whole.pos ∨ whole.pos + 1 < fraction.pos then some fraction else none
  else
    return if c.pos < whole.pos then some whole else none

/-- The cursor behind the exponent, the same cursor if its digits are missing. -/
def readExponent (c : Cursor) : Except Fault Cursor := do
  if ← c.nextIs (Alphabet.exponentMarks.contains ·) then
    let start ← (c.advance 1).skipOne (Alphabet.signs.contains ·)
    let stop ← start.skipAll Unicode.isDecimal
    return if start.pos < stop.pos then stop else c
  else return c

/-- The cursor behind the number that comes next. -/
def readNumber (c : Cursor) : Except Fault (Option Cursor) := do
  let start ← c.skipOne (Alphabet.signs.contains ·)
  match ← start.readMantissa with
  | some d => return some (← d.readExponent)
  | none => return none

/-- The cursor behind the identifier that comes next. -/
def readIdentifier (c : Cursor) : Except Fault (Option Cursor) := do
  if ← c.nextIs fun ch => Unicode.isLetter ch || ch == '_' then
    return some (← (c.advance 1).skipAll fun ch => Unicode.isAlphanumeric ch || ch == '_')
  else return none

/-! ## Moves in the source -/

theorem advance_zero {c : Cursor} (hc : c.InSource) : c.advance 0 = c := by
  obtain ⟨-, hl⟩ := hc
  cases c with
  | mk source pos =>
      simp only [advance, Int.add_zero, Cursor.mk.injEq, true_and]
      exact Int.min_eq_left hl

theorem advance_advance (c : Cursor) (m n : Nat) :
    (c.advance m).advance n = c.advance (m + n : Nat) := by
  simp only [advance, Cursor.mk.injEq, true_and]
  omega

theorem inSource_advance {c : Cursor} (hc : c.InSource) (n : Nat) : (c.advance n).InSource :=
  onward_inSource.reaches hc (c.reaches_advance (by omega))

/-- As long as there are characters, a move by `n` characters leads `n` places on. -/
theorem pos_advance {c : Cursor} (hc : c.InSource) {n : Nat} (hn : n ≤ c.rest.length) :
    (c.advance n).pos = c.pos + n := by
  rw [length_rest hc.1, remaining] at hn
  obtain ⟨h0, hl⟩ := hc
  simp only [advance]
  omega

theorem rest_advance_one {c : Cursor} (hc : c.NotBefore) {ch : Char} {t : Text} (hr : c.rest = ch :: t) :
    (c.advance (1 : Nat)).rest = t := by
  rw [rest_advance hc, hr, List.drop_one, List.tail_cons]

/-! ## What the readers find -/

theorem nextIs_eq {c : Cursor} (hc : c.NotBefore) (test : Char → Bool) :
    c.nextIs test = .ok (c.rest.head?.any test) := by
  by_cases hend : c.atEnd
  · rw [nextIs, if_pos hend, rest_of_atEnd hc hend]
    rfl
  · obtain ⟨ch, t, hr, hcur⟩ := current_of_not_atEnd hc hend
    rw [nextIs, if_neg hend, hcur, hr]
    rfl

theorem skipOne_eq {c : Cursor} (hc : c.InSource) (test : Char → Bool) :
    c.skipOne test = .ok (c.advance (if c.rest.head?.any test then 1 else 0 : Nat)) := by
  rw [skipOne, nextIs_eq hc.1]
  cases c.rest.head?.any test with
  | true => rfl
  | false => exact congrArg _ (advance_zero hc).symm

theorem skipWhile_eq {c : Cursor} (hc : c.InSource) (test : Char → Bool) {limit : Nat}
    (hl : c.remaining < limit) :
    c.skipWhile test limit = .ok (c.advance (c.rest.takeWhile test).length) := by
  induction limit generalizing c with
  | zero => cases hl
  | succ limit ih =>
      rw [skipWhile, nextIs_eq hc.1]
      cases hr : c.rest with
      | nil => exact congrArg _ (advance_zero hc).symm
      | cons ch t =>
          have hlen := length_rest hc.1
          rw [hr, List.length_cons] at hlen
          have hc' := inSource_advance hc 1
          have hrest := rest_advance_one hc.1 hr
          have hlen' := length_rest hc'.1
          rw [hrest] at hlen'
          by_cases htest : test ch = true
          · have ih := ih hc' (by omega)
            rw [hrest, advance_advance] at ih
            simp only [List.head?_cons, Option.any_some, htest, List.takeWhile_cons, if_true,
              List.length_cons]
            rw [Nat.add_comm]
            exact ih
          · simp only [List.head?_cons, Option.any_some, htest, List.takeWhile_cons]
            exact congrArg _ (advance_zero hc).symm

theorem skipAll_eq {c : Cursor} (hc : c.InSource) (test : Char → Bool) :
    c.skipAll test = .ok (c.advance (c.rest.takeWhile test).length) :=
  skipWhile_eq hc test (Nat.lt_succ_self _)

theorem skipAll_digits {c : Cursor} (hc : c.InSource) :
    c.skipAll Unicode.isDecimal = .ok (c.advance (Numeral.digitsLength c.rest)) :=
  skipAll_eq hc _

theorem skipOne_sign {c : Cursor} (hc : c.InSource) :
    c.skipOne (Alphabet.signs.contains ·) = .ok (c.advance (Numeral.signLength c.rest)) := by
  rw [skipOne_eq hc]
  cases c.rest with
  | nil => rfl
  | cons ch t => rfl

theorem digitsLength_le (t : Text) : Numeral.digitsLength t ≤ t.length :=
  (List.takeWhile_prefix _).length_le

theorem ok_bind {ε α β : Type} (a : α) (f : α → Except ε β) : (Except.ok a >>= f) = f a :=
  rfl

theorem cons_of_head?_any {t : Text} {test : Char → Bool} (h : t.head?.any test = true) :
    ∃ ch u, t = ch :: u ∧ test ch = true := by
  cases t with
  | nil => cases h
  | cons ch u => exact ⟨ch, u, rfl, h⟩

theorem mantissaLength?_point {t u : Text} (h : t.drop (Numeral.digitsLength t) = '.' :: u) :
    Numeral.mantissaLength? t =
      if Numeral.digitsLength t = 0 ∧ Numeral.digitsLength u = 0 then none
      else some (Numeral.digitsLength t + 1 + Numeral.digitsLength u) := by
  unfold Numeral.mantissaLength?
  dsimp only
  rw [h]
  rfl

theorem mantissaLength?_whole {t : Text}
    (h : (t.drop (Numeral.digitsLength t)).head?.any (· == '.') = false) :
    Numeral.mantissaLength? t =
      if Numeral.digitsLength t = 0 then none else some (Numeral.digitsLength t) := by
  unfold Numeral.mantissaLength?
  dsimp only
  split
  · rename_i u hu
    rw [hu] at h
    cases h
  · rfl

theorem readMantissa_eq {c : Cursor} (hc : c.InSource) :
    c.readMantissa = .ok ((Numeral.mantissaLength? c.rest).map fun n : Nat => c.advance n) := by
  have hn := digitsLength_le c.rest
  have hw := inSource_advance hc (Numeral.digitsLength c.rest)
  have hpos := pos_advance hc hn
  have hmoved : c.pos < (c.advance (Numeral.digitsLength c.rest)).pos ↔ Numeral.digitsLength c.rest ≠ 0 := by
    omega
  have hrest := rest_advance hc.1 (Numeral.digitsLength c.rest)
  rw [readMantissa, skipAll_digits hc, ok_bind, nextIs_eq hw.1, ok_bind, hrest]
  cases hnext : (c.rest.drop (Numeral.digitsLength c.rest)).head?.any (· == '.') with
  | false =>
      rw [mantissaLength?_whole hnext]
      simp only [Bool.false_eq_true, if_false, hmoved]
      by_cases h0 : Numeral.digitsLength c.rest = 0
      · rw [if_neg (not_not_intro h0), if_pos h0]
        rfl
      · rw [if_pos h0, if_neg h0]
        rfl
  | true =>
      obtain ⟨ch, u, hu, hch⟩ := cons_of_head?_any hnext
      rw [beq_iff_eq.1 hch] at hu
      rw [mantissaLength?_point hu]
      generalize Numeral.digitsLength c.rest = n at *
      have hlen : (c.rest.drop n).length = c.rest.length - n := List.length_drop
      have hone : (c.advance n).advance 1 = c.advance (n + 1 : Nat) := c.advance_advance n 1
      have hu' : (c.advance (n + 1 : Nat)).rest = u := by
        rw [rest_advance hc.1, ← List.tail_drop, hu, List.tail_cons]
      have hm := digitsLength_le u
      have hf := inSource_advance hc (n + 1)
      rw [hu, List.length_cons] at hlen
      simp only [if_true, hone, skipAll_digits hf, ok_bind, hu', advance_advance]
      generalize Numeral.digitsLength u = m at *
      have hpos' := pos_advance hc (n := n + 1 + m) (by omega)
      have hmoved' : (c.advance n).pos + 1 < (c.advance (n + 1 + m : Nat)).pos ↔ m ≠ 0 := by
        omega
      simp only [hmoved, hmoved']
      by_cases h0 : n = 0 ∧ m = 0
      · rw [if_neg (by omega), if_pos h0]
        rfl
      · rw [if_pos (by omega), if_neg h0]
        rfl

theorem signLength_le (t : Text) : Numeral.signLength t ≤ t.length := by
  cases t with
  | nil => exact Nat.le_refl 0
  | cons ch t =>
      rw [Numeral.signLength, List.length_cons]
      split <;> omega

theorem readExponent_eq {c : Cursor} (hc : c.InSource) :
    c.readExponent = .ok (c.advance (Numeral.exponentLength c.rest)) := by
  rw [readExponent, nextIs_eq hc.1, ok_bind]
  cases hr : c.rest with
  | nil => exact congrArg Except.ok (advance_zero hc).symm
  | cons ch t =>
      rw [List.head?_cons, Option.any_some, Numeral.exponentLength]
      by_cases hch : Alphabet.exponentMarks.contains ch = true
      · have hs := signLength_le t
        have hd := digitsLength_le (t.drop (Numeral.signLength t))
        rw [List.length_drop] at hd
        have hlen : c.rest.length = t.length + 1 := by rw [hr, List.length_cons]
        have h1 := inSource_advance hc 1
        have hrest := rest_advance_one hc.1 hr
        have hs' := inSource_advance hc (1 + Numeral.signLength t)
        have hrest' : (c.advance (1 + Numeral.signLength t : Nat)).rest = t.drop (Numeral.signLength t) := by
          rw [rest_advance hc.1, hr, Nat.add_comm, List.drop_succ_cons]
        have hsign := skipOne_sign h1
        rw [hrest, advance_advance] at hsign
        have hdigits := skipAll_digits hs'
        rw [hrest', advance_advance] at hdigits
        have hpos := pos_advance hc (n := 1 + Numeral.signLength t) (by omega)
        have hpos' := pos_advance hc
          (n := 1 + Numeral.signLength t + Numeral.digitsLength (t.drop (Numeral.signLength t))) (by omega)
        rw [if_pos hch]
        refine Eq.trans (congrArg (· >>= _) hsign) ?_
        rw [ok_bind, hdigits, ok_bind]
        by_cases h0 : Numeral.digitsLength (t.drop (Numeral.signLength t)) = 0
        · rw [if_neg (by omega), if_neg fun h => h.2 h0]
          exact congrArg Except.ok (advance_zero hc).symm
        · rw [if_pos (by omega), if_pos ⟨hch, h0⟩]
          rfl
      · rw [if_neg hch, if_neg fun h => hch h.1]
        exact congrArg Except.ok (advance_zero hc).symm

/-- The reader of numbers finds the longest numeral, from past the end too. -/
theorem readNumber_eq {c : Cursor} (hc : c.NotBefore) :
    c.readNumber = .ok ((Numeral.length? c.rest).map fun n : Nat => c.advance n) := by
  by_cases hend : c.atEnd
  · have hr := rest_of_atEnd hc hend
    have hd : c.skipAll Unicode.isDecimal = .ok c := by
      rw [skipAll, skipWhile, nextIs_eq hc, hr]
      rfl
    have hm : c.readMantissa = .ok none := by
      rw [readMantissa, hd, ok_bind, nextIs_eq hc, hr, ok_bind, if_neg nofun, if_neg (by omega)]
      rfl
    have hs : c.skipOne (Alphabet.signs.contains ·) = .ok c := by
      rw [skipOne, nextIs_eq hc, hr]
      rfl
    rw [readNumber, hs, ok_bind, hm, hr]
    rfl
  · have hin : c.InSource := by
      rw [atEnd_iff] at hend
      exact ⟨hc, by omega⟩
    have hs := inSource_advance hin (Numeral.signLength c.rest)
    rw [readNumber, skipOne_sign hin, ok_bind, readMantissa_eq hs, ok_bind, rest_advance hc, Numeral.length?]
    cases Numeral.mantissaLength? (c.rest.drop (Numeral.signLength c.rest)) with
    | none => rfl
    | some m =>
        have hm := inSource_advance hin (Numeral.signLength c.rest + m)
        simp only [Option.map_some, advance_advance]
        rw [readExponent_eq hm, ok_bind, rest_advance hc, advance_advance]
        rfl

theorem readIdentifier_eq {c : Cursor} (hc : c.NotBefore) :
    c.readIdentifier = .ok ((Parser.identifierLength? c.rest).map fun n : Nat => c.advance n) := by
  rw [readIdentifier, nextIs_eq hc, ok_bind]
  cases hr : c.rest with
  | nil => rfl
  | cons ch t =>
      have hin : c.InSource := by
        have hlen := length_rest hc
        rw [hr, List.length_cons, remaining] at hlen
        exact ⟨hc, by omega⟩
      have h1 := inSource_advance hin 1
      have hrest := rest_advance_one hc hr
      have hskip := skipAll_eq h1 fun ch => Unicode.isAlphanumeric ch || ch == '_'
      rw [hrest, advance_advance] at hskip
      rw [List.head?_cons, Option.any_some, Parser.identifierLength?]
      split
      · refine Eq.trans (congrArg (· >>= _) hskip) ?_
        rfl
      · rfl

end ParserAlgebra.Cursor

/-! ## Numbers of a locale -/

namespace ParserAlgebra.NumberSymbols

open Cursor

/-- A digit is looked for only before the end of the input. -/
theorem nextIs_isDecimal {c : Cursor} (hc : c.NotBefore) :
    c.nextIs Unicode.isDecimal = .ok (digitNext c) := by
  by_cases hend : c.atEnd
  · rw [nextIs, if_pos hend, digitNext, current_of_atEnd hc hend]
    rfl
  · obtain ⟨ch, t, -, hcur⟩ := current_of_not_atEnd hc hend
    rw [nextIs, if_neg hend, digitNext, hcur]
    rfl

end ParserAlgebra.NumberSymbols
