import Mathlib.Data.List.Induction
import ParserAlgebra.Text.Lines

/-!
# Reading lines from left to right

A reader that remembers no more than whether the last character was a CR knows line and column all the time.
-/

namespace ParserAlgebra

/-- What a reader knows on the way. -/
structure LineReader where
  line : Int := 1
  column : Int := 1
  /-- Whether the last character was a CR. -/
  behindReturn : Bool := false

namespace LineReader

variable (r : LineReader) (t u : Text)

def next (ch : Char) : LineReader :=
  if ch = '\r' then { line := r.line + 1, column := 1, behindReturn := true }
  else if ch = '\n' then { line := if r.behindReturn then r.line else r.line + 1 }
  else { r with column := r.column + 1, behindReturn := false }

def readAll : LineReader :=
  t.foldl next r

/-- A reader who begins at `start` and has seen the character in front. -/
def startingAt (start : Nat) : LineReader where
  behindReturn := (t.take start).getLast? == some '\r'

/-- The CR that an LF would complete. -/
def pending : Text :=
  if r.behindReturn then ['\r'] else []

@[simp] theorem readAll_nil : r.readAll [] = r := rfl

@[simp] theorem readAll_cons (ch : Char) : r.readAll (ch :: t) = (r.next ch).readAll t := rfl

@[simp] theorem readAll_append : r.readAll (t ++ u) = (r.readAll t).readAll u :=
  List.foldl_append

section Next

open Text

variable {r : LineReader} {c : Char}

theorem behindReturn_next (r : LineReader) (c : Char) : (r.next c).behindReturn = (c == '\r') := by
  by_cases hr : c = '\r'
  · simp [next, hr]
  · by_cases hn : c = '\n' <;> simp [next, hr, hn]

theorem next_unbroken (h : isBreak c = false) : r.next c = { line := r.line, column := r.column + 1 } := by
  have hne : c ≠ '\n' ∧ c ≠ '\r' := by simpa [isBreak] using h
  simp [next, hne]

theorem column_next_break (h : isBreak c) : (r.next c).column = 1 := by
  rcases (by simpa [isBreak] using h : c = '\n' ∨ c = '\r') with rfl | rfl <;> simp [next]

theorem line_next_break (h : isBreak c) (hr : r.behindReturn → c ≠ '\n') : (r.next c).line = r.line + 1 := by
  rcases (by simpa [isBreak] using h : c = '\n' ∨ c = '\r') with rfl | rfl
  · have hclear : r.behindReturn = false := by simpa using hr
    simp [next, hclear]
  · simp [next]

end Next

end LineReader

namespace Text

/-! ## Counting pairs -/

theorem countPairs_cons {c : Char} (h : c ≠ '\r') (t : Text) : countPairs (c :: t) = countPairs t := by
  simp [countPairs, h]

/-! ## The last line -/

/-- The number of characters behind the last line break. -/
def tailLength (t : Text) : Nat :=
  (t.reverse.takeWhile (!isBreak ·)).length

theorem tailLength_append_singleton (t : Text) (c : Char) :
    tailLength (t ++ [c]) = if isBreak c then 0 else tailLength t + 1 := by
  cases h : isBreak c <;> simp [tailLength, h]

theorem tailLength_le (t : Text) : tailLength t ≤ t.length := by
  simpa [tailLength] using (List.takeWhile_prefix (l := t.reverse) (!isBreak ·)).length_le

end Text

/-! ## What a reader adds -/

namespace LineReader

open Text

theorem line_readAll (r : LineReader) (t : Text) :
    (r.readAll t).line = r.line + t.count '\n' + t.count '\r' - countPairs (r.pending ++ t) := by
  induction t generalizing r with
  | nil => cases h : r.behindReturn <;> simp [pending, h, countPairs]
  | cons c t ih =>
      rw [readAll_cons, ih]
      by_cases hr : c = '\r'
      · subst hr
        cases h : r.behindReturn <;> simp [next, pending, h, countPairs] <;> omega
      · by_cases hn : c = '\n'
        · subst hn
          cases h : r.behindReturn <;> simp [next, pending, h, countPairs] <;> omega
        · cases h : r.behindReturn <;> simp [next, pending, h, countPairs, hr, hn]

theorem column_readAll (r : LineReader) (t : Text) :
    (r.readAll t).column = if t.any isBreak then (tailLength t : Int) + 1 else r.column + t.length := by
  induction t using List.reverseRecOn with
  | nil => simp
  | append_singleton t c ih =>
      simp only [readAll_append, readAll_cons, readAll_nil, tailLength_append_singleton]
      cases hc : isBreak c with
      | true => simp [column_next_break hc, hc]
      | false =>
          rw [next_unbroken hc]
          simp only [ih]
          cases h : t.any isBreak
          · simp [h, hc]
            omega
          · simp [h, hc]

theorem behindReturn_readAll (r : LineReader) {t : Text} (h : t ≠ []) :
    (r.readAll t).behindReturn = (t.getLast? == some '\r') := by
  obtain ⟨u, c, rfl⟩ := List.eq_nil_or_concat t |>.resolve_left h
  simp [behindReturn_next]

/-- Readers with the same memory see the same lines. -/
theorem line_readAll_sub (r r' : LineReader) (h : r.behindReturn = r'.behindReturn) (t : Text) :
    (r.readAll t).line - r.line = (r'.readAll t).line - r'.line := by
  simp only [line_readAll, pending, h]
  omega

end LineReader

/-! ## Counting in a range -/

namespace Text

open LineReader

theorem countPairs_range (t : Text) {start pos : Nat} (h : start ≤ pos) (hl : pos ≤ t.length) :
    countPairs (t.slice (max ((start : Int) - 1) 0) pos) =
      countPairs ((startingAt t start).pending ++ (t.take pos).drop start) := by
  cases start with
  | zero =>
      have hmax : max (((0 : Nat) : Int) - 1) 0 = (0 : Nat) := rfl
      rw [hmax, slice_natCast]
      simp [startingAt, pending]
  | succ n =>
      have hn : n < (t.take pos).length := by simp; omega
      have hmax : max (((n + 1 : Nat) : Int) - 1) 0 = (n : Nat) := by omega
      have hlast : (t.take (n + 1)).getLast? = some t[n] := by
        simp [List.getLast?_take, List.getElem?_eq_getElem (show n < t.length by omega)]
      rw [hmax, slice_natCast, List.drop_eq_getElem_cons hn, List.getElem_take]
      by_cases hr : t[n] = '\r'
      · simp [startingAt, pending, hlast, hr]
      · simp [startingAt, pending, hlast, hr, countPairs_cons]

/-- Counting in a range of the text finds what a reader of the range finds. -/
theorem lineCol_eq_readAll (t : Text) {start pos : Nat} (h : start ≤ pos) (hl : pos ≤ t.length) :
    t.lineCol pos start =
      (((startingAt t start).readAll ((t.take pos).drop start)).line,
        ((startingAt t start).readAll ((t.take pos).drop start)).column) := by
  have hlen : ((t.take pos).drop start).length = pos - start := by simp; omega
  have htail := tailLength_le ((t.take pos).drop start)
  refine Prod.ext ?line ?column
  case line =>
    simp only [lineCol, countBreaks, line_readAll, countPairs_range t h hl, slice_natCast]
    simp only [startingAt]
    omega
  case column =>
    simp only [lineCol, lineStart, column_readAll, slice_natCast, index_natCast]
    split
    · simp only [tailLength] at htail ⊢
      omega
    · simp only [startingAt]
      omega

/-! ## Ranges that abut -/

theorem behindReturn_startingAt (t : Text) (start : Nat) :
    ((startingAt t 0).readAll (t.take start)).behindReturn = (startingAt t start).behindReturn := by
  by_cases h : t.take start = []
  · simp [startingAt, h]
  · rw [behindReturn_readAll _ h]
    rfl

variable {t : Text} {start pos : Nat}

/-- A reader of the beginning goes on as one who begins at `start`. -/
theorem readAll_take (h : start ≤ pos) :
    (startingAt t 0).readAll (t.take pos) =
      ((startingAt t 0).readAll (t.take start)).readAll ((t.take pos).drop start) := by
  have hsplit : t.take pos = t.take start ++ (t.take pos).drop start := by
    have htake : (t.take pos).take start = t.take start := by rw [List.take_take, Nat.min_eq_left h]
    rw [← htake, List.take_append_drop]
  rw [← readAll_append, ← hsplit]

/-- Lines counted from `start` on are added to those in front of it. -/
theorem line_add (h : start ≤ pos) (hl : pos ≤ t.length) :
    (t.lineCol pos 0).1 = (t.lineCol start 0).1 + (t.lineCol pos start).1 - 1 := by
  have hpos := lineCol_eq_readAll t (Nat.zero_le pos) hl
  have hstart := lineCol_eq_readAll t (Nat.zero_le start) (Nat.le_trans h hl)
  have hsub := line_readAll_sub _ _ (behindReturn_startingAt t start) ((t.take pos).drop start)
  rw [List.drop_zero] at hpos hstart
  rw [← readAll_take h] at hsub
  simp only [Int.natCast_zero] at hpos hstart
  rw [hpos, hstart, lineCol_eq_readAll t h hl]
  simp only [startingAt] at hsub ⊢
  omega

/-- A column is counted from the last break, wherever the counting began. -/
theorem column_add (h : start ≤ pos) (hl : pos ≤ t.length) :
    (t.lineCol pos 0).2 =
      if (t.slice start pos).any isBreak then (t.lineCol pos start).2
      else (t.lineCol start 0).2 + (pos - start) := by
  have hpos := lineCol_eq_readAll t (Nat.zero_le pos) hl
  have hstart := lineCol_eq_readAll t (Nat.zero_le start) (Nat.le_trans h hl)
  rw [List.drop_zero] at hpos hstart
  simp only [Int.natCast_zero] at hpos hstart
  have hlen : ((t.take pos).drop start).length = pos - start := by simp; omega
  rw [hpos, hstart, lineCol_eq_readAll t h hl, readAll_take h, slice_natCast]
  rw [column_readAll _ ((t.take pos).drop start), column_readAll (startingAt t start)]
  split
  · rfl
  · rw [hlen]
    omega

end Text

end ParserAlgebra
