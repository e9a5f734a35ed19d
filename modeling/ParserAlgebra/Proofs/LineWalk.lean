import Mathlib.Order.Interval.Finset.Nat
import ParserAlgebra.Proofs.LineReader

/-!
# Walking through lines
-/

namespace ParserAlgebra.Text

open LineReader

variable {t : Text} {start pos : Nat}

/-! ## Walks -/

/-- Whether the character in front of the position is a CR. -/
def behindReturn (t : Text) : Nat → Bool
  | 0 => false
  | i + 1 => t[i]? == some '\r'

/-- Whether the character at the position is a line break: a CR, or an LF that is not behind a CR. -/
def breaksAt (t : Text) (i : Nat) : Bool :=
  t[i]? == some '\r' || (t[i]? == some '\n' && !t.behindReturn i)

/-- Line and column behind the character at the position, from those in front of it. -/
def walkOne (t : Text) (place : Int × Int) (i : Nat) : Int × Int :=
  if t.breaksAt i then (place.1 + 1, 1)
  else if t[i]? = some '\n' then (place.1, 1)
  else (place.1, place.2 + 1)

/-- Line and column of `pos`, for a walk from line 1 and column 1 at `start`. -/
def walk (t : Text) (start pos : Nat) : Int × Int :=
  (List.range' start (pos - start)).foldl t.walkOne (1, 1)

@[simp] theorem behindReturn_zero (t : Text) : t.behindReturn 0 = false := rfl

@[simp] theorem behindReturn_succ (t : Text) (i : Nat) : t.behindReturn (i + 1) = (t[i]? == some '\r') := rfl

@[simp] theorem walk_self (t : Text) (start : Nat) : t.walk start start = (1, 1) := by
  simp [walk]

theorem walk_succ (t : Text) (h : start ≤ pos) :
    t.walk start (pos + 1) = t.walkOne (t.walk start pos) pos := by
  have hlen : pos + 1 - start = pos - start + 1 := by omega
  have hlast : start + (pos - start) = pos := by omega
  rw [walk, hlen, List.range'_1_concat, List.foldl_append, hlast]
  rfl

/-! ## What a reader finds on the way -/

theorem behindReturn_eq (t : Text) {i : Nat} (h : i ≤ t.length) :
    ((t.take i).getLast? == some '\r') = t.behindReturn i := by
  cases i with
  | zero => simp
  | succ i =>
      have hi : i < t.length := by omega
      simp [List.getLast?_take, List.getElem?_eq_getElem hi]

theorem next_eq_walkOne (t : Text) (place : Int × Int) {i : Nat} (h : i < t.length) :
    LineReader.next { line := place.1, column := place.2, behindReturn := t.behindReturn i } t[i] =
      { line := (t.walkOne place i).1, column := (t.walkOne place i).2,
        behindReturn := t.behindReturn (i + 1) } := by
  have hi := List.getElem?_eq_getElem h
  by_cases hr : t[i] = '\r'
  · simp [next, walkOne, breaksAt, hi, hr]
  · by_cases hn : t[i] = '\n'
    · cases hb : t.behindReturn i <;> simp [next, walkOne, breaksAt, hi, hn, hb]
    · simp [next, walkOne, breaksAt, hi, hr, hn]

/-- A range grows by the character at its end. -/
theorem range_succ (h : start ≤ pos) (hl : pos < t.length) :
    (t.take (pos + 1)).drop start = (t.take pos).drop start ++ [t[pos]] := by
  have hlen : start ≤ (t.take pos).length := by simp; omega
  rw [← List.take_concat_get' t pos hl, List.drop_append_of_le_length hlen]

theorem readAll_range (h : start ≤ pos) (hl : pos ≤ t.length) :
    (startingAt t start).readAll ((t.take pos).drop start) =
      { line := (t.walk start pos).1, column := (t.walk start pos).2, behindReturn := t.behindReturn pos } := by
  induction pos, h using Nat.le_induction with
  | base => simp [startingAt, behindReturn_eq t hl]
  | succ pos h ih =>
      rw [range_succ h hl, readAll_append, ih (by omega), readAll_cons, readAll_nil, next_eq_walkOne t _ hl,
        walk_succ t h]

theorem lineCol_eq_walk (h : start ≤ pos) (hl : pos ≤ t.length) : t.lineCol pos start = t.walk start pos := by
  rw [lineCol_eq_readAll t h hl, readAll_range h hl]

/-! ## Breaks on the way -/

theorem line_walk (h : start ≤ pos) :
    (t.walk start pos).1 = ((Finset.Ico start pos).filter (t.breaksAt ·)).card + 1 := by
  induction pos, h using Nat.le_induction with
  | base => simp
  | succ pos h ih =>
      have hline : (t.walkOne (t.walk start pos) pos).1 =
          (t.walk start pos).1 + if t.breaksAt pos then 1 else 0 := by
        unfold walkOne
        split
        · rfl
        · split <;> simp
      rw [walk_succ t h, hline, ih, Nat.Ico_succ_right_eq_insert_Ico h, Finset.filter_insert]
      split
      · rw [Finset.card_insert_of_notMem (by simp)]
        push_cast
        omega
      · omega

/-- What is past the end does not count. -/
theorem countBreaks_min (t : Text) (start : Int) (stop : Nat) :
    t.countBreaks start stop = t.countBreaks start (min stop t.length : Nat) := by
  simp only [countBreaks, slice, index_natCast]
  rw [List.take_eq_take_min]

/-- There is nothing in a reversed range. -/
theorem countBreaks_reversed (t : Text) {start stop : Nat} (h : stop < start) : t.countBreaks start stop = 0 := by
  have hpred : max ((start : Int) - 1) 0 = (start - 1 : Nat) := by omega
  have hrange : (t.take stop).drop start = [] := List.drop_eq_nil_of_le (by simp; omega)
  have hwindow : (t.take stop).drop (start - 1) = [] := List.drop_eq_nil_of_le (by simp; omega)
  simp [countBreaks, hpred, hrange, hwindow, countPairs]

theorem countBreaks_eq_card (t : Text) (start stop : Nat) :
    t.countBreaks start stop = ((Finset.Ico start (min stop t.length)).filter (t.breaksAt ·)).card := by
  rw [countBreaks_min]
  have hl : min stop t.length ≤ t.length := Nat.min_le_right _ _
  generalize min stop t.length = stop at hl
  by_cases h : start ≤ stop
  · have hline : t.countBreaks start stop + 1 = (t.walk start stop).1 := congrArg Prod.fst (lineCol_eq_walk h hl)
    rw [line_walk h] at hline
    omega
  · rw [countBreaks_reversed t (by omega), Finset.Ico_eq_empty_of_le (by omega)]
    rfl

/-! ## How far a walk comes -/

/-- A character moves either the line or the column, and by one. -/
theorem walk_bounded (t : Text) (h : start ≤ pos) :
    1 ≤ (t.walk start pos).1 ∧ 1 ≤ (t.walk start pos).2 ∧
      ((t.walk start pos).1 - 1) + ((t.walk start pos).2 - 1) ≤ pos - start := by
  induction pos, h using Nat.le_induction with
  | base => simp
  | succ pos h ih =>
      obtain ⟨hline, hcolumn, hle⟩ := ih
      rw [walk_succ t h]
      unfold walkOne
      push_cast
      split
      · dsimp only
        omega
      · split
        · dsimp only
          omega
        · dsimp only
          omega

theorem column_walk_behind_break {ch : Char} (h : start ≤ pos) (hch : t[pos]? = some ch) (hb : isBreak ch) :
    (t.walk start (pos + 1)).2 = 1 := by
  rw [walk_succ t h, walkOne]
  rcases (by simpa [isBreak] using hb : ch = '\n' ∨ ch = '\r') with rfl | rfl
  · split
    · rfl
    · rfl
  · have hbreaks : t.breaksAt pos = true := by simp [breaksAt, hch]
    rw [if_pos hbreaks]

theorem walk_unbroken (h : start ≤ pos) (hl : pos ≤ t.length)
    (hn : ((t.take pos).drop start).any isBreak = false) : t.walk start pos = (1, 1 + (pos - start : Int)) := by
  induction pos, h using Nat.le_induction with
  | base => simp
  | succ pos h ih =>
      rw [range_succ h hl, List.any_append, Bool.or_eq_false_iff] at hn
      obtain ⟨hrange, hlast⟩ := hn
      have hne : t[pos] ≠ '\n' ∧ t[pos] ≠ '\r' := by simpa [isBreak] using hlast
      have hbreaks : t.breaksAt pos = false := by
        simp [breaksAt, List.getElem?_eq_getElem (show pos < t.length from hl), hne]
      rw [walk_succ t h, ih (by omega) hrange, walkOne, if_neg (by simp [hbreaks]),
        if_neg (by simp [List.getElem?_eq_getElem (show pos < t.length from hl), hne])]
      push_cast
      congr 1
      omega

/-! ## The result -/

/-- Line and column of a position are those that a walk comes to, and the number of line breaks of a range,
which may be reversed or go past the end, is the number of positions in it that have one. -/
theorem counting_walks (t : Text) :
    (∀ start pos : Nat, start ≤ pos → pos ≤ t.length → t.lineCol pos start = t.walk start pos) ∧
    (∀ start stop : Nat,
      t.countBreaks start stop = ((Finset.Ico start (min stop t.length)).filter (t.breaksAt ·)).card) :=
  ⟨fun _ _ h hl => lineCol_eq_walk h hl, countBreaks_eq_card t⟩

/-- A walk through CR CR LF LF that begins at the first LF: this LF keeps the line, the next one does not. -/
theorem counting_walks_inside_pair :
    let t : Text := "\r\r\n\nx"
    t.lineCol 5 2 = t.walk 2 5 ∧ t.walk 2 5 = (2, 2) ∧ t.countBreaks 2 9 = 1 ∧ t.countBreaks 9 2 = 0 := by
  intro t
  obtain ⟨hplace, hcount⟩ := counting_walks t
  exact ⟨hplace 2 5 (by decide) (by decide), by decide, (hcount 2 9).trans (by decide),
    (hcount 9 2).trans (by decide)⟩

end ParserAlgebra.Text
