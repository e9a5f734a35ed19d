import Mathlib.Algebra.GroupWithZero.Nat
import Mathlib.Data.List.Sort
import ParserAlgebra.Outcome
import ParserAlgebra.Proofs.LineReader

/-!
# Counting lines and splitting them

Line and column are counted in a range of the text, the lines that a mismatch is shown with are split off. Both are
compared with the lines and their ends.
-/

namespace ParserAlgebra

namespace Text

/-! ## Lines with their ends -/

/-- The text is these lines, each followed by what ends it. Nothing ends the last line, and a CR in front of
an LF does not end a line without it. -/
inductive Lined : Text → List (Text × Text) → Prop
  | last {piece : Text} : piece.any isBreak = false → Lined piece [(piece, [])]
  | ended {piece e t : Text} {lines : List (Text × Text)} : piece.any isBreak = false →
      e = ['\r', '\n'] ∨ e = ['\r'] ∧ t.head? ≠ some '\n' ∨ e = ['\n'] → Lined t lines →
      Lined (piece ++ e ++ t) ((piece, e) :: lines)

/-- The lines of a text with their ends. -/
def endedLines : Text → List (Text × Text)
  | [] => [([], [])]
  | '\r' :: '\n' :: t => ([], ['\r', '\n']) :: endedLines t
  | c :: t =>
    if isBreak c then ([], [c]) :: endedLines t
    else (endedLines t).modifyHead fun line => (c :: line.1, line.2)

/-- How far the line number `k`, counted from 0, is from the beginning. -/
def lineOffset (t : Text) (k : Nat) : Nat :=
  ((t.endedLines.take k).map fun line => line.1.length + line.2.length).sum

theorem endedLines_ne_nil (t : Text) : t.endedLines ≠ [] := by
  fun_induction endedLines t <;> simp_all

theorem Lined.cons {c : Char} {t : Text} {lines : List (Text × Text)} (h : Lined t lines)
    (hc : isBreak c = false) : Lined (c :: t) (lines.modifyHead fun line => (c :: line.1, line.2)) := by
  cases h with
  | last hpiece => exact .last (by simp [hc, hpiece])
  | @ended piece e t lines hpiece he h =>
      exact @Lined.ended (c :: piece) e t lines (by simp [hc, hpiece]) he h

theorem lined_endedLines (t : Text) : Lined t t.endedLines := by
  fun_induction endedLines t with
  | case1 => exact .last rfl
  | case2 t ih => exact @Lined.ended [] _ t _ rfl (.inl rfl) ih
  | case3 c t hpair hc ih =>
      refine @Lined.ended [] [c] t _ rfl ?_ ih
      rcases (by simpa [isBreak] using hc : c = '\n' ∨ c = '\r') with rfl | rfl
      · simp
      · cases t <;> simp_all
  | case4 c t hpair hc ih => exact ih.cons (by simpa using hc)

theorem endedLines_unbroken_append {piece : Text} (h : piece.any isBreak = false) (t : Text) :
    endedLines (piece ++ t) = (endedLines t).modifyHead fun line => (piece ++ line.1, line.2) := by
  induction piece with
  | nil =>
      obtain ⟨line, lines, ht⟩ := List.exists_cons_of_ne_nil t.endedLines_ne_nil
      simp [ht]
  | cons c piece ih =>
      obtain ⟨hc, hpiece⟩ : isBreak c = false ∧ piece.any isBreak = false := by simpa using h
      have hpair : ∀ u, c = '\r' → piece ++ t = '\n' :: u → False := by
        rintro u rfl
        cases hc
      rw [List.cons_append, endedLines, if_neg (by simp [hc]), ih hpiece, List.modifyHead_modifyHead]
      · rfl
      · exact hpair

/-- There is one way to take a text apart into its lines. -/
theorem lined_iff {t : Text} {lines : List (Text × Text)} : t.Lined lines ↔ lines = t.endedLines := by
  refine ⟨fun h => ?_, fun h => h ▸ t.lined_endedLines⟩
  induction h with
  | last hpiece =>
      have happend := endedLines_unbroken_append hpiece []
      simpa [endedLines] using happend.symm
  | @ended piece e t lines hpiece he _ ih =>
      have hend : endedLines (e ++ t) = ([], e) :: endedLines t := by
        rcases he with rfl | ⟨rfl, hhead⟩ | rfl
        · rfl
        · cases t with
          | nil => rfl
          | cons c t =>
              have hc : c ≠ '\n' := by simpa using hhead
              simp [endedLines, hc, isBreak]
        · rfl
      rw [List.append_assoc, endedLines_unbroken_append hpiece, hend, ih]
      simp

theorem map_endedLines (t : Text) : t.endedLines.map (·.1) = t.splitLines := by
  fun_induction endedLines t with
  | case1 => rfl
  | case2 t ih => simp [splitLines, ih]
  | case3 c t hpair hc ih => simp [splitLines, hc, ih]
  | case4 c t hpair hc ih =>
      rw [splitLines, if_neg hc, ← ih]
      · cases endedLines t <;> rfl
      · exact hpair

theorem splitLines_ne_nil (t : Text) : t.splitLines ≠ [] := by
  fun_induction splitLines t <;> simp_all

/-! ## Positions in lines -/

/-- The position is in the line number `k`, counted from 0, or at its end. -/
def InLine (t : Text) (k pos : Nat) : Prop :=
  ∃ piece, t.splitLines[k]? = some piece ∧ t.lineOffset k ≤ pos ∧ pos ≤ t.lineOffset k + piece.length

/-- The position is behind a CR and in front of an LF. -/
def InsidePair (t : Text) (pos : Nat) : Prop :=
  (t.take pos).getLast? = some '\r' ∧ (t.drop pos).head? = some '\n'

instance (t : Text) (pos : Nat) : Decidable (t.InsidePair pos) :=
  inferInstanceAs (Decidable (_ ∧ _))

@[simp] theorem lineOffset_zero (t : Text) : t.lineOffset 0 = 0 := by
  simp [lineOffset]

theorem InsidePair.cons {t : Text} {pos : Nat} (h : t.InsidePair pos) (c : Char) :
    InsidePair (c :: t) (pos + 1) := by
  obtain ⟨hlast, hhead⟩ := h
  exact ⟨by simp [List.getLast?_cons, hlast], hhead⟩

theorem inLine_zero (t : Text) : t.InLine 0 0 := by
  obtain ⟨piece, lines, h⟩ := List.exists_cons_of_ne_nil t.splitLines_ne_nil
  exact ⟨piece, by simp [h]⟩

section Ended

variable {e t : Text} (h : endedLines (e ++ t) = ([], e) :: endedLines t)
include h

theorem lineOffset_ended (k : Nat) : lineOffset (e ++ t) (k + 1) = lineOffset t k + e.length := by
  simp [lineOffset, h]
  omega

theorem InLine.ended {k pos : Nat} (hl : InLine t k pos) : InLine (e ++ t) (k + 1) (pos + e.length) := by
  obtain ⟨piece, hpiece, hle, hend⟩ := hl
  refine ⟨piece, ?_, ?_⟩
  · rw [← map_endedLines, h]
    simp [map_endedLines, hpiece]
  · rw [lineOffset_ended h]
    omega

end Ended

section Unbroken

variable {c : Char} {t : Text} {line : Text × Text} {lines : List (Text × Text)}
  (ht : endedLines t = line :: lines) (h : endedLines (c :: t) = (c :: line.1, line.2) :: lines)
include ht h

theorem lineOffset_cons (k : Nat) : lineOffset (c :: t) (k + 1) = lineOffset t (k + 1) + 1 := by
  simp [lineOffset, ht, h]
  omega

theorem InLine.cons {k pos : Nat} (hl : InLine t k pos) : InLine (c :: t) k (pos + 1) := by
  obtain ⟨piece, hpiece, hle, hend⟩ := hl
  rw [← map_endedLines, ht] at hpiece
  cases k with
  | zero =>
      refine ⟨c :: piece, ?_, ?_⟩
      · rw [← map_endedLines, h]
        simpa using hpiece
      · simp at hend ⊢
        exact hend
  | succ k =>
      refine ⟨piece, ?_, ?_⟩
      · rw [← map_endedLines, h]
        exact hpiece
      · rw [lineOffset_cons ht h]
        omega

end Unbroken

end Text

/-! ## Where a reader stands -/

namespace LineReader

open Text

/-- Having read up to the position, the reader knows the line in which it is, and its distance from the
beginning of the line. -/
def Locates (r : LineReader) (t : Text) (pos : Nat) : Prop :=
  ∃ k, InLine t k pos ∧ (r.readAll (t.take pos)).line = r.line + k ∧
    (r.readAll (t.take pos)).column + lineOffset t k = (if k = 0 then r.column else 1) + pos

theorem locates_zero (r : LineReader) (t : Text) : r.Locates t 0 :=
  ⟨0, inLine_zero t, by simp⟩

theorem Locates.ended {r : LineReader} {e t : Text} {pos : Nat}
    (h : endedLines (e ++ t) = ([], e) :: endedLines t) (hline : (r.readAll e).line = r.line + 1)
    (hcolumn : (r.readAll e).column = 1) (hl : (r.readAll e).Locates t pos) :
    r.Locates (e ++ t) (pos + e.length) := by
  obtain ⟨k, hk, hkl, hkc⟩ := hl
  have htake : (e ++ t).take (pos + e.length) = e ++ t.take pos := by
    rw [Nat.add_comm, List.take_length_add_append]
  refine ⟨k + 1, hk.ended h, ?_, ?_⟩
  · rw [htake, readAll_append, hkl, hline]
    omega
  · rw [htake, readAll_append, lineOffset_ended h, if_neg (by omega)]
    rw [hcolumn, ite_self] at hkc
    omega

theorem Locates.cons {r : LineReader} {c : Char} {t : Text} {line : Text × Text}
    {lines : List (Text × Text)} {pos : Nat} (hc : isBreak c = false) (ht : endedLines t = line :: lines)
    (h : endedLines (c :: t) = (c :: line.1, line.2) :: lines) (hl : (r.next c).Locates t pos) :
    r.Locates (c :: t) (pos + 1) := by
  obtain ⟨k, hk, hkl, hkc⟩ := hl
  rw [next_unbroken hc] at hkl hkc
  refine ⟨k, hk.cons ht h, ?_, ?_⟩
  · rw [List.take_succ_cons, readAll_cons, next_unbroken hc, hkl]
  · rw [List.take_succ_cons, readAll_cons, next_unbroken hc]
    cases k with
    | zero =>
        simp at hkc ⊢
        omega
    | succ k =>
        simp [lineOffset_cons ht h] at hkc ⊢
        omega

/-- The reader does not stand between a CR and its LF. -/
def Clear (r : LineReader) (t : Text) : Prop :=
  r.behindReturn → t.head? ≠ some '\n'

theorem Clear.ne {r : LineReader} {c : Char} {t : Text} (h : r.Clear (c :: t)) : r.behindReturn → c ≠ '\n' := by
  simpa [Clear] using h

theorem clear_next (r : LineReader) {c : Char} {t : Text} (hpair : ∀ u, c = '\r' → t = '\n' :: u → False) :
    (r.next c).Clear t := by
  intro hreturn hhead
  rw [behindReturn_next, beq_iff_eq] at hreturn
  obtain ⟨u, rfl⟩ := List.head?_eq_some_iff.1 hhead
  exact hpair u hreturn rfl

-- The induction takes a CRLF in one step, so that the reader is clear of the pairs before each step.
theorem locates {r : LineReader} {t : Text} {pos : Nat} (hr : r.Clear t) (hl : pos ≤ t.length)
    (hin : ¬InsidePair t pos) : r.Locates t pos := by
  fun_induction endedLines t generalizing r pos with
  | case1 =>
      obtain rfl : pos = 0 := by simpa using hl
      exact r.locates_zero []
  | case2 t ih =>
      match pos, hl, hin with
      | 0, _, _ => exact r.locates_zero _
      | 1, _, hin => exact absurd ⟨rfl, rfl⟩ hin
      | pos + 2, hl, hin =>
          have hclear : ((r.next '\r').next '\n').Clear t := clear_next _ nofun
          have htail := ih hclear (by simpa using hl) fun h => hin ((h.cons _).cons _)
          exact .ended (e := ['\r', '\n']) rfl (by simp [next]) (by simp [next]) htail
  | case3 c t hpair hc ih =>
      cases pos with
      | zero => exact r.locates_zero _
      | succ pos =>
          have hended : endedLines ([c] ++ t) = ([], [c]) :: endedLines t := by simp [endedLines, hc]
          have htail := ih (clear_next r hpair) (by simpa using hl) fun h => hin (h.cons c)
          exact .ended hended (line_next_break hc hr.ne) (column_next_break hc) htail
  | case4 c t hpair hc ih =>
      cases pos with
      | zero => exact r.locates_zero _
      | succ pos =>
          have hunbroken : isBreak c = false := by simpa using hc
          obtain ⟨line, lines, ht⟩ := List.exists_cons_of_ne_nil (endedLines_ne_nil t)
          have htail := ih (clear_next r hpair) (by simpa using hl) fun h => hin (h.cons c)
          exact .cons hunbroken ht (by simp [endedLines, hunbroken, ht]) htail

theorem line_readAll_splitLines {r : LineReader} {t : Text} (hr : r.Clear t) :
    (r.readAll t).line + 1 = r.line + t.splitLines.length := by
  fun_induction splitLines t generalizing r with
  | case1 => simp
  | case2 t ih =>
      have htail := ih (clear_next _ nofun : ((r.next '\r').next '\n').Clear t)
      simp [next] at htail ⊢
      omega
  | case3 c t hpair hc ih =>
      rw [readAll_cons, ih (clear_next r hpair), line_next_break hc hr.ne, List.length_cons]
      omega
  | case4 c t hpair hc ih =>
      have hunbroken : isBreak c = false := by simpa using hc
      rw [readAll_cons, ih (clear_next r hpair), next_unbroken hunbroken, List.length_modifyHead]

end LineReader

/-! ## Counting and splitting -/

namespace Text

open LineReader

variable (t : Text) {pos : Nat}

theorem lineCol_eq (hl : pos ≤ t.length) :
    t.lineCol pos 0 = ((({} : LineReader).readAll (t.take pos)).line,
      (({} : LineReader).readAll (t.take pos)).column) := by
  simpa [startingAt] using lineCol_eq_readAll t (Nat.zero_le pos) hl

theorem length_splitLines : (t.splitLines.length : Int) = t.countBreaks 0 t.length + 1 := by
  have hline := line_readAll_splitLines (r := {}) (t := t) nofun
  have hcount := congrArg Prod.fst (t.lineCol_eq (Nat.le_refl _))
  simp only [lineCol, List.take_length] at hcount
  simp only at hline
  omega

/-- Line and column, both counted from 1, lead to the position. -/
structure LeadTo (line column pos : Nat) : Prop where
  line_pos : 1 ≤ line
  line_le : line ≤ t.splitLines.length
  column_pos : 1 ≤ column
  column_le : ∀ piece, t.splitLines[line - 1]? = some piece → column ≤ piece.length + 1
  pos_eq : pos = t.lineOffset (line - 1) + (column - 1)

theorem lineCol_leadTo (hl : pos ≤ t.length) (hin : ¬t.InsidePair pos) :
    ∃ line column : Nat, t.lineCol pos 0 = ((line : Int), (column : Int)) ∧ t.LeadTo line column pos := by
  obtain ⟨k, ⟨piece, hpiece, hle, hend⟩, hline, hcolumn⟩ := locates (r := {}) nofun hl hin
  refine ⟨k + 1, pos - t.lineOffset k + 1, ?_, ?_⟩
  · rw [lineCol_eq t hl, hline]
    simp only [ite_self] at hcolumn
    ext <;> simp <;> omega
  · obtain ⟨hk, -⟩ := List.getElem?_eq_some_iff.1 hpiece
    refine ⟨by omega, hk, by omega, ?_, by simp; omega⟩
    intro piece' hpiece'
    rw [Nat.add_sub_cancel, hpiece] at hpiece'
    cases hpiece'
    omega

theorem lineCol_insidePair (hin : t.InsidePair pos) : t.lineCol pos 0 = t.lineCol (pos + 1 : Nat) 0 := by
  obtain ⟨hlast, hhead⟩ := hin
  obtain ⟨before, hbefore⟩ := List.getLast?_eq_some_iff.1 hlast
  rw [List.head?_drop] at hhead
  obtain ⟨hlt, -⟩ := List.getElem?_eq_some_iff.1 hhead
  have hnext : t.take (pos + 1) = before ++ ['\r', '\n'] := by simp [List.take_add_one, hbefore, hhead]
  rw [lineCol_eq t (Nat.le_of_lt hlt), lineCol_eq t hlt, hbefore, hnext]
  simp [next]

theorem lineCol_inj {pos' : Nat} (hl : pos ≤ t.length) (hin : ¬t.InsidePair pos) (hl' : pos' ≤ t.length)
    (hin' : ¬t.InsidePair pos') (h : t.lineCol pos 0 = t.lineCol pos' 0) : pos = pos' := by
  obtain ⟨line, column, heq, hlead⟩ := t.lineCol_leadTo hl hin
  obtain ⟨line', column', heq', hlead'⟩ := t.lineCol_leadTo hl' hin'
  rw [heq, heq'] at h
  obtain ⟨hline, hcolumn⟩ := Prod.mk.inj h
  rw [hlead.pos_eq, hlead'.pos_eq, Int.ofNat_inj.1 hline, Int.ofNat_inj.1 hcolumn]

end Text

/-! ## Lines around a mismatch -/

theorem zipIdx_eq_map_range' (pieces : List Text) :
    pieces.zipIdx 1 = (List.range' 1 pieces.length).map fun i => (pieces[i - 1]?.getD [], i) := by
  apply List.ext_getElem
  · simp
  · intro i hi hi'
    have hlt : i < pieces.length := by simpa using hi
    simp [hlt, Nat.add_comm 1 i]

namespace Mismatch

variable (m : Mismatch) (k : Int)

/-- The lines whose numbers, counted from 1, are at most `k` away from the line of the mismatch. -/
def nearLines : List (Text × Nat) :=
  (m.cursor.source.splitLines.zipIdx 1).filter fun piece =>
    max 1 (m.cursor.lineCol.1 - k) ≤ piece.2 ∧
      piece.2 ≤ min (m.cursor.source.splitLines.length : Int) (m.cursor.lineCol.1 + k)

/-- What stands in front of a line in its row: the number, at the right end of four places if it fits there. -/
def gutter (number : Nat) : Text :=
  List.replicate (4 - (Text.ofNat number).length) ' ' ++ Text.ofNat number ++ [' ', '|', ' ']

/-- What stands in front of the caret's column in its row. -/
def emptyGutter : Text := "     | "

/-- A line behind its number, and below the line of the mismatch a row with a caret in its column. -/
def rowsFor (piece : Text × Nat) : List Text :=
  (gutter piece.2 ++ piece.1) :: if (piece.2 : Int) = m.cursor.lineCol.1 then
    [emptyGutter ++ List.replicate (m.cursor.lineCol.2 - 1).toNat ' ' ++ ['^']] else []

theorem mem_shownLines {i : Nat} (h : i ∈ m.shownLines k) :
    1 ≤ i ∧ i ≤ m.cursor.source.splitLines.length := by
  simp only [shownLines, List.mem_range'_1] at h
  omega

/-- Both lists are in the order of the numbers, so it suffices that they have the same members. -/
theorem nearLines_eq :
    m.nearLines k = (m.shownLines k).map fun i => (m.cursor.source.splitLines[i - 1]?.getD [], i) := by
  rw [nearLines, zipIdx_eq_map_range', List.filter_map]
  congr 1
  apply List.Pairwise.eq_of_mem_iff (r := (· < ·)) (.filter _ List.pairwise_lt_range') List.pairwise_lt_range'
  intro i
  simp only [List.mem_filter, List.mem_range'_1, Function.comp_apply, decide_eq_true_eq]
  omega

theorem formatWithContext_eq :
    m.formatWithContext k =
      List.intercalate ['\n'] (m.format :: [] :: (m.nearLines k).flatMap m.rowsFor) := by
  rw [nearLines_eq, List.flatMap_map]
  rfl

end Mismatch

/-! ## The result -/

/-- Counting line breaks and splitting at them agree on the number of lines and on the place of every
position, and a mismatch is shown with the lines around its place. -/
theorem counting_agrees_with_splitting :
    (∀ t : Text, (∀ lines, t.Lined lines ↔ lines = t.endedLines) ∧ t.endedLines.map (·.1) = t.splitLines ∧
      (t.splitLines.length : Int) = t.countBreaks 0 t.length + 1) ∧
    (∀ (t : Text) (pos : Nat), pos ≤ t.length → ¬t.InsidePair pos →
      (∃ line column : Nat, t.lineCol pos 0 = ((line : Int), (column : Int)) ∧ t.LeadTo line column pos) ∧
      ∀ pos' : Nat, pos' ≤ t.length → ¬t.InsidePair pos' → t.lineCol pos 0 = t.lineCol pos' 0 → pos = pos') ∧
    (∀ (t : Text) (pos : Nat), t.InsidePair pos → t.lineCol pos 0 = t.lineCol (pos + 1 : Nat) 0) ∧
    (∀ (m : Mismatch) (k : Int),
      (∀ i ∈ m.shownLines k, 1 ≤ i ∧ i ≤ m.cursor.source.splitLines.length) ∧
      m.formatWithContext k =
        List.intercalate ['\n'] (m.format :: [] :: (m.nearLines k).flatMap m.rowsFor)) := by
  refine ⟨?lines, ?outside, ?inside, ?context⟩
  case lines => exact fun t => ⟨fun _ => Text.lined_iff, t.map_endedLines, t.length_splitLines⟩
  case outside =>
    exact fun t pos hl hin => ⟨t.lineCol_leadTo hl hin, fun _ hl' hin' => t.lineCol_inj hl hin hl' hin'⟩
  case inside => exact fun t pos hin => t.lineCol_insidePair hin
  case context => exact fun m k => ⟨fun _ => m.mem_shownLines k, m.formatWithContext_eq k⟩

/-- In a text with line ends of all three kinds, the position in the CRLF is that of the next line, and the
end of the third line is shown with the two lines beside it. -/
theorem counting_agrees_on_mixed_ends :
    let t : Text := "a\r\nb\rc\n"
    let m : Mismatch := { cursor := { source := t, pos := 6 } }
    t.InsidePair 2 ∧ t.lineCol (2 : Nat) 0 = t.lineCol (3 : Nat) 0 ∧ 6 ≤ t.length ∧ ¬t.InsidePair 6 ∧
      t.lineCol (6 : Nat) 0 = (3, 2) ∧ t.LeadTo 3 2 6 ∧ 4 ∈ m.shownLines 1 ∧
      4 ≤ m.cursor.source.splitLines.length ∧
      m.nearLines 1 = [(['b'], 2), (['c'], 3), ([], 4)] := by
  intro t m
  obtain ⟨-, houtside, hinside, hcontext⟩ := counting_agrees_with_splitting
  have hpair : t.InsidePair 2 := by decide
  have hlt : 6 ≤ t.length := by decide
  have hin : ¬t.InsidePair 6 := by decide
  have hshown : 4 ∈ m.shownLines 1 := by decide
  have hplace : t.lineCol (6 : Nat) 0 = (3, 2) := by decide
  obtain ⟨⟨line, column, heq, hlead⟩, -⟩ := houtside t 6 hlt hin
  obtain ⟨hline, hcolumn⟩ := Prod.mk.inj (heq.symm.trans hplace)
  obtain rfl : line = 3 := by omega
  obtain rfl : column = 2 := by omega
  exact ⟨hpair, hinside t 2 hpair, hlt, hin, hplace, hlead, hshown, ((hcontext m 1).1 4 hshown).2, by decide⟩

end ParserAlgebra
