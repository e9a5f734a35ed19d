import ParserAlgebra.Proofs.Lines

/-!
# The caret below a line
-/

namespace ParserAlgebra

namespace Text

/-! ## The line of a position -/

/-- The position is in the line with this number, counted from 1. `before` is what the line has in front of it,
and `after` what it has behind it. After that comes a line end or the end of the text. -/
structure StandsIn (t : Text) (pos line : Nat) (before after : Text) : Prop where
  lineCol : t.lineCol pos 0 = ((line : Int), (before.length : Int) + 1)
  line : t.splitLines[line - 1]? = some (before ++ after)
  front : ∃ front, t.take pos = front ++ before
  back : ∃ back, t.drop pos = after ++ back ∧ ∀ c ∈ back.head?, isBreak c = true

theorem Lined.flatMap_eq {t : Text} {lines : List (Text × Text)} (h : Lined t lines) :
    lines.flatMap (fun line => line.1 ++ line.2) = t := by
  induction h with
  | last _ => simp
  | ended _ _ _ ih => rw [List.flatMap_cons, ih]

/-- Only the last line has nothing to end it. -/
theorem Lined.isBreak_head {t : Text} {lines : List (Text × Text)} (h : Lined t lines) {line : Text × Text}
    {k : Nat} (hk : lines[k]? = some line) :
    ∀ c ∈ (line.2 ++ (lines.drop (k + 1)).flatMap fun line => line.1 ++ line.2).head?, isBreak c = true := by
  induction h generalizing k with
  | last _ =>
      cases k with
      | zero =>
          cases hk
          nofun
      | succ k => cases hk
  | @ended piece e t lines _ he _ ih =>
      cases k with
      | zero =>
          cases hk
          rcases he with rfl | ⟨rfl, -⟩ | rfl
          all_goals
            intro c hc
            cases hc
            rfl
      | succ k => exact ih hk

/-- The lines before the line number `k`, counted from 0, are in front of it, and behind it comes what ends it. -/
theorem exists_around {t : Text} {line : Text × Text} {k : Nat} (hk : t.endedLines[k]? = some line) :
    ∃ front back, t = front ++ (line.1 ++ back) ∧ front.length = t.lineOffset k ∧
      ∀ c ∈ back.head?, isBreak c = true := by
  obtain ⟨hlt, hline⟩ := List.getElem?_eq_some_iff.1 hk
  refine ⟨(t.endedLines.take k).flatMap fun line => line.1 ++ line.2, _, ?_, ?_,
    t.lined_endedLines.isBreak_head hk⟩
  · conv_lhs => rw [← t.lined_endedLines.flatMap_eq, ← List.take_append_drop k t.endedLines]
    rw [List.flatMap_append, List.drop_eq_getElem_cons hlt, hline, List.flatMap_cons, List.append_assoc line.1]
  · simp [lineOffset, List.length_flatMap]

theorem exists_standsIn {t : Text} {pos : Nat} (hl : pos ≤ t.length) (hin : ¬t.InsidePair pos) :
    ∃ line before after, 1 ≤ line ∧ line ≤ t.splitLines.length ∧ StandsIn t pos line before after := by
  obtain ⟨line, column, heq, hlead⟩ := t.lineCol_leadTo hl hin
  have hline := hlead.line_pos
  have hcolumn := hlead.column_pos
  obtain ⟨shown, hshown⟩ : ∃ shown, t.endedLines[line - 1]? = some shown := by
    have hlen := congrArg List.length t.map_endedLines
    have hle := hlead.line_le
    rw [List.length_map] at hlen
    exact ⟨_, List.getElem?_eq_getElem (by omega)⟩
  have hpiece : t.splitLines[line - 1]? = some shown.1 := by
    rw [← t.map_endedLines, List.getElem?_map, hshown]
    rfl
  have hend := hlead.column_le _ hpiece
  have hpos := hlead.pos_eq
  obtain ⟨front, back, ht, hfront, hback⟩ := exists_around hshown
  have hbefore : (shown.1.take (column - 1)).length = column - 1 := by
    rw [List.length_take]
    omega
  refine ⟨line, shown.1.take (column - 1), shown.1.drop (column - 1), hline, hlead.line_le, ?_, ?_, ⟨front, ?_⟩,
    ⟨back, ?_, hback⟩⟩
  · rw [heq, hbefore]
    ext
    · rfl
    · simp only
      omega
  · rw [hpiece, List.take_append_drop]
  · rw [hpos, ← hfront]
    conv_lhs => rw [ht]
    rw [List.take_length_add_append, List.take_append_of_le_length (by omega)]
  · rw [hpos, ← hfront]
    conv_lhs => rw [ht]
    rw [List.drop_length_add_append, List.drop_append_of_le_length (by omega)]

end Text

theorem LineReader.readAll_lineFeeds (r : LineReader) (n : Nat) (hr : r.behindReturn = false) :
    r.readAll (List.replicate (n + 1) '\n') = { line := r.line + (n + 1) } := by
  induction n generalizing r with
  | zero => simp [LineReader.next, hr]
  | succ n ih =>
      rw [List.replicate_succ, LineReader.readAll_cons, ih (r.next '\n') (by simp [LineReader.next])]
      simp [LineReader.next, hr]
      omega

/-! ## The rows of a mismatch -/

namespace Mismatch

/-- The row has no number in its gutter. -/
def isUnnumbered (row : Text) : Bool :=
  emptyGutter.isPrefixOf row

/-- The row of the caret up to the caret. -/
def caretLead (m : Mismatch) : Text :=
  emptyGutter ++ List.replicate (m.cursor.lineCol.2 - 1).toNat ' '

theorem caretRow_eq (m : Mismatch) : m.caretRow = m.caretLead ++ ['^'] :=
  rfl

theorem length_gutter (number : Nat) : (gutter number).length = 7 + ((Text.ofNat number).length - 4) := by
  have hbar : [' ', '|', ' '].length = 3 := rfl
  rw [gutter, List.length_append, List.length_append, List.length_replicate, hbar]
  omega

theorem exists_digit_ofNat (n : Nat) : ∃ c t, Text.ofNat n = c :: t ∧ c ≠ ' ' := by
  obtain ⟨c, t, h⟩ := List.exists_cons_of_ne_nil (Nat.toDigits_ne_nil (n := n) (b := 10))
  have hmem : c ∈ Nat.toDigits 10 n := by simp [h]
  have hdigit := Nat.isDigit_of_mem_toDigits (by decide) (by decide) hmem
  refine ⟨c, t, h, ?_⟩
  rintro rfl
  cases hdigit

/-- Where the other gutter is still blank, the gutter of a line has the first digit of the number. -/
theorem not_unnumbered_sourceRow (number : Nat) (line : Text) : isUnnumbered (sourceRow number line) = false := by
  obtain ⟨c, t, hdigits, hc⟩ := exists_digit_ofNat number
  rw [Bool.eq_false_iff]
  intro h
  obtain ⟨rest, hrow⟩ := List.isPrefixOf_iff_prefix.1 h
  have hlt : 4 - (Text.ofNat number).length < 4 := by
    rw [hdigits, List.length_cons]
    omega
  have hblank : (emptyGutter ++ rest)[4 - (Text.ofNat number).length]? = some ' ' := by
    generalize 4 - (Text.ofNat number).length = i at hlt
    match i, hlt with
    | 0, _ | 1, _ | 2, _ | 3, _ => rfl
  rw [hrow, sourceRow, Text.padLeft, List.append_assoc, List.append_assoc, List.getElem?_append_right (by simp),
    List.length_replicate, Nat.sub_self, hdigits] at hblank
  exact hc (Option.some.inj hblank)

variable {m : Mismatch} {line : Nat}

theorem rowsOf_of_ne {i : Nat} (hline : m.cursor.lineCol.1 = line) (hne : i ≠ line) :
    m.rowsOf i = [sourceRow i (m.cursor.source.splitLines[i - 1]?.getD [])] := by
  rw [rowsOf, if_neg (by omega)]

theorem rowsOf_line (hline : m.cursor.lineCol.1 = line) :
    m.rowsOf line = [sourceRow line (m.cursor.source.splitLines[line - 1]?.getD []), m.caretRow] := by
  rw [rowsOf, if_pos hline.symm]

theorem filter_rowsOf_of_ne (hline : m.cursor.lineCol.1 = line) {numbers : List Nat} (hne : ∀ i ∈ numbers, i ≠ line) :
    (numbers.flatMap m.rowsOf).filter isUnnumbered = [] := by
  rw [List.filter_eq_nil_iff]
  intro row hrow
  obtain ⟨i, hi, hrow⟩ := List.mem_flatMap.1 hrow
  rw [rowsOf_of_ne hline (hne i hi), List.mem_singleton] at hrow
  rw [hrow, not_unnumbered_sourceRow]
  exact Bool.false_ne_true

/-- The heading begins with a number, and the row behind it is empty. -/
theorem filter_heading (hline : m.cursor.lineCol.1 = line) (rows : List Text) :
    (m.format :: [] :: rows).filter isUnnumbered = rows.filter isUnnumbered := by
  obtain ⟨c, t, hdigits, hc⟩ := exists_digit_ofNat line
  have hformat : isUnnumbered m.format = false := by
    have hnumber : Text.ofInt m.cursor.lineCol.1 = c :: t := by
      rw [hline]
      exact hdigits
    rw [Bool.eq_false_iff]
    intro h
    obtain ⟨rest, hrest⟩ := List.isPrefixOf_iff_prefix.1 h
    simp only [format, hnumber, List.cons_append] at hrest
    exact hc (List.cons.inj hrest).1.symm
  rw [List.filter_cons, List.filter_cons, hformat]
  rfl

/-- The rows above and below the line of the mismatch show other lines. -/
theorem exists_rows (hline : m.cursor.lineCol.1 = line) (h1 : 1 ≤ line)
    (hle : line ≤ m.cursor.source.splitLines.length) {k : Int} (hk : 0 ≤ k) :
    ∃ above below, m.contextRows k =
        above ++ sourceRow line (m.cursor.source.splitLines[line - 1]?.getD []) :: m.caretRow :: below ∧
      (m.contextRows k).filter isUnnumbered = [m.caretRow] := by
  have hmem : line ∈ m.shownLines k := by
    simp only [shownLines, List.mem_range'_1, hline]
    omega
  obtain ⟨before, after, hshown⟩ := List.append_of_mem hmem
  have hnodup : (m.shownLines k).Nodup := by
    unfold shownLines
    exact List.nodup_range' 1 (by decide)
  rw [hshown, List.nodup_append, List.nodup_cons] at hnodup
  obtain ⟨-, ⟨hafter, -⟩, hbefore⟩ := hnodup
  have hfront : ∀ i ∈ before, i ≠ line := fun i hi => hbefore i hi line List.mem_cons_self
  have hback : ∀ i ∈ after, i ≠ line := fun i hi heq => hafter (heq ▸ hi)
  have hcaret : isUnnumbered m.caretRow = true := by
    rw [isUnnumbered, caretRow_eq, caretLead, List.append_assoc]
    exact List.isPrefixOf_iff_prefix.2 (List.prefix_append _ _)
  refine ⟨m.format :: [] :: before.flatMap m.rowsOf, after.flatMap m.rowsOf, ?_, ?_⟩
  · rw [contextRows, hshown, List.flatMap_append, List.flatMap_cons, rowsOf_line hline]
    rfl
  · rw [contextRows, filter_heading hline, hshown, List.flatMap_append, List.flatMap_cons, rowsOf_line hline,
      List.filter_append, List.filter_append, filter_rowsOf_of_ne hline hfront, filter_rowsOf_of_ne hline hback]
    simp [not_unnumbered_sourceRow, hcaret]

/-! ## The place and the caret -/

/-- One row shows the line of the mismatch behind its number, and the row below it, the only one without a number,
has the caret. From the fifth digit of the number on, the line stands further to the right than the caret's row
allows for. -/
structure ShowsCaret (m : Mismatch) (k : Int) (line : Nat) (before after : Text) : Prop where
  rows : ∃ above below, m.contextRows k =
    above ++ (gutter line ++ before ++ after) :: (m.caretLead ++ ['^']) :: below
  unnumbered : (m.contextRows k).filter isUnnumbered = [m.caretLead ++ ['^']]
  caret : '^' ∉ m.caretLead
  place : (gutter line ++ before).length = m.caretLead.length + ((Text.ofNat line).length - 4)

theorem showsCaret {pos : Nat} {before after : Text} (hpos : m.cursor.pos = pos) (h1 : 1 ≤ line)
    (hle : line ≤ m.cursor.source.splitLines.length) (h : Text.StandsIn m.cursor.source pos line before after)
    {k : Int} (hk : 0 ≤ k) : m.ShowsCaret k line before after := by
  have hplace : m.cursor.lineCol = ((line : Int), (before.length : Int) + 1) := by
    rw [Cursor.lineCol, hpos, h.lineCol]
  have hlead : m.caretLead = emptyGutter ++ List.replicate before.length ' ' := by
    rw [caretLead, hplace, Int.add_sub_cancel, Int.toNat_natCast]
  obtain ⟨above, below, hrows, hunnumbered⟩ := exists_rows (congrArg Prod.fst hplace) h1 hle hk
  rw [h.line, Option.getD_some] at hrows
  refine ⟨⟨above, below, ?_⟩, hunnumbered, ?_, ?_⟩
  · rw [List.append_assoc]
    exact hrows
  · rw [hlead, List.mem_append, not_or]
    exact ⟨by decide, fun hmem => absurd (List.eq_of_mem_replicate hmem) (by decide)⟩
  · have hgutter : emptyGutter.length = 7 := rfl
    rw [hlead, List.length_append, List.length_append, List.length_replicate, length_gutter, hgutter]
    omega

/-- The caret stands below the place of the mismatch in its line exactly up to line 9999. In the lines behind that,
it stands too far to the left by as many columns as the number has digits more than four. -/
theorem caret_below_place {pos : Nat} (hpos : m.cursor.pos = pos) (hl : pos ≤ m.cursor.source.length)
    (hin : ¬Text.InsidePair m.cursor.source pos) {k : Int} (hk : 0 ≤ k) :
    m.formatWithContext k = List.intercalate ['\n'] (m.contextRows k) ∧
      ∃ line before after, Text.StandsIn m.cursor.source pos line before after ∧ m.ShowsCaret k line before after ∧
        ((gutter line ++ before).length = m.caretLead.length ↔ line ≤ 9999) := by
  refine ⟨rfl, ?_⟩
  obtain ⟨line, before, after, h1, hle, hstands⟩ := Text.exists_standsIn hl hin
  have hshows := showsCaret hpos h1 hle hstands hk
  refine ⟨line, before, after, hstands, hshows, ?_⟩
  have hdigits : (Text.ofNat line).length ≤ 4 ↔ line < 10 ^ 4 := Nat.length_toDigits_le_iff (by decide) (by decide)
  rw [hshows.place]
  omega

/-- In the second line of this text, both stand nine columns from the left. -/
theorem caret_below_place_behind_crlf :
    let m : Mismatch := { cursor := { source := "ab\r\ncdef", pos := 6 }, message := "Oops" }
    6 ≤ m.cursor.source.length ∧ ¬Text.InsidePair m.cursor.source 6 ∧
      m.formatWithContext 0 = "2:3: Oops\n\n   2 | cdef\n     |   ^" ∧
      ∃ line before after, Text.StandsIn m.cursor.source 6 line before after ∧ m.ShowsCaret 0 line before after ∧
        ((gutter line ++ before).length = m.caretLead.length ↔ line ≤ 9999) := by
  intro m
  have hl : 6 ≤ m.cursor.source.length := by decide
  have hin : ¬Text.InsidePair m.cursor.source 6 := by decide
  exact ⟨hl, hin, by decide, (caret_below_place (m := m) rfl hl hin (Int.le_refl 0)).2⟩

/-- In line 10000 the caret stands one column to the left of the place. -/
theorem caret_left_of_place :
    let m : Mismatch := { cursor := { source := List.replicate 9999 '\n' ++ ['a', 'b'], pos := 10000 } }
    10000 ≤ m.cursor.source.length ∧ ¬Text.InsidePair m.cursor.source 10000 ∧
      ∃ before after, Text.StandsIn m.cursor.source 10000 10000 before after ∧ m.ShowsCaret 0 10000 before after ∧
        (gutter 10000 ++ before).length = m.caretLead.length + 1 := by
  intro m
  have hsource : m.cursor.source = List.replicate 9999 '\n' ++ ['a'] ++ ['b'] :=
    (List.append_assoc _ ['a'] ['b']).symm
  have hlen : (List.replicate 9999 '\n' ++ ['a']).length = 10000 := by
    rw [List.length_append, List.length_replicate]
    rfl
  have htake : m.cursor.source.take 10000 = List.replicate 9999 '\n' ++ ['a'] := by
    rw [hsource, List.take_left' hlen]
  have hl : 10000 ≤ m.cursor.source.length := by
    rw [hsource, List.length_append, hlen]
    exact Nat.le_add_right _ _
  have hin : ¬Text.InsidePair m.cursor.source 10000 := by
    rintro ⟨hlast, -⟩
    rw [htake, List.getLast?_concat] at hlast
    cases hlast
  obtain ⟨line, before, after, h1, hle, hstands⟩ := Text.exists_standsIn hl hin
  have hline : line = 10000 := by
    have hlineCol := hstands.lineCol
    rw [Text.lineCol_eq _ hl, htake, LineReader.readAll_append, LineReader.readAll_lineFeeds _ 9998 rfl] at hlineCol
    have hfst := congrArg Prod.fst hlineCol
    simp [LineReader.next] at hfst
    omega
  subst hline
  have hshows := showsCaret (m := m) rfl h1 hle hstands (Int.le_refl 0)
  have hdigits : (Text.ofNat 10000).length = 5 := by decide
  exact ⟨hl, hin, before, after, hstands, hshows, by rw [hshows.place, hdigits]⟩

end Mismatch
end ParserAlgebra
