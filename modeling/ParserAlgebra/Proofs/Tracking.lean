import Mathlib.Algebra.Ring.Int.Defs
import ParserAlgebra.Proofs.Fitting
import ParserAlgebra.Proofs.LineReader

/-!
# What trackers record
-/

namespace ParserAlgebra

open Cursor Parse

variable {σ : Type}

/-! ## Records -/

/-- A place in the state that holds a record. -/
structure Scanner (σ : Type) where
  read : σ → Mark
  write : Mark → σ → σ
  read_write : ∀ mark s, read (write mark s) = mark

/-- From `c`, the parser matches nothing but text ahead in the same source. -/
def Parser.MatchesAhead (p : Parser σ) (c : Cursor) : Prop :=
  ∀ s v d t, (p.run c).run s = .ok (.success v d) t →
    d.source = c.source ∧ c.pos ≤ d.pos ∧ d.pos ≤ c.source.length

theorem Parser.ConformsOn.matchesAhead {p : Parser σ} (hp : p.ConformsOn True InSource) {c : Cursor}
    (hc : c.InSource) : p.MatchesAhead c := by
  intro s v d t h
  exact (reaches_iff hc).1 ((hp c hc).of_run h)

theorem Mark.of_between {c d : Cursor} {mark : Mark} (h : between c d = .ok mark) :
    (mark.line, mark.column) = c.source.lineCol d.pos c.pos ∧ mark.position = d.pos - c.pos := by
  unfold between at h
  dsimp only at h
  split at h
  · cases h
    exact ⟨rfl, rfl⟩
  · split at h
    · cases h
      exact ⟨rfl, rfl⟩
    · cases h

/-- A tracker matches where its parser does, before the end of the input, and writes one record. -/
theorem Parser.track_eq_ok {p : Parser σ} {record : Mark → σ → σ} {c d : Cursor} {v : Value} {s s' : σ}
    (h : ((p.track record).run c).run s = .ok (.success v d) s') :
    ¬c.atEnd ∧ ∃ mark t, (p.run c).run s = .ok (.success v d) t ∧ Mark.between c d = .ok mark ∧
      s' = record mark t := by
  unfold track at h
  dsimp only at h
  split at h
  · cases h
  · rename_i hend
    obtain ⟨o, t, hp, h⟩ := run_bind_eq_ok h
    cases o with
    | failure m => cases h
    | success w e =>
        obtain ⟨mark, u, hlift, hwrite⟩ := run_bind_eq_ok h
        obtain ⟨hm, rfl⟩ := run_lift_eq_ok hlift
        cases hwrite
        exact ⟨hend, mark, u, hp, hm, rfl⟩

/-- A tracker that does not match leaves what its parser left, and at the end of the input does nothing. -/
theorem Parser.track_eq_failure {record : Mark → σ → σ} {p : Parser σ} {c : Cursor} {m : Mismatch} {s s' : σ}
    (h : ((p.track record).run c).run s = .ok (.failure m) s') :
    c.atEnd ∧ s' = s ∨ ¬c.atEnd ∧ (p.run c).run s = .ok (.failure m) s' := by
  unfold Parser.track at h
  dsimp only at h
  split at h
  · rename_i hend
    cases h
    exact Or.inl ⟨hend, rfl⟩
  · rename_i hend
    obtain ⟨o, t, hp, h⟩ := run_bind_eq_ok h
    cases o with
    | failure m' =>
        cases h
        exact Or.inr ⟨hend, hp⟩
    | success v d =>
        obtain ⟨mark, u, -, hwrite⟩ := run_bind_eq_ok h
        cases hwrite

theorem Parser.track_matches {p : Parser σ} (record : Mark → σ → σ) {c d : Cursor} {v : Value} {s t : σ}
    (hc : 0 ≤ c.pos) (hend : ¬c.atEnd) (hp : p.MatchesAhead c) (h : (p.run c).run s = .ok (.success v d) t) :
    ∃ s', ((p.track record).run c).run s = .ok (.success v d) s' := by
  obtain ⟨-, hle, hl⟩ := hp s v d t h
  obtain ⟨mark, hm⟩ := Mark.between_ok hc (Int.le_trans hc hle) hend hl
  refine ⟨record mark t, ?_⟩
  unfold track
  dsimp only
  rw [if_neg hend, EStateM.run_bind, h]
  dsimp only
  rw [hm]
  rfl

/-! ## One match -/

/-- The record leads from line and column of `c` to those of `d`. -/
structure Mark.LeadsFrom (mark : Mark) (c d : Cursor) : Prop where
  line : d.lineCol.1 = c.lineCol.1 + mark.line - 1
  position : mark.position = d.pos - c.pos
  column : d.lineCol.2 =
    if (c.source.slice c.pos d.pos).any Text.isBreak then mark.column else c.lineCol.2 + mark.position

theorem Mark.leadsFrom_of_between {c d : Cursor} {mark : Mark} (hc : 0 ≤ c.pos)
    (hd : d.source = c.source ∧ c.pos ≤ d.pos ∧ d.pos ≤ c.source.length) (h : between c d = .ok mark) :
    mark.LeadsFrom c d := by
  obtain ⟨source, pos⟩ := c
  obtain ⟨rfl, hle, hlen⟩ := hd
  obtain ⟨hplace, hposition⟩ := of_between h
  obtain ⟨hline, hcolumn⟩ := Prod.mk.inj hplace
  obtain ⟨i, rfl⟩ := Int.eq_ofNat_of_zero_le hc
  obtain ⟨j, hj⟩ := Int.eq_ofNat_of_zero_le (Int.le_trans hc hle)
  simp only [hj] at hle hlen hline hcolumn hposition
  have hij : i ≤ j := Int.ofNat_le.1 hle
  have hjl : j ≤ d.source.length := Int.ofNat_le.1 hlen
  constructor
  · simp only [lineCol, hj, hline]
    exact Text.line_add hij hjl
  · rw [hposition, hj]
  · simp only [lineCol, hj, hcolumn, hposition]
    exact Text.column_add hij hjl

/-! ## Matches in a row -/

/-- Tracked parsers match one after another, each from the cursor that the one before it left. What the
scanner of each holds after its match is kept in a list. -/
inductive TrackedInTurn : Cursor → σ → List Mark → Cursor → σ → Prop
  | nil (c : Cursor) (s : σ) : TrackedInTurn c s [] c s
  | cons {scanner : Scanner σ} {p : Parser σ} {c d e : Cursor} {v : Value} {s t u : σ} {marks : List Mark} :
      p.MatchesAhead c → ((p.track scanner.write).run c).run s = .ok (.success v d) t →
      TrackedInTurn d t marks e u → TrackedInTurn c s (scanner.read t :: marks) e u

theorem Parser.track_leadsFrom {scanner : Scanner σ} {p : Parser σ} {c d : Cursor} {v : Value} {s s' : σ}
    (hc : 0 ≤ c.pos) (hp : p.MatchesAhead c)
    (h : ((p.track scanner.write).run c).run s = .ok (.success v d) s') :
    (∃ t, (p.run c).run s = .ok (.success v d) t ∧ s' = scanner.write (scanner.read s') t) ∧
      (scanner.read s').LeadsFrom c d := by
  obtain ⟨-, mark, t, hr, hm, rfl⟩ := track_eq_ok h
  rw [scanner.read_write]
  exact ⟨⟨t, hr, rfl⟩, Mark.leadsFrom_of_between hc (hp s v d t hr) hm⟩

theorem TrackedInTurn.line_eq {c d : Cursor} {s t : σ} {marks : List Mark} (hc : 0 ≤ c.pos)
    (h : TrackedInTurn c s marks d t) :
    d.lineCol.1 = c.lineCol.1 + (marks.map fun mark => mark.line - 1).sum := by
  induction h with
  | nil => simp
  | cons hp hrun _ ih =>
      obtain ⟨⟨u, hr, -⟩, hmark⟩ := Parser.track_leadsFrom hc hp hrun
      obtain ⟨-, hle, -⟩ := hp _ _ _ _ hr
      rw [ih (Int.le_trans hc hle), hmark.line, List.map_cons, List.sum_cons]
      omega

/-! ## The result -/

/-- Before the end of the input a tracker matches where its parser does. Whatever it records leads from line
and column of the beginning of the match to those of its end, and the lines recorded in a row add up to the
lines between the two ends. -/
theorem marks_compose :
    (∀ (scanner : Scanner σ) (p : Parser σ) (c : Cursor), 0 ≤ c.pos → p.MatchesAhead c →
      (∀ s v d t, ¬c.atEnd → (p.run c).run s = .ok (.success v d) t →
        ∃ s', ((p.track scanner.write).run c).run s = .ok (.success v d) s') ∧
      ∀ s v d s', ((p.track scanner.write).run c).run s = .ok (.success v d) s' →
        (∃ t, (p.run c).run s = .ok (.success v d) t ∧ s' = scanner.write (scanner.read s') t) ∧
          (scanner.read s').LeadsFrom c d) ∧
    (∀ (c d : Cursor) (s t : σ) (marks : List Mark), 0 ≤ c.pos → TrackedInTurn c s marks d t →
      d.lineCol.1 - c.lineCol.1 = (marks.map fun mark => mark.line - 1).sum) := by
  refine ⟨?one, ?chain⟩
  case one =>
    intro scanner p c hc hp
    exact ⟨fun _ _ _ _ hend h => Parser.track_matches _ hc hend hp h,
      fun _ _ _ _ h => Parser.track_leadsFrom hc hp h⟩
  case chain =>
    intro c d s t marks hc h
    rw [h.line_eq hc]
    omega

/-- Two scanners, and a cut between the CR and the LF of a line end: together they record one line. -/
theorem marks_compose_inside_pair :
    let left : Scanner (Mark × Mark) :=
      { read := (·.1), write := fun mark s => (mark, s.2), read_write := fun _ _ => rfl }
    let right : Scanner (Mark × Mark) :=
      { read := (·.2), write := fun mark s => (s.1, mark), read_write := fun _ _ => rfl }
    let first : Parser (Mark × Mark) := .text "a\r"
    let second : Parser (Mark × Mark) := .text "\nb"
    let c : Cursor := { source := "a\r\nb" }
    ∃ v w d e s t, ((first.track left.write).run c).run ({}, {}) = .ok (.success v d) s ∧
      ((second.track right.write).run d).run s = .ok (.success w e) t ∧
      (left.read s).LeadsFrom c d ∧ (right.read t).LeadsFrom d e ∧
      e.lineCol.1 - c.lineCol.1 = [(left.read s).line - 1, (right.read t).line - 1].sum ∧
      e.lineCol = (2, 2) := by
  intro left right first second c
  have hc : c.InSource := ⟨by decide, by decide⟩
  have hfirst : first.MatchesAhead c := Parser.ConformsOn.matchesAhead (Parser.conformsOn_text _) hc
  let d := c.advance 2
  have hd : d.InSource := ⟨by decide, by decide⟩
  have hsecond : second.MatchesAhead d := Parser.ConformsOn.matchesAhead (Parser.conformsOn_text _) hd
  let marked : Mark × Mark := ({ line := 2, column := 1, position := 2, lastChar := some ['\r'] }, {})
  have hleft : ((first.track left.write).run c).run ({}, {}) = .ok (.success (.text "a\r") d) marked := rfl
  have hright : ((second.track right.write).run d).run marked =
      .ok (.success (.text "\nb") (d.advance 2))
        (marked.1, { line := 1, column := 2, position := 2, lastChar := some ['b'] }) := rfl
  obtain ⟨hone, hchain⟩ := marks_compose (σ := Mark × Mark)
  have hsum := hchain _ _ _ _ _ hc.1 (.cons hfirst hleft (.cons hsecond hright (.nil _ _)))
  exact ⟨_, _, _, _, _, _, hleft, hright, ((hone _ _ _ hc.1 hfirst).2 _ _ _ _ hleft).2,
    ((hone _ _ _ hd.1 hsecond).2 _ _ _ _ hright).2, hsum, by decide⟩

end ParserAlgebra
