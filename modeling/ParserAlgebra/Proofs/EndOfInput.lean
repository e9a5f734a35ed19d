import ParserAlgebra.Proofs.FirstMatch
import ParserAlgebra.Proofs.Tokenizing

/-!
# Matches at the end of the input

A scan does not run its parser at the end of the input, where the parser may match the empty text.
-/

namespace ParserAlgebra

open Cursor Parse

variable {σ : Type} {outcome : Cursor → Outcome} {c d e : Cursor} {name : Text} {v : Value}

/-! ## Places up to the end -/

theorem Cursor.reaches_cases (hc : c.InSource) (h : c.Reaches d) : c.Scans d ∨ d = c.toEnd := by
  obtain ⟨hs, hle, hl⟩ := (reaches_iff hc).1 h
  rcases Int.lt_or_eq_of_le hl with hlt | heq
  · exact Or.inl ⟨hs, hle, hlt⟩
  · refine Or.inr ?_
    cases d
    cases hs
    cases heq
    rfl

theorem Cursor.Scans.reaches (hc : c.InSource) (h : c.Scans d) : c.Reaches d :=
  (reaches_iff hc).2 ⟨h.1, h.2.1, Int.le_of_lt h.2.2⟩

theorem Cursor.Reaches.scans (hc : c.InSource) (h : c.Reaches d) (hend : ¬d.atEnd) : c.Scans d := by
  obtain ⟨hs, hle, -⟩ := (reaches_iff hc).1 h
  rw [atEnd_iff, hs] at hend
  exact ⟨hs, hle, by omega⟩

/-! ## Skipping to a match -/

/-- The next character where the outcome is a failure. -/
def negated (name : Text) (outcome : Cursor → Outcome) (c : Cursor) : Outcome :=
  match c.rest, outcome c with
  | [], _ => .fail c Wording.unexpectedEnd []
  | _ :: _, .success .. => .fail c (Wording.unexpected name) []
  | ch :: _, .failure _ => .success (.text [ch]) (c.advance 1)

theorem negated_eq_success (hc : c.NotBefore) (h : negated name outcome c = .success v d) :
    ¬c.atEnd ∧ (outcome c).succeeded = false ∧ d = c.advance 1 ∧ v = .text (c.rest.take 1) := by
  unfold negated at h
  split at h
  · cases h
  · cases h
  · rename_i ch t m hrest ho
    cases h
    refine ⟨fun hend => ?_, by rw [ho]; rfl, rfl, by rw [hrest]; rfl⟩
    rw [rest_of_atEnd hc hend] at hrest
    cases hrest

theorem negated_of_failed (name : Text) (hc : c.NotBefore) (hend : ¬c.atEnd) (h : (outcome c).succeeded = false) :
    ∃ ch, negated name outcome c = .success (.text [ch]) (c.advance 1) := by
  obtain ⟨ch, t, hrest, -⟩ := current_of_not_atEnd hc hend
  cases ho : outcome c with
  | success v d => exact absurd h (Outcome.not_failed ho)
  | failure m => exact ⟨ch, by rw [negated, hrest, ho]⟩

theorem takesTexts_negated (name : Text) (outcome : Cursor → Outcome) : TakesTexts (negated name outcome) := by
  intro c hc v d h
  obtain ⟨-, -, rfl, rfl⟩ := negated_eq_success hc.1 h
  exact ⟨⟨_, rfl⟩, (reaches_iff hc).1 (reaches_advance c Int.one_nonneg)⟩

/-- The first place from `c` on where there is a match, or the end. -/
structure SkipsTo (outcome : Cursor → Outcome) (c e : Cursor) : Prop where
  reaches : c.Reaches e
  skipped : ∀ d, c.Scans d → d.pos < e.pos → (outcome d).succeeded = false
  stops : ¬e.atEnd → (outcome e).succeeded = true

theorem Greedy.skipsTo {steps : List (Text × Cursor)} (h : Greedy (negated name outcome) c steps)
    (hc : c.InSource) : SkipsTo outcome c (lastCursor c steps) := by
  induction h with
  | @stop c hstays =>
      change SkipsTo outcome c c
      refine ⟨.refl c, fun d hd hlt => absurd hd.2.1 (Int.not_le.2 hlt), fun hend => ?_⟩
      by_contra hno
      obtain ⟨ch, hch⟩ := negated_of_failed name hc.1 hend (Bool.eq_false_of_not_eq_true hno)
      have hpos := hstays _ _ hch
      rw [atEnd_iff] at hend
      simp only [advance] at hpos
      omega
  | @step c d t steps h hlt _ ih =>
      obtain ⟨hend, hfailed, rfl, -⟩ := negated_eq_success hc.1 h
      have hmoved := reaches_advance c (n := 1) Int.one_nonneg
      have hrest := ih (onward_inSource.reaches hc hmoved)
      refine ⟨hmoved.trans hrest.reaches, fun d hd hbefore => ?_, hrest.stops⟩
      by_cases hpos : d.pos = c.pos
      · rw [hd.eq_of_pos (scans_self hend) hpos]
        exact hfailed
      · exact hrest.skipped d ((scans_advance_iff hend).2 ⟨hd, hpos⟩) hbefore

theorem SkipsTo.start_eq {found : Found} (hc : c.InSource) (h : SkipsTo outcome c e)
    (hfound : FirstPlace outcome c found) : found.start = e := by
  have hle : ¬found.start.pos < e.pos := fun hlt =>
    Outcome.not_failed hfound.matched (h.skipped _ hfound.scanned hlt)
  obtain ⟨hs, -, hlt⟩ := hfound.scanned
  have hend : ¬e.atEnd := by
    rw [atEnd_iff, h.reaches.1]
    omega
  have hscans := h.reaches.scans hc hend
  have hge : ¬e.pos < found.start.pos := fun hbefore =>
    Bool.false_ne_true ((hfound.leftmost e hscans hbefore).symm.trans (h.stops hend))
  exact hfound.scanned.eq_of_pos hscans (by omega)

theorem SkipsTo.eq_toEnd (hc : c.InSource) (h : SkipsTo outcome c e)
    (hno : ∀ d, c.Scans d → (outcome d).succeeded = false) : e = c.toEnd := by
  rcases reaches_cases hc h.reaches with hscans | heq
  · have hend : ¬e.atEnd := by
      rw [atEnd_iff, hscans.1]
      exact Int.not_le.2 hscans.2.2
    exact absurd ((hno e hscans).symm.trans (h.stops hend)) Bool.false_ne_true
  · exact heq

/-! ## The parts and the scan -/

namespace Parser

variable {p : Parser σ}

/-- `p` behind the characters where it does not match. -/
def skipTo (p : Parser σ) : Parser σ :=
  p.negate.zeroOrMore.seq p

theorem negate_computes (hp : p.Computes outcome) : p.negate.Computes (negated p.name outcome) := by
  intro c hc
  unfold negate
  dsimp only
  by_cases hend : c.atEnd
  · rw [if_pos hend, negated, rest_of_atEnd hc.1 hend]
    exact gives_pure _
  · obtain ⟨ch, t, hrest, hch⟩ := current_of_not_atEnd hc.1 hend
    have hrun := hp c hc
    rw [if_neg hend, negated, hrest]
    refine hrun.bind ?_
    cases outcome c with
    | success v d => exact gives_pure _
    | failure m =>
        dsimp only
        rw [hch]
        exact gives_pure _

theorem skipTo_gives (hp : p.Computes outcome) (hc : c.InSource) :
    ∃ e, SkipsTo outcome c e ∧ (p.skipTo.run c).Gives (match outcome e with
      | .success v d => .success v d
      | .failure m => .failure (m.rewind c)) := by
  have ht := takesTexts_negated p.name outcome
  obtain ⟨steps, h⟩ := Greedy.exists ht hc
  refine ⟨_, h.skipsTo hc, (zeroOrMore_gives (negate_computes hp) ht.endsAhead h.chain h.stays hc).bind ?_⟩
  refine (hp _ (h.inSource ht hc)).bind ?_
  cases outcome (lastCursor c steps) with
  | success v d => exact gives_pure _
  | failure m => exact gives_pure _

theorem skipTo_gives_found (hp : p.Computes outcome) (hc : c.InSource) {found : Found}
    (h : FirstPlace outcome c found) : (p.skipTo.run c).Gives (.success found.value found.stop) := by
  obtain ⟨e, he, hrun⟩ := skipTo_gives hp hc
  rwa [← he.start_eq hc h, h.matched] at hrun

/-- Where nothing matches before the end, what happens at the end decides. -/
theorem skipTo_gives_at_end (hp : p.Computes outcome) (hc : c.InSource)
    (h : ∀ d, c.Scans d → (outcome d).succeeded = false) :
    (p.skipTo.run c).Gives (match outcome c.toEnd with
      | .success v d => .success v d
      | .failure m => .failure (m.rewind c)) := by
  obtain ⟨e, he, hrun⟩ := skipTo_gives hp hc
  rwa [he.eq_toEnd hc h] at hrun

theorem skipTo_fails_iff (hp : p.Computes outcome) (hc : c.InSource) (s : σ) :
    (∃ m s', (p.skipTo.run c).run s = .ok (.failure m) s') ↔ ∀ d, c.Reaches d → (outcome d).succeeded = false := by
  obtain ⟨r, -, hsearched⟩ := search_gives hp hc
  cases r with
  | some found =>
      obtain ⟨s', hrun⟩ := skipTo_gives_found hp hc hsearched s
      refine iff_of_false ?_ fun hno => Outcome.not_failed hsearched.matched (hno _ (hsearched.scanned.reaches hc))
      rintro ⟨m, s'', hfailed⟩
      cases hrun.symm.trans hfailed
  | none =>
      obtain ⟨s', hrun⟩ := skipTo_gives_at_end hp hc hsearched s
      cases ho : outcome c.toEnd with
      | success v d =>
          rw [ho] at hrun
          refine iff_of_false ?_ fun hno => Outcome.not_failed ho (hno _ (reaches_toEnd c))
          rintro ⟨m, s'', hfailed⟩
          cases hrun.symm.trans hfailed
      | failure m =>
          rw [ho] at hrun
          refine iff_of_true ⟨_, s', hrun⟩ fun d hd => ?_
          rcases reaches_cases hc hd with hscans | rfl
          · exact hsearched d hscans
          · rw [ho]
            rfl

theorem until_reports_iff (hp : p.Computes outcome) (hc : c.InSource) (yield : Yield) (stance : Stance) (s : σ) :
    (∃ s', ((Parser.until yield stance p).run c).run s = .ok (neverMatched c p) s') ↔
      ∀ d, c.Scans d → (outcome d).succeeded = false :=
  ⟨fun ⟨_, h⟩ => (until_failure hp hc h).2, fun h => until_gives_none hp hc h yield stance s⟩

/-- A scan reports that its parser never matched exactly if it matches at no place before the end of the input. Its
parts put together fail exactly if it matches at no place up to the end. What the scan finds, they find too, and they
find more only where nothing matches before the end. -/
theorem until_overlooks_the_end (hp : p.Computes outcome) (hc : c.InSource) (s : σ) :
    (∀ yield stance, (∃ s', ((Parser.until yield stance p).run c).run s = .ok (neverMatched c p) s') ↔
      ∀ d, c.Scans d → (outcome d).succeeded = false) ∧
    ((∃ m s', (p.skipTo.run c).run s = .ok (.failure m) s') ↔ ∀ d, c.Reaches d → (outcome d).succeeded = false) ∧
    ∀ v d, (∃ s', ((Parser.until .last .consuming p).run c).run s = .ok (.success v d) s') ↔
      (∃ s', (p.skipTo.run c).run s = .ok (.success v d) s') ∧ ∃ e, c.Scans e ∧ (outcome e).succeeded = true := by
  refine ⟨fun yield stance => until_reports_iff hp hc yield stance s, skipTo_fails_iff hp hc s, fun v d => ?_⟩
  obtain ⟨r, -, hsearched⟩ := search_gives hp hc
  cases r with
  | some found =>
      have hvalue : yieldFound c found .last = .ok found.value := rfl
      obtain ⟨s₁, hscan⟩ := until_gives_found hp hc hsearched hvalue .consuming s
      obtain ⟨s₂, hparts⟩ := skipTo_gives_found hp hc hsearched s
      rw [hscan, hparts]
      have hmatch : ∃ e, c.Scans e ∧ (outcome e).succeeded = true :=
        ⟨found.start, hsearched.scanned, by rw [hsearched.matched]; rfl⟩
      simp [hmatch, Stance.place]
  | none =>
      obtain ⟨s', hscan⟩ := until_gives_none hp hc hsearched .last .consuming s
      refine iff_of_false ?_ ?_
      · rintro ⟨s'', hfound⟩
        cases hscan.symm.trans hfound
      · rintro ⟨-, e, he, hmatch⟩
        exact Bool.false_ne_true ((hsearched e he).symm.trans hmatch)

/-! ## A line end or the end of the input -/

def lineEndOrEnd : Parser σ :=
  (satisfy .newline).choice (textExact [])

/-- The next character if it passes the test. -/
def matchChar (k : CharClass) (test : Char → Bool) (c : Cursor) : Outcome :=
  match c.rest with
  | [] => .fail c (Wording.expected k.name) k.expected
  | ch :: _ =>
    if test ch then .success (.text [ch]) (c.advance 1) else .fail c (Wording.expected k.name) k.expected

theorem satisfy_computes {k : CharClass} {test : Char → Bool} (hk : k.test = .total test) :
    (satisfy k : Parser σ).Computes (matchChar k test) := by
  intro c hc s
  unfold matchChar
  cases hrest : c.rest with
  | nil => exact ⟨s, run_satisfy_fail hc.1 (by rw [hrest]; nofun) s⟩
  | cons ch t =>
      dsimp only
      split
      · rename_i hch
        exact ⟨s, run_satisfy_cons hc.1 hrest (by rw [hk, Test.total, hch]) s⟩
      · rename_i hch
        refine ⟨s, run_satisfy_fail hc.1 (fun d hd => ?_) s⟩
        rw [hrest] at hd
        cases hd
        rw [hk, Test.total, Bool.eq_false_of_not_eq_true hch]

theorem lineEndOrEnd_computes : ∃ outcome, (lineEndOrEnd : Parser σ).Computes outcome :=
  ⟨_, firstOf_computes (satisfy_computes (k := .newline) rfl) (.cons (fun _ _ => gives_pure _) .nil)⟩

/-- Behind the line end of the source, a scan for a line end or the end of the input reports that there is none,
and its parts find the end. -/
theorem until_overlooks_the_end_of_last_line :
    let p : Parser Unit := lineEndOrEnd
    let c : Cursor := { source := "a\nbc", pos := 2 }
    ∃ outcome, p.Computes outcome ∧ c.InSource ∧ (∀ d, c.Scans d → (outcome d).succeeded = false) ∧
      ¬(∀ d, c.Reaches d → (outcome d).succeeded = false) ∧
      (p.skipTo.run c).run () = .ok (.success (.text []) c.toEnd) () := by
  intro p c
  obtain ⟨outcome, hp⟩ := lineEndOrEnd_computes (σ := Unit)
  have hc : c.InSource := ⟨by decide, by decide⟩
  have hparts : (p.skipTo.run c).run () = .ok (.success (.text []) c.toEnd) () := rfl
  obtain ⟨hreports, hfails, -⟩ := until_overlooks_the_end hp hc ()
  refine ⟨outcome, hp, hc, (hreports .last .consuming).1 ⟨(), rfl⟩, fun hno => ?_, hparts⟩
  obtain ⟨m, s', h⟩ := hfails.2 hno
  cases hparts.symm.trans h

/-- In `ab`, a scan for a line end or the end of the input reports that neither is there. -/
theorem until_misses_end_of_single_line :
    let p : Parser Unit := lineEndOrEnd
    let c : Cursor := { source := "ab" }
    (∃ outcome, p.Computes outcome) ∧ c.InSource ∧ c.Reaches c.toEnd ∧
      (p.run c.toEnd).run () = .ok (.success (.text []) c.toEnd) () ∧
      ((Parser.until .last .consuming p).run c).run () = .ok (neverMatched c p) () :=
  ⟨lineEndOrEnd_computes, ⟨by decide, by decide⟩, reaches_toEnd _, rfl, rfl⟩

end Parser

end ParserAlgebra
