import ParserAlgebra.Parser.Region
import ParserAlgebra.Proofs.Absorption
import ParserAlgebra.Proofs.EndOfInput
import ParserAlgebra.Proofs.Lossless

/-!
# Regions and scans as compositions

The parsers for regions are loops that stop at the end of the input without a run of the closing delimiter there.
Where that delimiter does not match at the end, they come to the same places as smaller parsers one after another.
-/

namespace ParserAlgebra

open Cursor Parse

variable {σ : Type} {outcome fa fb : Cursor → Outcome} {c d : Cursor} {v : Value}

namespace Parser

variable {a b p : Parser σ} {ps : List (Parser σ)}

/-! ## Parsers in turn -/

/-- The matches of the parsers one after another, each as its value and the cursor behind it. Nothing if one of the
parsers fails. -/
def inTurn : List (Parser σ) → Cursor → Parse σ (Option (List (Value × Cursor)))
  | [], _ => return some []
  | p :: ps, c => do
    match ← p.run c with
    | .failure _ => return none
    | .success v d => return (← inTurn ps d).map ((v, d) :: ·)

theorem inTurn_gives_nil (c : Cursor) : (inTurn ([] : List (Parser σ)) c).Gives (some []) :=
  gives_pure _

theorem inTurn_gives_cons {r : Option (List (Value × Cursor))} (h : (p.run c).Gives (.success v d))
    (hr : (inTurn ps d).Gives r) : (inTurn (p :: ps) c).Gives (r.map ((v, d) :: ·)) :=
  h.bind (hr.bind (gives_pure _))

theorem inTurn_gives_none {m : Mismatch} (h : (p.run c).Gives (.failure m)) : (inTurn (p :: ps) c).Gives none :=
  h.bind (gives_pure _)

/-- The parts of a region: to the first opening delimiter, past its repetitions, to the closing delimiter, past it. -/
def regionParts (opening closing : Parser σ) : List (Parser σ) :=
  [.until .last .consuming opening, opening.zeroOrMore, closing.negate.zeroOrMore, closing]

/-! ## The opening delimiter -/

/-- The loop for the opening delimiter comes to the place that its parts come to, or both find that it never matches. -/
theorem opening_cases (ha : a.Computes fa) (hahead : EndsAhead fa) (hc : c.InSource) :
    (∃ v d more inner, ((Parser.until .last .consuming a).run c).Gives (.success v d) ∧
      (a.zeroOrMore.run d).Gives (.success (.tuple more) inner) ∧ (openRegion a c).Gives (some inner) ∧
      inner.InSource) ∨
    ((Parser.until .last .consuming a).run c).Gives (neverMatched c a) ∧ (openRegion a c).Gives none := by
  obtain ⟨r, hsearch, hsearched⟩ := search_gives ha hc
  cases r with
  | none => exact Or.inr ⟨until_gives_none ha hc hsearched _ _, hsearch.bind (gives_pure _)⟩
  | some found =>
      have hstart := hsearched.scanned.inSource hc
      have hstop := hahead.inSource hstart hsearched.matched
      obtain ⟨more, inner, hchain, hstays⟩ := hahead.exists_chain hstop
      have hinner := hahead.inSource_of_chain hstop hchain
      exact Or.inl ⟨_, _, more, inner, until_gives_found ha hc hsearched rfl .consuming,
        zeroOrMore_gives ha hahead hchain hstays hstop,
        hsearch.bind ((repeated_atEnd_gives ha hahead hchain hstays hstop).bind (gives_pure _)), hinner⟩

/-! ## The closing delimiter -/

theorem lossless_of_negated {name : Text} (hc : c.InSource) (h : negated name outcome c = .success v d) :
    StepRel.lossless c v d := by
  obtain ⟨-, -, rfl, rfl⟩ := negated_eq_success hc.1 h
  exact lossless_advance hc rfl

/-- The characters where `b` does not match make up the text as far as the search for `b` gets. It gets to the end only
if `b` fails there too. -/
theorem closing_cases (hb : b.Computes fb) (hend : ∀ c : Cursor, c.InSource → c.atEnd → (fb c).succeeded = false)
    (hc : c.InSource) :
    ∃ chars e, (b.negate.zeroOrMore.run c).Gives (.success (.tuple chars) e) ∧ e.InSource ∧
      Value.concat? chars = some (e.since c) ∧
      ((∃ v d, fb e = .success v d ∧ (search b c).Gives (some { start := e, value := v, stop := d })) ∨
        (∃ m, fb e = .failure m) ∧ (search b c).Gives none) := by
  have ht := takesTexts_negated b.name fb
  obtain ⟨steps, hsteps⟩ := Greedy.exists ht hc
  have he := hsteps.inSource ht hc
  have hlossless := hsteps.chain.imp onward_inSource ht.endsAhead.forward
    (fun _ _ _ hc hm => lossless_of_negated hc hm.1) hc
  refine ⟨_, _, zeroOrMore_gives (negate_computes hb) ht.endsAhead hsteps.chain hsteps.stays hc, he,
    hlossless.concat_lossless hc, ?_⟩
  obtain ⟨r, hsearch, hsearched⟩ := search_gives hb hc
  cases r with
  | some found =>
      have hstart := (hsteps.skipsTo hc).start_eq hc hsearched
      have hmatched := hsearched.matched
      rw [hstart] at hmatched
      cases found
      cases hstart
      exact Or.inl ⟨_, _, hmatched, hsearch⟩
  | none =>
      -- The characters go on to the end then, where the search does not run `b`, but the parts do.
      have hfails := hend _ he (by
        rw [(hsteps.skipsTo hc).eq_toEnd hc hsearched, atEnd_iff]
        exact Int.le_refl _)
      cases ho : fb (lastCursor c steps) with
      | success v d => exact absurd hfails (Outcome.not_failed ho)
      | failure m => exact Or.inr ⟨⟨m, rfl⟩, hsearch⟩

/-! ## Scans for several parsers -/

theorem collectAt_eq_collect (ps : List (Parser σ)) (c : Cursor) :
    collectAt ps c = collect (ps.map (Parser.until .last .consuming)) c := by
  induction ps generalizing c with
  | nil => rfl
  | cons p ps ih =>
      rw [List.map_cons, collect, collectAt]
      simp only [Parser.until, bind_assoc]
      congr 1
      funext found
      cases found with
      | none => rfl
      | some f =>
          change (collectAt ps f.stop >>= _) = (collect _ f.stop >>= _)
          rw [ih]

theorem seqAt_run_eq (stance : Stance) (ps : List (Parser σ)) (c : Cursor) :
    (seqAt stance ps).run c = (seqN stance (ps.map (Parser.until .last .consuming))).run c := by
  simp only [seqAt, seqN, collectAt_eq_collect]

theorem collectAt_gives {outcomes : List (Cursor → Outcome)} (hps : List.Forall₂ Parser.Computes ps outcomes)
    (hahead : ∀ outcome ∈ outcomes, EndsAhead outcome) (hc : c.InSource) :
    ∃ vs e, (collectAt ps c).Gives (vs, e) := by
  induction hps generalizing c with
  | nil => exact ⟨[], c, gives_pure _⟩
  | cons hp _ ih =>
      obtain ⟨hfirst, hlater⟩ := List.forall_mem_cons.1 hahead
      obtain ⟨r, hsearch, hsearched⟩ := search_gives hp hc
      cases r with
      | none => exact ⟨[], c, hsearch.bind (gives_pure _)⟩
      | some found =>
          have hstart := hsearched.scanned.inSource hc
          obtain ⟨vs, e, hrest⟩ := ih hlater (hfirst.inSource hstart hsearched.matched)
          exact ⟨found.value :: vs, e, hsearch.bind (hrest.bind (gives_pure _))⟩

/-! ## The result -/

/-- Where the parts of a region all match in turn, its text is what stands between the delimiters, joined from the
characters, and the parser that captures it stops where the closing delimiter begins; the parser that skips it stops
behind the repetitions of that. Where one of the parts fails, both fail and stay. And going ahead to several parsers is
the sequence of the scans for each. -/
theorem scanning_loops_eq_compositions (ha : a.Computes fa) (hb : b.Computes fb) (haheadA : EndsAhead fa)
    (haheadB : EndsAhead fb) (hend : ∀ c : Cursor, c.InSource → c.atEnd → (fb c).succeeded = false)
    {outcomes : List (Cursor → Outcome)} (hps : List.Forall₂ Parser.Computes ps outcomes)
    (hahead : ∀ outcome ∈ outcomes, EndsAhead outcome) (hc : c.InSource) :
    (∃ capture ignore, captureBetween (.parser a) (.parser b) = .ok capture ∧
      ignoreBetween (.parser a) (.parser b) = .ok ignore ∧
      ((∃ opened more chars t e closed again f,
        (inTurn (regionParts a b) c).Gives (some [opened, more, (.tuple chars, e), closed]) ∧
        Value.concat? chars = some t ∧ (capture.run c).Gives (.success (.text t) e) ∧
        (b.zeroOrMore.run closed.2).Gives (.success again f) ∧ (ignore.run c).Gives (.success .none f)) ∨
      (inTurn (regionParts a b) c).Gives none ∧ capture.FailsAt c ∧ ignore.FailsAt c)) ∧
    ∃ vs e, ∀ stance : Stance, ((seqAt stance ps).run c).Gives (.success (.tuple vs) (stance.place c e)) ∧
      ((seqN stance (ps.map (Parser.until .last .consuming))).run c).Gives
        (.success (.tuple vs) (stance.place c e)) := by
  refine ⟨⟨_, _, rfl, rfl, ?regions⟩, ?scans⟩
  case regions =>
    rcases opening_cases ha haheadA hc with ⟨v, d, more, inner, huntil, hmore, hopened, hinner⟩ | ⟨huntil, hopened⟩
    · obtain ⟨chars, e, hchars, he, htext, hclosing⟩ := closing_cases hb hend hinner
      have hrun := hb e he
      rcases hclosing with ⟨w, stop, hmatched, hsearch⟩ | ⟨⟨m, hfailed⟩, hsearch⟩
      · rw [hmatched] at hrun
        have hstop := onward_inSource.reaches he ((reaches_iff he).2 (haheadB e he w stop hmatched))
        obtain ⟨again, f, hchain, hstays⟩ := haheadB.exists_chain hstop
        refine Or.inl ⟨(v, d), (.tuple more, inner), chars, _, e, (w, stop), .tuple again, f, ?_, htext, ?_,
          zeroOrMore_gives hb haheadB hchain hstays hstop, ?_⟩
        · exact inTurn_gives_cons huntil (inTurn_gives_cons hmore (inTurn_gives_cons hchars
            (inTurn_gives_cons hrun (inTurn_gives_nil _))))
        · exact hopened.bind (hsearch.bind (gives_pure _))
        · exact hopened.bind (hsearch.bind
            ((repeated_atEnd_gives hb haheadB hchain hstays hstop).bind (gives_pure _)))
      · rw [hfailed] at hrun
        refine Or.inr ⟨?_, ⟨_, hopened.bind (hsearch.bind (gives_pure _)), rfl⟩,
          ⟨_, hopened.bind (hsearch.bind (gives_pure _)), rfl⟩⟩
        exact inTurn_gives_cons huntil (inTurn_gives_cons hmore (inTurn_gives_cons hchars (inTurn_gives_none hrun)))
    · exact Or.inr ⟨inTurn_gives_none huntil, ⟨_, hopened.bind (gives_pure _), rfl⟩,
        ⟨_, hopened.bind (gives_pure _), rfl⟩⟩
  case scans =>
    obtain ⟨vs, e, hvs⟩ := collectAt_gives hps hahead hc
    refine ⟨vs, e, fun stance => ?_⟩
    rw [← seqAt_run_eq, and_self]
    exact hvs.bind (gives_pure _)

/-- Opening delimiters of one or two characters, and a closing one that is empty in front of a single `>`: the region
of `x<<<a>>>` begins behind the last `<`, and what is skipped ends in front of the last `>`. -/
theorem scanning_loops_eq_compositions_uneven :
    let fa (c : Cursor) : Outcome :=
      if c.startsWith "<<" then .success (.text "<<") (c.advance 2)
      else if c.startsWith "<" then .success (.text "<") (c.advance 1) else .fail c Wording.noMatch []
    let fb (c : Cursor) : Outcome :=
      if c.startsWith ">>" then .success (.text ">>") (c.advance 2)
      else if c.startsWith ">" then .success .none c else .fail c Wording.noMatch []
    let a : Parser Nat := { run := fun c => do modify (· + 1); return fa c }
    let b : Parser Nat := { run := fun c => do modify (· + 1); return fb c }
    let c : Cursor := { source := "x<<<a>>>" }
    let parts : List (Value × Cursor) := [(.text "<<", c.advance 3), (.tuple [.text "<"], c.advance 4),
      (.tuple [.text "a"], c.advance 5), (.text ">>", c.advance 7)]
    a.Computes fa ∧ b.Computes fb ∧ EndsAhead fa ∧ EndsAhead fb ∧
      (∀ c : Cursor, c.InSource → c.atEnd → (fb c).succeeded = false) ∧ c.InSource ∧
      ∃ capture ignore, captureBetween (.parser a) (.parser b) = .ok capture ∧
        ignoreBetween (.parser a) (.parser b) = .ok ignore ∧
        (inTurn (regionParts a b) c).Gives (some parts) ∧
        (capture.run c).Gives (.success (.text "a") (c.advance 5)) ∧
        (ignore.run c).Gives (.success .none (c.advance 7)) ∧
        ((seqAt .consuming [a, b]).run c).Gives (.success (.tuple [.text "<<", .text ">>"]) (c.advance 7)) := by
  intro fa fb a b c parts
  have ha : a.Computes fa := fun _ _ s => ⟨s + 1, rfl⟩
  have hb : b.Computes fb := fun _ _ s => ⟨s + 1, rfl⟩
  have haheadA : EndsAhead fa := by
    intro c hc v d h
    simp only [fa] at h
    split at h
    · cases h
      exact (reaches_iff hc).1 (reaches_advance c (by decide))
    · split at h
      · cases h
        exact (reaches_iff hc).1 (reaches_advance c (by decide))
      · cases h
  have haheadB : EndsAhead fb := by
    intro c hc v d h
    simp only [fb] at h
    split at h
    · cases h
      exact (reaches_iff hc).1 (reaches_advance c (by decide))
    · split at h
      · cases h
        exact (reaches_iff hc).1 (Reaches.refl c)
      · cases h
  have hend : ∀ c : Cursor, c.InSource → c.atEnd → (fb c).succeeded = false := by
    intro c hc hend
    have hdouble : c.startsWith ">>" = false := startsWith_of_atEnd hc.1 hend (by decide)
    have hsingle : c.startsWith ">" = false := startsWith_of_atEnd hc.1 hend (by decide)
    simp only [fb, hdouble, hsingle]
    rfl
  have hc : c.InSource := ⟨by decide, by decide⟩
  obtain ⟨⟨capture, ignore, hcapture, hignore, hregions⟩, vs, e, hscans⟩ :=
    scanning_loops_eq_compositions ha hb haheadA haheadB hend (.cons ha (.cons hb .nil))
      (List.forall_mem_cons.2 ⟨haheadA, List.forall_mem_cons.2 ⟨haheadB, nofun⟩⟩) hc
  have hscan := (hscans .consuming).1
  have hvalues := hscan.eq_of_run (b := .success (.tuple [.text "<<", .text ">>"]) (c.advance 7)) (s := 0) rfl
  rw [hvalues] at hscan
  refine ⟨ha, hb, haheadA, haheadB, hend, hc, capture, ignore, hcapture, hignore, ?_⟩
  have hinTurn : ∀ {r}, (inTurn (regionParts a b) c).Gives r → some parts = r :=
    fun h => (h.eq_of_run (s := 0) rfl).symm
  rcases hregions with ⟨opened, more, chars, t, e, closed, again, f, hparts, htext, htaken, -, hskip⟩ | ⟨hparts, -⟩
  · have heq := hinTurn hparts
    simp only [parts, Option.some.injEq, List.cons.injEq, Prod.mk.injEq, Value.tuple.injEq] at heq
    obtain ⟨rfl, rfl, ⟨rfl, rfl⟩, rfl, -⟩ := heq
    cases Option.some.inj htext
    cases hignore
    rw [hskip.eq_of_run (b := .success .none (c.advance 7)) (s := 0) rfl] at hskip
    exact ⟨hparts, htaken, hskip, hscan⟩
  · cases hinTurn hparts

end Parser

end ParserAlgebra
