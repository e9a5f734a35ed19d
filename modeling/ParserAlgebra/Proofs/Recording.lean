import Mathlib.Logic.Function.Basic
import ParserAlgebra.Proofs.LineWalk
import ParserAlgebra.Proofs.Observation
import ParserAlgebra.Proofs.Tracking

/-!
# What scanners hold

Nothing but a tracker writes to a scanner, at the end of a match, and nothing is taken back.
-/

namespace ParserAlgebra

open Cursor Parse

/-! ## Consistent records -/

namespace Mark

variable {c d : Cursor} {mark : Mark}

/-- What line, column, position and last character of a record say of each other. -/
structure Consistent (mark : Mark) : Prop where
  untaken : mark.position = 0 ↔ mark.lastChar = none
  beginning : mark.position = 0 → mark.line = 1 ∧ mark.column = 1
  bounded : (mark.line - 1) + (mark.column - 1) ≤ mark.position
  behindBreak : mark.lastChar = some ['\r'] ∨ mark.lastChar = some ['\n'] → mark.column = 1

/-- The record of the match from `c` to `d`, which took the text between them. -/
structure Records (mark : Mark) (c d : Cursor) : Prop where
  between : Mark.between c d = .ok mark
  consistent : mark.Consistent
  unbroken : (d.since c).any Text.isBreak = false → mark.line = 1 ∧ mark.column = mark.position + 1

theorem consistent_initial : ({} : Mark).Consistent where
  untaken := iff_of_true rfl rfl
  beginning _ := ⟨rfl, rfl⟩
  bounded := by decide
  behindBreak h := by rcases h with h | h <;> cases h

theorem lastChar_of_between (h : between c d = .ok mark) :
    mark.position = 0 ∧ mark.lastChar = none ∨
      mark.position ≠ 0 ∧ ∃ ch, c.source.at? (d.pos - 1) = some ch ∧ mark.lastChar = some [ch] := by
  unfold between at h
  dsimp only at h
  split at h
  · rename_i h0
    cases h
    exact Or.inl ⟨h0, rfl⟩
  · rename_i h0
    split at h
    · rename_i ch hch
      cases h
      exact Or.inr ⟨h0, ch, hch, rfl⟩
    · cases h

theorem records_of_between (hc : c.InSource) (hd : c.Reaches d) (h : between c d = .ok mark) :
    mark.Records c d := by
  obtain ⟨hs, hle, hl⟩ := (reaches_iff hc).1 hd
  obtain ⟨hplace, hposition⟩ := of_between h
  obtain ⟨i, hi⟩ := Int.eq_ofNat_of_zero_le hc.1
  obtain ⟨j, hj⟩ := Int.eq_ofNat_of_zero_le (Int.le_trans hc.1 hle)
  have hij : i ≤ j := by omega
  have hjl : j ≤ c.source.length := by omega
  rw [hi, hj, Text.lineCol_eq_walk hij hjl] at hplace
  rw [hi, hj] at hposition
  have hline : mark.line = (c.source.walk i j).1 := congrArg Prod.fst hplace
  have hcolumn : mark.column = (c.source.walk i j).2 := congrArg Prod.snd hplace
  refine ⟨h, ⟨?untaken, ?beginning, ?bounded, ?behindBreak⟩, ?unbroken⟩
  case untaken =>
    rcases lastChar_of_between h with ⟨h0, hnone⟩ | ⟨h0, ch, -, hsome⟩
    · exact iff_of_true h0 hnone
    · exact iff_of_false h0 (by rw [hsome]; exact nofun)
  case beginning =>
    intro h0
    have heq : j = i := by omega
    rw [hline, hcolumn, heq, Text.walk_self]
    exact ⟨rfl, rfl⟩
  case bounded =>
    obtain ⟨-, -, hbound⟩ := Text.walk_bounded c.source hij
    rw [hline, hcolumn, hposition]
    exact hbound
  case behindBreak =>
    intro hbreak
    rcases lastChar_of_between h with ⟨-, hnone⟩ | ⟨h0, ch, hch, hsome⟩
    · rw [hnone] at hbreak
      rcases hbreak with hbreak | hbreak <;> cases hbreak
    · obtain ⟨k, rfl⟩ := Nat.exists_eq_add_one_of_ne_zero (show j ≠ 0 by omega)
      have hlast : c.source[k]? = some ch := by
        have hpred : d.pos - 1 = (k : Nat) := by omega
        rw [hpred, Text.at?, if_neg (by omega), Text.index_natCast] at hch
        exact hch
      have hb : Text.isBreak ch = true := by
        rw [hsome] at hbreak
        rcases hbreak with hbreak | hbreak <;> cases hbreak <;> rfl
      rw [hcolumn]
      exact Text.column_walk_behind_break (by omega) hlast hb
  case unbroken =>
    intro hn
    rw [since, hs, hi, hj, Text.slice_natCast] at hn
    rw [Text.walk_unbroken hij hjl hn] at hline hcolumn
    exact ⟨hline, by omega⟩

end Mark

/-! ## Ledgers -/

/-- What a number of scanners hold, and all records that have been written to them, in order. -/
structure Ledger (ι : Type) where
  marks : ι → Mark := fun _ => {}
  written : List (ι × Mark) := []

namespace Ledger

variable {ι : Type} [DecidableEq ι] {A : ι → Prop} {l l' l'' : Ledger ι}

def write (i : ι) (mark : Mark) (l : Ledger ι) : Ledger ι where
  marks := Function.update l.marks i mark
  written := l.written ++ [(i, mark)]

@[simp] theorem marks_write_self (l : Ledger ι) (i : ι) (mark : Mark) : (l.write i mark).marks i = mark :=
  Function.update_self ..

theorem marks_write_of_ne (l : Ledger ι) {i j : ι} (h : j ≠ i) (mark : Mark) :
    (l.write i mark).marks j = l.marks j :=
  Function.update_of_ne h ..

/-- The last record that was written to the scanner. -/
def last? (l : Ledger ι) (i : ι) : Option Mark :=
  (l.written.filter (·.1 = i)).getLast?.map (·.2)

/-- What trackers compute for matches is written to scanners of which `A` holds, and nothing else happens. -/
inductive Grows (A : ι → Prop) (l : Ledger ι) : Ledger ι → Prop
  | refl : Grows A l l
  | write {l' : Ledger ι} {i : ι} {mark : Mark} {c d : Cursor} : Grows A l l' → A i → c.InSource →
      c.Reaches d → Mark.between c d = .ok mark → Grows A l (l'.write i mark)

theorem Grows.trans (h : Grows A l l') (h' : Grows A l' l'') : Grows A l l'' := by
  induction h' with
  | refl => exact h
  | write _ hi hc hd hmark ih => exact .write ih hi hc hd hmark

theorem Grows.unnamed (h : Grows A l l') {j : ι} (hj : ¬A j) : l'.marks j = l.marks j := by
  induction h with
  | refl => rfl
  | @write _ i _ _ _ _ hi _ _ _ ih =>
      have hne : j ≠ i := fun heq => hj (heq ▸ hi)
      rw [marks_write_of_ne _ hne, ih]

theorem last?_write (l : Ledger ι) (i j : ι) (mark : Mark) :
    (l.write i mark).last? j = if j = i then some mark else l.last? j := by
  by_cases h : j = i
  · subst h
    simp [last?, write]
  · simp [last?, write, h, Ne.symm h]

/-- Each scanner holds the last record written to it, and each record is that of a match. -/
structure UpToDate (l : Ledger ι) : Prop where
  holds : ∀ i, l.marks i = (l.last? i).getD {}
  records : ∀ entry ∈ l.written, ∃ c d : Cursor, c.InSource ∧ c.Reaches d ∧ entry.2.Records c d

theorem upToDate_initial : ({} : Ledger ι).UpToDate where
  holds _ := rfl
  records _ h := by cases h

theorem Grows.upToDate (h : Grows A l l') (hl : l.UpToDate) : l'.UpToDate := by
  induction h with
  | refl => exact hl
  | @write l' i mark c d _ _ hc hd hmark ih =>
      refine ⟨fun j => ?_, fun entry hentry => ?_⟩
      · rw [last?_write]
        by_cases hj : j = i
        · rw [if_pos hj, hj, marks_write_self, Option.getD_some]
        · rw [if_neg hj, marks_write_of_ne _ hj, ih.holds]
      · rcases List.mem_append.1 hentry with hentry | hentry
        · exact ih.records entry hentry
        · rw [List.mem_singleton.1 hentry]
          exact ⟨c, d, hc, hd, Mark.records_of_between hc hd hmark⟩

theorem UpToDate.consistent (h : l.UpToDate) (i : ι) : (l.marks i).Consistent := by
  rw [h.holds]
  cases hlast : l.last? i with
  | none => exact Mark.consistent_initial
  | some mark =>
      obtain ⟨entry, hentry, rfl⟩ := Option.map_eq_some_iff.1 hlast
      obtain ⟨c, d, -, -, hmark⟩ := h.records entry (List.mem_filter.1 (List.mem_of_getLast? hentry)).1
      exact hmark.consistent

end Ledger

/-! ## Runs that write to ledgers -/

/-- The state that a run leaves, also if it ends with a fault. -/
def Parse.finalState {σ α : Type} (m : Parse σ α) (s : σ) : σ :=
  match m.run s with
  | .ok _ t | .error _ t => t

/-- One and the same cursor of a source. -/
def Cursor.SameInSource (c d : Cursor) : Prop :=
  c = d ∧ c.InSource

theorem similar_sameInSource : Similar SameInSource where
  atEnd h := similar_eq.atEnd h.1
  rest h := similar_eq.rest h.1
  remaining h := similar_eq.remaining h.1
  current h := similar_eq.current h.1
  advance h := ⟨similar_eq.advance h.1, onward_inSource.reaches h.2 (reaches_advance _ (by decide))⟩
  since h h' := similar_eq.since h.1 h'.1
  pos h h' := similar_eq.pos h.1 h'.1
  mark h h' := similar_eq.mark h.1 h'.1

theorem Parser.loopsAlike_same {σ : Type} (p : Parser σ) : LoopsAlike SameInSource p := by
  rintro c _ ⟨rfl, -⟩
  exact Or.inl rfl

theorem Outcome.Fits.alike_self {c : Cursor} {o : Outcome} (h : o.Fits c) (hc : c.InSource) :
    o.Alike SameInSource True o := by
  cases o with
  | success v d => exact .success v ⟨rfl, onward_inSource.reaches hc h⟩
  | failure m => exact .failure ⟨rfl, by rw [show m.cursor = c from h]; exact hc⟩ fun _ => ⟨rfl, rfl⟩

theorem Outcome.Alike.eq_of_same {o o' : Outcome} (h : o.Alike SameInSource True o') : o = o' := by
  cases h with
  | success v h => exact Outcome.Alike.eq (.success v h.1)
  | failure h hm => exact Outcome.Alike.eq (.failure h.1 hm)

section Recording

variable {κ ι : Type} [DecidableEq ι] {A : ι → Prop} {l : Ledger ι}

-- Compared with itself from one and the same state, a parser is alike in any case. What the comparison carries
-- along is the invariant of the state, so no combinator has to be opened again for it.
/-- The same state, with a ledger that has grown from `l`. -/
def Ledger.GrownFrom (A : ι → Prop) (l : Ledger ι) (s t : κ × Ledger ι) : Prop :=
  s = t ∧ l.Grows A s.2

/-- However the run ends, records of matches are all that it writes to scanners, and only where `A` holds. -/
def Parse.Grows {α : Type} (A : ι → Prop) (m : Parse (κ × Ledger ι) α) : Prop :=
  ∀ s : κ × Ledger ι, s.2.Grows A (m.finalState s).2

theorem Parse.Grows.agrees {α : Type} {m : Parse (κ × Ledger ι) α} (h : m.Grows A) :
    Agrees (Ledger.GrownFrom A l) (fun _ _ => True) m m := by
  rintro s _ ⟨rfl, hs⟩
  have hgrown := hs.trans (h s)
  unfold finalState at hgrown
  cases hr : m.run s with
  | ok a t =>
      rw [hr] at hgrown
      exact ⟨trivial, rfl, hgrown⟩
  | error fault t =>
      rw [hr] at hgrown
      exact ⟨rfl, rfl, hgrown⟩

theorem Parse.Agrees.grows {α : Type} {R : α → α → Prop} {m : Parse (κ × Ledger ι) α} {s : κ × Ledger ι}
    (h : Agrees (Ledger.GrownFrom A s.2) R m m) : s.2.Grows A (m.finalState s).2 := by
  unfold finalState
  obtain ⟨_, t, _, _, hr, -, -, -, hgrown⟩ | ⟨_, t, _, hr, -, -, hgrown⟩ := h.run_cases ⟨rfl, .refl⟩
  · rw [hr]
    exact hgrown
  · rw [hr]
    exact hgrown

/-- No parsers from outside, and trackers only for scanners of which `A` holds. Tests may be any. A callback may
read the scanners, and may run tracked parsers of its own, but does not write to scanners by itself. -/
def Vocabulary.recording (κ : Type) (A : ι → Prop) : Vocabulary Empty (Observer (κ × Ledger ι)) where
  leaf _ := True
  given _ := True
  unary _ _ := True
  nary _ _ := True
  observer
    | .matcher onSuccess onFailure =>
      (∀ rule, (onSuccess rule).Grows A) ∧ ∀ report ∈ onFailure, ∀ rule, (report rule).Grows A
    | .track record => ∃ i, A i ∧ record = fun mark s => (s.1, s.2.write i mark)

namespace Parser

variable {p q : Parser (κ × Ledger ι)}

/-- The parser stays in its source, and whatever comes of a run, the ledger has only grown. -/
structure Records (A : ι → Prop) (p : Parser (κ × Ledger ι)) : Prop where
  conforms : p.ConformsOn True InSource
  grows : ∀ l, p.Alike (Ledger.GrownFrom A l) SameInSource True p

theorem records_of_stateless (hp : p.ConformsOn True InSource) (h : ∀ c, (p.run c).Stateless) : p.Records A where
  conforms := hp
  grows l := by
    refine ⟨fun _ => rfl, ?_⟩
    rintro c _ ⟨rfl, hc⟩
    have hsame := ((h c).agrees (S := Ledger.GrownFrom A l) (R := Eq) fun _ => rfl).and_returns (hp c hc)
    refine hsame.imp fun o o' ho => ?_
    obtain ⟨rfl, hfits⟩ := ho
    exact hfits.alike_self hc

theorem Records.unary {f : Unary} (hp : p.Records A) : (f.apply p).Records A where
  conforms := hp.conforms.unary onward_inSource (Unary.fitFor_true _ _ _)
  grows l := by
    have htests : f.TestsBy (Outcome.Alike SameInSource True) := by
      cases f with
      | ifCondition test | elseCondition test => exact fun o o' h => by rw [h.eq_of_same]
      | _ => trivial
    exact (hp.grows l).unary similar_sameInSource htests (loopsAlike_same p)

theorem records_applyAll {f : Nary} {ps : List (Parser (κ × Ledger ι))} (h : f.applyAll ps = .ok p)
    (hps : ∀ q ∈ ps, q.Records A) : p.Records A where
  conforms := conformsOn_applyAll onward_inSource (Nary.fitFor_true _ _ _) h fun q hq => (hps q hq).conforms
  grows l := Alike.applyAll_self similar_sameInSource (fun q hq => (hps q hq).grows l) (fun _ => loopsAlike_same _) h

theorem records_region {f : Region} {x y : Operand (κ × Ledger ι)} (hx : x.toParser.Records A)
    (hy : y.toParser.Records A) (h : f.apply x y = .ok p) : p.Records A := by
  have hconforms := conformsOn_region onward_inSource hx.conforms hy.conforms h
  rcases Region.apply_cases h with ⟨t, u, h⟩ | ⟨t, u, h⟩ | rfl | rfl
  · exact records_of_stateless hconforms (stateless_betweenText h)
  · exact records_of_stateless hconforms (stateless_notBetweenText h)
  · exact ⟨hconforms, fun l =>
      (hx.grows l).captureBetweenParsers similar_sameInSource (loopsAlike_same _) (hy.grows l)⟩
  · exact ⟨hconforms, fun l => (hx.grows l).ignoreBetweenParsers similar_sameInSource (loopsAlike_same _)
      (hy.grows l) (loopsAlike_same _)⟩

theorem Records.matcher (hp : p.Records A) {onSuccess : Rule → Parse (κ × Ledger ι) Unit}
    {onFailure : Option (Rule → Parse (κ × Ledger ι) Unit)} (hs : ∀ rule, (onSuccess rule).Grows A)
    (hf : ∀ report ∈ onFailure, ∀ rule, (report rule).Grows A) : (p.matcher onSuccess onFailure).Records A where
  conforms := hp.conforms.observe onward_inSource (o := .matcher onSuccess onFailure) (Observer.fitFor_true _)
  grows l := by
    refine (hp.grows l).matcher similar_sameInSource (fun rule => (hs rule).agrees) ?_
    cases onFailure with
    | none => exact .none
    | some onFailure => exact .some fun rule => (hf onFailure rfl rule).agrees

/-- The parser, tracked with a scanner of the ledger. -/
abbrev tracked (i : ι) (p : Parser (κ × Ledger ι)) : Parser (κ × Ledger ι) :=
  p.track fun mark s => (s.1, s.2.write i mark)

theorem Records.track (hp : p.Records A) {i : ι} (hi : A i) : (p.tracked i).Records A where
  conforms := hp.conforms.track onward_inSource _
  grows l := by
    refine ⟨fun _ => rfl, ?_⟩
    rintro c _ ⟨rfl, hc⟩
    unfold Parser.tracked Parser.track
    dsimp only
    split
    · exact agrees_pure (Outcome.alike_fail_same ⟨rfl, hc⟩ _ _)
    · refine (((hp.grows l).run ⟨rfl, hc⟩).and_returns (hp.conforms c hc)).bind fun o o' ho => ?_
      obtain ⟨ho, hfits⟩ := ho
      cases ho with
      | failure hm he => exact agrees_pure (.failure hm he)
      | @success d _ v hd =>
          obtain ⟨rfl, hd⟩ := hd
          have hends : EndsAlike (fun mark mark' => mark = mark' ∧ Mark.between c d = .ok mark)
              (Mark.between c d) (Mark.between c d) := by
            cases h : Mark.between c d with
            | ok mark => exact .ok ⟨rfl, rfl⟩
            | error fault => exact .error fault
          refine (agrees_lift hends).bind fun mark _ hmark => ?_
          obtain ⟨rfl, hmark⟩ := hmark
          have hwrite : ∀ s t : κ × Ledger ι, Ledger.GrownFrom A l s t →
              Ledger.GrownFrom A l (s.1, s.2.write i mark) (t.1, t.2.write i mark) := by
            rintro s _ ⟨rfl, hs⟩
            exact ⟨rfl, .write hs hi hc hfits hmark⟩
          exact (agrees_modify hwrite).bind fun _ _ _ => agrees_pure (.success v ⟨rfl, hd⟩)

theorem handsOn_records :
    HandsOn (Empty.elim : Empty → Parser (κ × Ledger ι)) id (.recording κ A) (Records A) where
  literal t := records_of_stateless (conformsOn_text t) fun _ => stateless_pure _
  leaf {l _} _ h := records_of_stateless (conformsOn_leaf onward_inSource l.fitFor_true h) (stateless_leaf h)
  given {r} := r.elim
  unary _ _ hp := hp.unary
  binary hp hq := ⟨hp.conforms.join onward_inSource _ hq.conforms, fun l => (hp.grows l).join _ (hq.grows l)⟩
  nary _ _ hps h := records_applyAll h hps
  region hx hy h := records_region hx hy h
  observe {o _} ho hp := by
    cases o with
    | matcher onSuccess onFailure => exact hp.matcher ho.1 ho.2
    | track record =>
        obtain ⟨i, hi, rfl⟩ := ho
        exact hp.track hi

/-! ## Runs of nested parsers -/

/-- The parser is built from primitives, combinators, matchers, and trackers for scanners of which `A` holds. -/
def Nested (A : ι → Prop) (p : Parser (κ × Ledger ι)) : Prop :=
  ∃ e : Expr Empty (Observer (κ × Ledger ι)), e.Within (.recording κ A) ∧ e.build .closed = .ok (.parser p)

theorem Nested.records (hp : p.Nested A) : p.Records A := by
  obtain ⟨e, he, h⟩ := hp
  exact build_handsOn handsOn_records e he h

theorem Nested.grows (hp : p.Nested A) {c : Cursor} (hc : c.InSource) : (p.run c).Grows A :=
  fun s => ((hp.records.grows s.2).run ⟨rfl, hc⟩).grows

/-- The state after runs of the parsers one after another, however each of them ended. -/
def runAll {σ : Type} (runs : List (Parser σ × Cursor)) (s : σ) : σ :=
  runs.foldl (fun s run => (run.1.run run.2).finalState s) s

theorem upToDate_runAll {runs : List (Parser (κ × Ledger ι) × Cursor)}
    (hruns : ∀ run ∈ runs, run.1.Nested A ∧ run.2.InSource) {s : κ × Ledger ι} (hs : s.2.UpToDate) :
    (runAll runs s).2.UpToDate := by
  induction runs generalizing s with
  | nil => exact hs
  | cons run runs ih =>
      obtain ⟨⟨hp, hc⟩, hruns⟩ := List.forall_mem_cons.1 hruns
      exact ih hruns ((hp.grows hc s).upToDate hs)

/-! ## The result -/

/-- After any runs of nested parsers, each scanner holds the last record that was written to it, all these records
are those of matches, and all that scanners hold is consistent. What one run adds is for scanners that the parser
names, a tracker that matches adds the record of its match behind what its parser added, and one that fails adds
nothing to that. -/
theorem scanners_hold_last_records :
    (∀ (runs : List (Parser (κ × Ledger ι) × Cursor)) (k : κ),
      (∀ run ∈ runs, run.1.Nested (fun _ => True) ∧ run.2.InSource) →
      (runAll runs (k, {})).2.UpToDate ∧ ∀ i, ((runAll runs (k, {})).2.marks i).Consistent) ∧
    (∀ (A : ι → Prop) (p : Parser (κ × Ledger ι)) (c : Cursor) (s : κ × Ledger ι), p.Nested A → c.InSource →
      s.2.Grows A ((p.run c).finalState s).2 ∧ ∀ i, ¬A i → ((p.run c).finalState s).2.marks i = s.2.marks i) ∧
    (∀ (A : ι → Prop) (i : ι) (p : Parser (κ × Ledger ι)) (c d : Cursor) (v : Value) (s s' : κ × Ledger ι),
      p.Nested A → c.InSource → ((p.tracked i).run c).run s = .ok (.success v d) s' →
      ∃ mark t, (p.run c).run s = .ok (.success v d) t ∧ mark.Records c d ∧ s' = (t.1, t.2.write i mark)) ∧
    (∀ (i : ι) (p : Parser (κ × Ledger ι)) (c : Cursor) (m : Mismatch) (s s' : κ × Ledger ι),
      ((p.tracked i).run c).run s = .ok (.failure m) s' →
      c.atEnd ∧ s' = s ∨ ¬c.atEnd ∧ (p.run c).run s = .ok (.failure m) s') := by
  refine ⟨?runs, ?one, ?matched, ?failed⟩
  case runs =>
    intro runs k hruns
    have h := upToDate_runAll hruns (s := (k, {})) Ledger.upToDate_initial
    exact ⟨h, h.consistent⟩
  case one =>
    intro A p c s hp hc
    exact ⟨hp.grows hc s, fun i hi => (hp.grows hc s).unnamed hi⟩
  case matched =>
    intro A i p c d v s s' hp hc h
    obtain ⟨-, mark, t, hr, hmark, hs'⟩ := track_eq_ok h
    exact ⟨mark, t, hr, Mark.records_of_between hc ((hp.records.conforms c hc).of_run hr) hmark, hs'⟩
  case failed => exact fun _ _ _ _ _ _ h => track_eq_failure h

/-- In the first run a tracked `a` and CR are given up, and the whole text is tracked without being used up. Then
a callback looks at what is recorded of it. The second run begins between the CR and the LF. -/
theorem scanners_hold_last_records_given_up :
    let word (i : Bool) (t : Text) : Expr Empty (Observer (List Mark × Ledger Bool)) :=
      .observe (.track fun mark s => (s.1, s.2.write i mark)) (.leaf (.text t))
    let whole : Expr Empty (Observer (List Mark × Ledger Bool)) :=
      .observe (.track fun mark s => (s.1, s.2.write true mark)) (.leaf (.skip 4))
    let look : Rule → Parse (List Mark × Ledger Bool) Unit := fun _ => modify fun s => (s.1 ++ [s.2.marks true], s.2)
    let first := Expr.binary .choice (.binary .seq (word false "a\r") (word true "x"))
      (.observe (.matcher look none) (.unary .lookahead whole))
    let c : Cursor := { source := "a\r\nb" }
    ∃ p q, first.build .closed = .ok (.parser p) ∧ (word false "\nb").build .closed = .ok (.parser q) ∧
      let runs := [(p, c), (q, { c with pos := 2 })]
      let s := runAll runs ([], {})
      (∀ run ∈ runs, run.1.Nested (fun _ => True) ∧ run.2.InSource) ∧ s.2.UpToDate ∧
        s.2.written = [(false, { line := 2, column := 1, position := 2, lastChar := some "\r" }),
          (true, { line := 2, column := 2, position := 4, lastChar := some "b" }),
          (false, { line := 1, column := 2, position := 2, lastChar := some "b" })] ∧
        s.1 = [s.2.marks true] ∧ s.2.marks false = { line := 1, column := 2, position := 2, lastChar := some "b" } ∧
        (s.2.marks false).Consistent ∧ (s.2.marks true).Consistent := by
  intro word whole look first c
  have hword : ∀ i t, (word i t).Within (.recording (List Mark) fun _ => True) :=
    fun i _ => ⟨⟨i, trivial, rfl⟩, trivial⟩
  have hlook : ∀ rule, (look rule).Grows fun _ => True := fun _ _ => .refl
  have hfirst : first.Within (.recording (List Mark) fun _ => True) :=
    ⟨⟨hword _ _, hword _ _⟩, ⟨hlook, nofun⟩, trivial, ⟨true, trivial, rfl⟩, trivial⟩
  refine ⟨_, _, rfl, rfl, ?_⟩
  intro runs s
  have hruns : ∀ run ∈ runs, run.1.Nested (fun _ => True) ∧ run.2.InSource :=
    List.forall_mem_cons.2 ⟨⟨⟨first, hfirst, rfl⟩, by decide, by decide⟩,
      List.forall_mem_singleton.2 ⟨⟨_, hword _ _, rfl⟩, by decide, by decide⟩⟩
  obtain ⟨hupToDate, hconsistent⟩ := scanners_hold_last_records.1 runs [] hruns
  exact ⟨hruns, hupToDate, rfl, rfl, rfl, hconsistent false, hconsistent true⟩

end Parser

end Recording

end ParserAlgebra
