import ParserAlgebra.Proofs.Shift

/-!
# Runs behind a text

Callbacks share a state of their own, scanners have their records in another. With the reports that the callbacks were
given written down, a run at the beginning of a text is compared with one behind any other text.
-/

namespace ParserAlgebra

open Cursor Parse

variable {κ τ : Type}

/-! ## Watched runs -/

/-- The state of a watched run. -/
structure Traced (κ τ : Type) where
  /-- What the callbacks were told, in order. -/
  reports : List Rule
  /-- The state of the callbacks. -/
  callbacks : κ
  /-- The records of the scanners. -/
  records : τ

/-- An observer whose callbacks share a state `κ` and whose scanners write to records `τ`. The callbacks do not read the
records. -/
inductive Watcher (κ τ : Type) where
  | matcher (onSuccess : Rule → Parse κ Unit) (onFailure : Option (Rule → Parse κ Unit))
  | track (record : Mark → τ → τ)

/-- Writes down a report and hands it to a callback. -/
def Traced.report (callback : Rule → Parse κ Unit) (rule : Rule) : Parse (Traced κ τ) Unit := fun s =>
  match (callback rule).run s.callbacks with
  | .ok _ k => .ok () { s with reports := s.reports ++ [rule], callbacks := k }
  | .error fault k => .error fault { s with reports := s.reports ++ [rule], callbacks := k }

/-- The observer, with the reports to its callbacks written down. -/
def Watcher.observer : Watcher κ τ → Observer (Traced κ τ)
  | matcher onSuccess onFailure => .matcher (Traced.report onSuccess) (onFailure.map Traced.report)
  | track record => .track fun mark s => { s with records := record mark s.records }

/-- There are no parsers from outside, and the observers are watched. -/
abbrev Watcher.builder : Builder (Except Fault) (Traced κ τ) Empty (Watcher κ τ) :=
  .over Empty.elim Watcher.observer

/-- The callbacks were told the same and are in the same state. -/
def Traced.SameCalls (s t : Traced κ τ) : Prop :=
  s.reports = t.reports ∧ s.callbacks = t.callbacks

/-- The runs end alike: with matches of the same value, with the same words of failure, or with the same
fault. The cursors of the first stand behind `a`, and the callbacks were told the same. -/
inductive EndsShifted (a : Text) :
    EStateM.Result Fault (Traced κ τ) Outcome → EStateM.Result Fault (Traced κ τ) Outcome → Prop
  | success {v : Value} {c d : Cursor} {s t : Traced κ τ} : Shifted a c d → s.SameCalls t →
      EndsShifted a (.ok (.success v c) s) (.ok (.success v d) t)
  | failure {m m' : Mismatch} {s t : Traced κ τ} : m.message = m'.message → m.expected = m'.expected →
      Shifted a m.cursor m'.cursor → s.SameCalls t →
      EndsShifted a (.ok (.failure m) s) (.ok (.failure m') t)
  | fault {fault : Fault} {s t : Traced κ τ} : s.SameCalls t →
      EndsShifted a (.error fault s) (.error fault t)

theorem Traced.agrees_report (callback : Rule → Parse κ Unit) (rule : Rule) :
    Agrees Traced.SameCalls (fun _ _ => True) (Traced.report callback rule : Parse (Traced κ τ) Unit)
      (Traced.report callback rule) := by
  intro s t hS
  obtain ⟨hreports, hcallbacks⟩ := hS
  simp only [EStateM.run, Traced.report, hreports, hcallbacks]
  cases callback rule t.callbacks with
  | ok _ k => exact ⟨trivial, rfl, rfl⟩
  | error fault k => exact ⟨rfl, rfl, rfl⟩

theorem EndsShifted.of_agreesOn {a : Text} {x y : EStateM.Result Fault (Traced κ τ) Outcome}
    (h : AgreesOn Traced.SameCalls (Outcome.Alike (Shifted a) True) x y) : EndsShifted a x y := by
  cases x with
  | ok o s =>
      cases y with
      | error fault t => exact h.elim
      | ok o' t =>
          obtain ⟨ho, hs⟩ := h
          cases ho with
          | success v hd => exact .success hd hs
          | failure hm he => exact .failure (he trivial).1 (he trivial).2 hm hs
  | error fault s =>
      cases y with
      | ok o' t => exact h.elim
      | error fault' t =>
          obtain ⟨rfl, hs⟩ := h
          exact .fault hs

namespace Parser

theorem Alike.watched {a : Text} {p : Parser (Traced κ τ)} {E : Prop}
    (h : p.Alike Traced.SameCalls (Shifted a) E p) (w : Watcher κ τ) :
    (w.observer.apply p).Alike Traced.SameCalls (Shifted a) E (w.observer.apply p) := by
  have hK := similar_shifted a
  cases w with
  | matcher onSuccess onFailure =>
      refine h.matcher hK (Traced.agrees_report onSuccess) ?_
      cases onFailure with
      | none => exact .none
      | some onFailure => exact .some (Traced.agrees_report onFailure)
  | track record => exact h.track hK fun _ _ _ _ hS => hS

/-- Of every parser that nodes build: it stays in its source, and it is alike behind any text. -/
theorem handsOn_shifted (a : Text) :
    HandsOn (Empty.elim : Empty → Parser (Traced κ τ)) Watcher.observer (.lookingAhead (Watcher κ τ))
      fun p => p.ConformsOn True NotBefore ∧ p.Alike Traced.SameCalls (Shifted a) True p where
  literal t := ⟨conformsOn_text t, alike_text t⟩
  leaf {l _} _ h := ⟨conformsOn_leaf onward_notBefore l.fitFor_true h, alike_leaf h⟩
  given {r} := r.elim
  unary hf _ hp := ⟨hp.1.unary onward_notBefore (Unary.fitFor_true _ _ _), hp.2.unary_shifted hf hp.1⟩
  binary hp hq := ⟨hp.1.join onward_notBefore _ hq.1, hp.2.join _ hq.2⟩
  nary _ _ hps h := ⟨conformsOn_applyAll onward_notBefore (Nary.fitFor_true _ _ _) h fun q hq => (hps q hq).1,
    alike_applyAll_shifted h (fun q hq => (hps q hq).1) fun q hq => (hps q hq).2⟩
  region hx hy h := ⟨conformsOn_region onward_notBefore hx.1 hy.1 h,
    alike_region_shifted hx.1 hx.2 hy.1 hy.2 h⟩
  observe {o _} _ hp := ⟨hp.1.observe onward_notBefore (Observer.fitFor_true _), hp.2.watched o⟩

/-- Behind any text `a`, a parser whose callbacks do not read the scanners does what it does at the beginning. -/
theorem run_behind {e : Expr Empty (Watcher κ τ)} {p : Parser (Traced κ τ)}
    (he : e.Within (.lookingAhead _)) (h : e.build Watcher.builder = .ok (.parser p)) (a b : Text)
    {s t : Traced κ τ} (hst : s.SameCalls t) :
    EndsShifted a ((p.run { source := a ++ b, pos := a.length }).run s)
      ((p.run { source := b, pos := 0 }).run t) := by
  have hp := build_handsOn (handsOn_shifted a) e he h
  have hcd : Shifted a { source := a ++ b, pos := a.length } { source := b, pos := 0 } :=
    ⟨rfl, by simp, Int.le_refl 0⟩
  exact .of_agreesOn (hp.2.run hcd s t hst)

/-- A list of numbers behind commas, where a callback counts the numbers, is read alike behind `xs = `. -/
theorem run_behind_name :
    let count : Rule → Parse Nat Unit := fun _ => modify (· + 1)
    let item : Expr Empty (Watcher Nat Unit) := .observe (.matcher count none) (.leaf .number)
    let e : Expr Empty (Watcher Nat Unit) :=
      .unary (.ifCondition (.total (·.rest.isEmpty))) (.unary .oneOrMore (.binary .before item (.literal ",")))
    ∃ p, e.build Watcher.builder = .ok (.parser p) ∧ e.Within (.lookingAhead _) ∧
      EndsShifted "xs = " ((p.run { source := "xs = " ++ ",1,22", pos := 5 }).run ⟨[], 0, ()⟩)
        ((p.run { source := ",1,22", pos := 0 }).run ⟨[], 0, ()⟩) := by
  intro count item e
  have he : e.Within (.lookingAhead _) :=
    ⟨fun _ _ _ _ hr => congrArg (Except.ok ∘ List.isEmpty) hr, trivial, ⟨trivial, trivial⟩, trivial⟩
  exact ⟨_, rfl, he, run_behind he rfl "xs = " ",1,22" ⟨rfl, rfl⟩⟩

end Parser

end ParserAlgebra
