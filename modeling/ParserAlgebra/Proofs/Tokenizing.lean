import ParserAlgebra.Calculator
import ParserAlgebra.Proofs.NumeralValue

/-!
# Tokenizing

A token is added to the tally as soon as it is matched. A text that has none ends the run with its fault.
-/

namespace ParserAlgebra

open Cursor Parse

namespace Parser

variable {σ : Type} {k : CharClass} {c : Cursor}

theorem run_satisfy_cons (hc : c.NotBefore) {ch : Char} {t : Text} (hrest : c.rest = ch :: t) (h : k.test ch = .ok true)
    (s : σ) : ((satisfy k).run c).run s = .ok (.success (.text [ch]) (c.advance 1)) s := by
  have hend : ¬c.atEnd := fun hend => by
    rw [rest_of_atEnd hc hend] at hrest
    cases hrest
  obtain ⟨_, _, hrest', hch⟩ := current_of_not_atEnd hc hend
  obtain ⟨rfl, -⟩ := List.cons.inj (hrest.symm.trans hrest')
  unfold satisfy
  dsimp only
  rw [if_neg hend, hch]
  change ((liftM (k.test ch) >>= fun passes => if passes then _ else _ : Parse σ Outcome)).run s = _
  rw [h]
  rfl

theorem run_satisfy_fail (hc : c.NotBefore) (h : ∀ ch ∈ c.rest.head?, k.test ch = .ok false) (s : σ) :
    ((satisfy k).run c).run s = .ok (.fail c (Wording.expected k.name) k.expected) s := by
  unfold satisfy
  dsimp only
  by_cases hend : c.atEnd
  · rw [if_pos hend]
    rfl
  · obtain ⟨ch, t, hrest, hch⟩ := current_of_not_atEnd hc hend
    rw [if_neg hend, hch]
    change ((liftM (k.test ch) >>= fun passes => if passes then _ else _ : Parse σ Outcome)).run s = _
    rw [h ch (by rw [hrest]; rfl)]
    rfl

theorem run_number_some (hc : c.InSource) {t r : Text} (hrest : c.rest = t ++ r)
    (h : Numeral.length? (t ++ r) = some t.length) (s : σ) :
    (number.run c).run s = .ok (.success (.text t) (c.advance t.length)) s := by
  rw [run_number hc, hrest, h]
  dsimp only
  rw [taken, sliceAhead_eq_take hc.1, hrest, List.take_left]

theorem run_number_none (hc : c.InSource) (h : Numeral.length? c.rest = none) (s : σ) :
    (number.run c).run s = .ok (.fail c Wording.expectedNumber Wording.digits) s := by
  rw [run_number hc, h]

theorem run_track_success {p : Parser σ} {record : Mark → σ → σ} {v : Value} {d : Cursor} {s s' : σ} (hc : ¬c.atEnd)
    (h : (p.run c).run s = .ok (.success v d) s') :
    ((p.track record).run c).run s = match Mark.between c d with
      | .ok mark => .ok (.success v d) (record mark s')
      | .error fault => .error fault s' := by
  unfold track
  dsimp only
  rw [if_neg hc, EStateM.run_bind, h]
  dsimp only
  rw [EStateM.run_bind]
  cases Mark.between c d <;> rfl

theorem run_track_fault {p : Parser σ} {record : Mark → σ → σ} {fault : Fault} {s s' : σ} (hc : ¬c.atEnd)
    (h : (p.run c).run s = .error fault s') : ((p.track record).run c).run s = .error fault s' := by
  unfold track
  dsimp only
  rw [if_neg hc, EStateM.run_bind, h]

end Parser

namespace Calculator

variable {α β : Type} {c d e : Cursor} {s t r gap ending : Text} {v : Value} {vs : List Value} {m : Mismatch}
  {x y : Except Fault (List Token)}

/-! ## Runs that add tokens -/

/-- The tokens of two parts. The first part that has none decides on the fault. -/
def inTurn (x y : Except Fault (List Token)) : Except Fault (List Token) := do
  let ts ← x
  let us ← y
  return ts ++ us

@[simp] theorem inTurn_nil_left (y : Except Fault (List Token)) : inTurn (.ok []) y = y := by
  cases y <;> rfl

@[simp] theorem inTurn_nil_right (x : Except Fault (List Token)) : inTurn x (.ok []) = x := by
  cases x with
  | ok ts => exact congrArg Except.ok (List.append_nil ts)
  | error fault => rfl

/-- The token of a text. -/
def single (t : Text) : Except Fault (List Token) :=
  ([·]) <$> Token.ofText t

theorem mapM_cons (t : Text) (ts : List Text) :
    (t :: ts).mapM Token.ofText = inTurn (single t) (ts.mapM Token.ofText) := by
  rw [List.mapM_cons, single, inTurn]
  cases Token.ofText t <;> rfl

/-- From every tally, the run ends with the value and adds the tokens, or it ends with the fault that stands for
them. -/
def Collects (m : Parse Tally α) (a : α) (x : Except Fault (List Token)) : Prop :=
  ∀ tally, match x with
    | .ok ts => m.run tally = .ok a { tally with tokens := tally.tokens ++ ts }
    | .error fault => ∃ tally', m.run tally = .error fault tally'

theorem collects_of_run {m : Parse Tally α} {a : α} (h : ∀ tally, m.run tally = .ok a tally) :
    Collects m a (.ok []) := by
  intro tally
  dsimp only
  rw [h, List.append_nil]

theorem collects_pure (a : α) : Collects (pure a) a (.ok []) :=
  collects_of_run fun _ => rfl

theorem Collects.bind {m : Parse Tally α} {f : α → Parse Tally β} {a : α} {b : β} (hm : Collects m a x)
    (hf : Collects (f a) b y) : Collects (m >>= f) b (inTurn x y) := by
  intro tally
  have hm := hm tally
  cases x with
  | error fault =>
      obtain ⟨tally', hm⟩ := hm
      exact ⟨tally', by rw [EStateM.run_bind, hm]⟩
  | ok ts =>
      have hf := hf { tally with tokens := tally.tokens ++ ts }
      dsimp only at hm
      cases y with
      | error fault =>
          obtain ⟨tally', hf⟩ := hf
          exact ⟨tally', by rw [EStateM.run_bind, hm]; exact hf⟩
      | ok us =>
          dsimp only at hf
          change (m >>= f).run tally = _
          rw [EStateM.run_bind, hm]
          dsimp only
          rw [hf, List.append_assoc]

/-- What only goes on with the value adds nothing. -/
theorem Collects.andThen {m : Parse Tally α} {f : α → Parse Tally β} {a : α} {b : β} (hm : Collects m a x)
    (hf : f a = pure b) : Collects (m >>= f) b x := by
  rw [← inTurn_nil_right x]
  exact hm.bind (hf ▸ collects_pure b)

theorem collects_emit {rule : Rule} (h : rule.result = .text t) : Collects (emit rule) () (single t) := by
  unfold emit single
  rw [h, Value.text?, Option.getD_some]
  cases Token.ofText t with
  | ok token => exact fun _ => rfl
  | error fault => exact fun tally => ⟨tally, rfl⟩

theorem collects_matcher_success {p : Parser Tally} (h : Collects (p.run c) (.success (.text t) d) (.ok [])) :
    Collects ((p.matcher emit none).run c) (.success (.text t) d) (single t) := by
  rw [← inTurn_nil_left (single t)]
  exact h.bind ((collects_emit rfl).andThen rfl)

theorem collects_matcher_failure {p : Parser Tally} (h : Collects (p.run c) (.failure m) (.ok [])) :
    Collects ((p.matcher emit none).run c) (.failure m) (.ok []) :=
  h.andThen rfl

/-! ## Repetitions that add tokens -/

/-- Matches that move, one after another up to a cursor where there is none, with the tokens that they add. -/
inductive Walk (p : Parser Tally) : Cursor → List Value → Cursor → Except Fault (List Token) → Prop
  | stop {c : Cursor} {m : Mismatch} : Collects (p.run c) (.failure m) (.ok []) → Walk p c [] c (.ok [])
  | step {c d e : Cursor} {v : Value} {vs : List Value} {x y : Except Fault (List Token)} :
      Collects (p.run c) (.success v d) x → c.Reaches d → d.pos ≠ c.pos → Walk p d vs e y →
      Walk p c (v :: vs) e (inTurn x y)

theorem Walk.rounds {p : Parser Tally} (h : Walk p c vs e x) {limit : Nat} (hl : c.distance < limit) :
    Collects (p.rounds (fun _ => false) limit c) (vs, e) x := by
  -- Each match leaves a smaller distance to the end, so the rounds that are left suffice.
  induction h generalizing limit with
  | stop h =>
      obtain ⟨limit, rfl⟩ := Nat.exists_eq_succ_of_ne_zero (Nat.ne_zero_of_lt hl)
      rw [Parser.rounds]
      exact h.andThen rfl
  | step h hreach hne _ ih =>
      obtain ⟨limit, rfl⟩ := Nat.exists_eq_succ_of_ne_zero (Nat.ne_zero_of_lt hl)
      have hlt := hreach.distance_lt hne
      rw [Parser.rounds]
      refine h.bind ?_
      dsimp only
      rw [if_neg hne]
      exact (ih (by omega)).andThen rfl

theorem Walk.repeated {p : Parser Tally} (h : Walk p c vs e x) :
    Collects (p.repeated (fun _ => false) c) (vs, e) x := by
  have hle := c.distance_le_reach
  exact h.rounds (by rw [Parser.spareRounds]; omega)

theorem Walk.zeroOrMore {p : Parser Tally} (h : Walk p c vs e x) :
    Collects (p.zeroOrMore.run c) (.success (.tuple vs) e) x :=
  h.repeated.andThen (by rfl)

theorem Walk.oneOrMore {p : Parser Tally} (h : Walk p c vs e x) (hne : vs ≠ []) :
    Collects (p.oneOrMore.run c) (.success (.tuple vs) e) x := by
  refine h.repeated.andThen ?_
  dsimp only
  rw [if_neg (by simpa using hne)]

/-! ## Blanks -/

/-- Spaces and tabs, possibly none. -/
def Blank (t : Text) : Prop :=
  ∀ ch ∈ t, ch = ' ' ∨ ch = '\t'

/-- No blank comes first. -/
def EndsBlanks (t : Text) : Prop :=
  ∀ ch ∈ t.head?, ch ≠ ' ' ∧ ch ≠ '\t'

theorem contains_spaces {ch : Char} : Alphabet.spaces.contains ch = true ↔ ch = ' ' ∨ ch = '\t' := by
  simp [Alphabet.spaces]

theorem endsBlanks_iff : EndsBlanks t ↔ ∀ ch ∈ t.head?, Alphabet.spaces.contains ch = false := by
  simp only [EndsBlanks, ← Bool.not_eq_true, contains_spaces, not_or]

instance (t : Text) : Decidable (Blank t) :=
  decidable_of_iff (t.all (Alphabet.spaces.contains ·) = true) (by simp only [List.all_eq_true, contains_spaces, Blank])

theorem walk_blanks (hc : c.InSource) (hrest : c.rest = gap ++ r) (hgap : Blank gap) (hr : EndsBlanks r) :
    Walk (.satisfy .space) c (gap.map fun ch => .text [ch]) (c.advance gap.length) (.ok []) := by
  induction gap generalizing c with
  | nil =>
      rw [List.length_nil, Int.natCast_zero, advance_zero hc]
      have hstops : ∀ ch ∈ c.rest.head?, CharClass.space.test ch = .ok false := fun ch hch =>
        congrArg Except.ok (endsBlanks_iff.1 hr ch (by rwa [hrest] at hch))
      exact .stop (collects_of_run (Parser.run_satisfy_fail hc.1 hstops))
  | cons ch gap ih =>
      obtain ⟨hch, hgap⟩ := List.forall_mem_cons.1 hgap
      have hwalk := ih (inSource_advance hc 1) (rest_advance_one hc.1 hrest) hgap
      rw [advance_advance, Nat.add_comm] at hwalk
      have hpos : (c.advance 1).pos = c.pos + 1 := pos_advance hc (n := 1) (by rw [hrest]; simp)
      have hspace : CharClass.space.test ch = .ok true := congrArg Except.ok (contains_spaces.2 hch)
      exact .step (collects_of_run (Parser.run_satisfy_cons hc.1 hrest hspace)) (c.reaches_advance Int.one_nonneg)
        (by omega) hwalk

theorem collects_blanks (hc : c.InSource) (hrest : c.rest = gap ++ r) (hgap : Blank gap) (hr : EndsBlanks r) :
    Collects (blanks.run c) (.success .none (c.advance gap.length)) (.ok []) :=
  (walk_blanks hc hrest hgap hr).zeroOrMore.andThen (by rfl)

/-! ## Tokens -/

/-- In front of the rest, the text is a token: the longest numeral there, or an operator where no numeral comes
next. -/
inductive TokenBefore (r : Text) : Text → Prop
  | numeral {t : Text} : Numeral.length? (t ++ r) = some t.length → TokenBefore r t
  | operator {ch : Char} : operatorChars.contains ch = true → Numeral.length? (ch :: r) = none → TokenBefore r [ch]

/-- Neither a numeral nor an operator comes first. -/
structure EndsTokens (t : Text) : Prop where
  numeral : Numeral.length? t = none
  operator : ∀ ch ∈ t.head?, operatorChars.contains ch = false

theorem TokenBefore.ne_nil (h : TokenBefore r t) : t ≠ [] := by
  rintro rfl
  cases h with
  | numeral h =>
      obtain ⟨s, -, m, hm, e, -, hnil⟩ := Numeral.exists_parts (Numeral.take_length? h).1
      obtain ⟨ch, u, rfl, -⟩ := Numeral.cons_of_mem_mantissa hm
      simp at hnil

theorem collects_numberOrOperator (hc : c.InSource) (hrest : c.rest = t ++ r) (h : TokenBefore r t) :
    Collects (numberOrOperator.run c) (.success (.text t) (c.advance t.length)) (single t) := by
  cases h with
  | numeral hlength =>
      have hnumber := collects_of_run (Parser.run_number_some hc hrest hlength)
      exact (collects_matcher_success hnumber).andThen (by rfl)
  | operator hch hlength =>
      have hnumber := collects_of_run (Parser.run_number_none hc (hrest ▸ hlength))
      have htest : (CharClass.oneOf operatorChars).test _ = .ok true := congrArg Except.ok hch
      have hoperator := collects_of_run (Parser.run_satisfy_cons hc.1 hrest htest)
      rw [← inTurn_nil_left (single _)]
      exact (collects_matcher_failure hnumber).bind (collects_matcher_success hoperator)

theorem collects_token (hc : c.InSource) (hrest : c.rest = t ++ (gap ++ r)) (h : TokenBefore (gap ++ r) t)
    (hgap : Blank gap) (hr : EndsBlanks r) :
    Collects (token.run c) (.success (.text t) (c.advance (t ++ gap).length)) (single t) := by
  have hrest' : (c.advance t.length).rest = gap ++ r := by rw [rest_advance hc.1, hrest, List.drop_left]
  have hblanks := collects_blanks (inSource_advance hc t.length) hrest' hgap hr
  rw [advance_advance, ← List.length_append] at hblanks
  rw [← inTurn_nil_right (single t)]
  exact (collects_numberOrOperator hc hrest h).bind (hblanks.andThen rfl)

theorem collects_numberOrOperator_failure (hc : c.InSource) (h : EndsTokens c.rest) :
    let operators := CharClass.oneOf operatorChars
    Collects (numberOrOperator.run c) (.fail c (Wording.expected operators.name) operators.expected) (.ok []) := by
  have hnumber := collects_of_run (Parser.run_number_none hc h.numeral)
  have htest : ∀ ch ∈ c.rest.head?, (CharClass.oneOf operatorChars).test ch = .ok false := fun ch hch =>
    congrArg Except.ok (h.operator ch hch)
  have hoperator := collects_of_run (Parser.run_satisfy_fail hc.1 htest)
  rw [← inTurn_nil_left (.ok [])]
  exact (collects_matcher_failure hnumber).bind (collects_matcher_failure hoperator)

theorem collects_token_failure (hc : c.InSource) (h : EndsTokens c.rest) :
    ∃ m, Collects (token.run c) (.failure m) (.ok []) :=
  ⟨_, (collects_numberOrOperator_failure hc h).andThen (by rfl)⟩

/-! ## Lines -/

/-- The texts one after another, each with the blanks behind it. -/
def written (segments : List (Text × Text)) : Text :=
  segments.flatMap fun segment => segment.1 ++ segment.2

theorem written_cons (t gap : Text) (segments : List (Text × Text)) :
    written ((t, gap) :: segments) = t ++ gap ++ written segments :=
  rfl

/-- In front of `ending`, each of the texts is a token where it stands. -/
inductive Segmented (ending : Text) : List (Text × Text) → Prop
  | nil : Segmented ending []
  | cons {t gap : Text} {segments : List (Text × Text)} : TokenBefore (gap ++ (written segments ++ ending)) t →
      Blank gap → EndsBlanks (written segments ++ ending) → Segmented ending segments →
      Segmented ending ((t, gap) :: segments)

/-- A line ends with the input, or with a character that ends lines. -/
def EndsLine (t : Text) : Prop :=
  t = [] ∨ t = ['\n'] ∨ t = ['\r']

theorem endsLine_iff : EndsLine t ↔ t = [] ∨ ∃ ch, Alphabet.lineEnds.contains ch = true ∧ t = [ch] := by
  simp [EndsLine, Alphabet.lineEnds]

theorem EndsLine.endsTokens (h : EndsLine ending) : EndsTokens ending := by
  rcases endsLine_iff.1 h with rfl | ⟨ch, hch, rfl⟩
  · exact ⟨rfl, nofun⟩
  · have hall : Alphabet.lineEnds.all (fun ch => Numeral.length? [ch] == none && !operatorChars.contains ch) = true := by
      decide
    have hends := List.all_eq_true.1 hall ch (List.contains_iff_mem.1 hch)
    simp only [Bool.and_eq_true, beq_iff_eq, Bool.not_eq_true'] at hends
    refine ⟨hends.1, fun d hd => ?_⟩
    cases hd
    exact hends.2

theorem walk_tokens {segments : List (Text × Text)} (hc : c.InSource) (hrest : c.rest = written segments ++ ending)
    (h : Segmented ending segments) (hending : EndsTokens ending) :
    Walk token c (segments.map fun segment => .text segment.1) (c.advance (written segments).length)
      ((segments.map (·.1)).mapM Token.ofText) := by
  induction h generalizing c with
  | nil =>
      obtain ⟨m, hm⟩ := collects_token_failure hc (hrest ▸ hending)
      have hstays : c.advance (written []).length = c := advance_zero hc
      rw [hstays]
      exact .stop hm
  | @cons t gap segments ht hgap hblanks _ ih =>
      rw [written_cons, List.append_assoc, List.append_assoc] at hrest
      have hlen : (t ++ gap).length ≤ c.rest.length := by
        rw [hrest]
        simp
      have hpos := pos_advance hc hlen
      have hrest' : (c.advance (t ++ gap).length).rest = written segments ++ ending := by
        rw [rest_advance hc.1, hrest, ← List.append_assoc, List.drop_left]
      have hwalk := ih (inSource_advance hc _) hrest'
      rw [advance_advance, ← List.length_append, ← written_cons] at hwalk
      rw [List.map_cons, List.map_cons, mapM_cons]
      have hmoves : (c.advance (t ++ gap).length).pos ≠ c.pos := by
        have hlong : 0 < (t ++ gap).length := List.length_pos_of_ne_nil (List.append_ne_nil_of_left_ne_nil ht.ne_nil gap)
        omega
      exact .step (collects_token hc hrest ht hgap hblanks) (c.reaches_advance (Int.natCast_nonneg _)) hmoves hwalk

theorem collects_line {segments : List (Text × Text)} (hne : segments ≠ []) (h : Segmented ending segments)
    (hending : EndsLine ending) :
    let source := written segments ++ ending
    Collects ((token.oneOrMore.seqKeepFirst (.satisfy .newline)).run { source })
      (.success (.tuple (segments.map fun segment => .text segment.1)) { source, pos := source.length })
      ((segments.map (·.1)).mapM Token.ofText) := by
  intro source
  have hc : ({ source } : Cursor).InSource := ⟨Int.le_refl 0, Int.natCast_nonneg _⟩
  have hwalk := walk_tokens hc rfl h hending.endsTokens
  rw [← inTurn_nil_right (List.mapM _ _)]
  refine (hwalk.oneOrMore (by simpa using hne)).bind ?_
  dsimp only
  have hd := inSource_advance hc (written segments).length
  have hrest : (Cursor.advance { source } (written segments).length).rest = ending := by
    rw [rest_advance hc.1]
    exact List.drop_left
  rcases endsLine_iff.1 hending with rfl | ⟨ch, hch, rfl⟩
  · have hnone := Parser.run_satisfy_fail (k := .newline) (σ := Tally) hd.1 (by rw [hrest]; nofun)
    refine (collects_of_run hnone).andThen ?_
    have hstop : Cursor.advance { source } (written segments).length = { source, pos := source.length } := by
      simp [Cursor.advance, source]
    rw [hstop]
    rfl
  · have htest : CharClass.newline.test ch = .ok true := congrArg Except.ok hch
    have hline := Parser.run_satisfy_cons (σ := Tally) hd.1 hrest htest
    refine (collects_of_run hline).andThen ?_
    have hstop : (Cursor.advance { source } (written segments).length).advance 1 =
        { source, pos := source.length } := by
      simp [Cursor.advance, source]
    rw [hstop]

theorem Segmented.not_atEnd {segments : List (Text × Text)} (hne : segments ≠ []) (h : Segmented ending segments) :
    ¬({ source := written segments ++ ending } : Cursor).atEnd := by
  obtain ⟨⟨t, gap⟩, rest, rfl⟩ := List.exists_cons_of_ne_nil hne
  cases h with
  | cons ht =>
      have hlong := List.length_pos_of_ne_nil ht.ne_nil
      rw [atEnd_iff, written_cons]
      simp
      omega

/-- A line made of tokens with blanks behind them comes out as the list of the tokens. -/
theorem tokenize_written {segments : List (Text × Text)} (hne : segments ≠ []) (h : Segmented ending segments)
    (hending : EndsLine ending) :
    let source := written segments ++ ending
    tokenize source = do
      let ts ← (segments.map (·.1)).mapM Token.ofText
      let mark ← Mark.between { source } { source, pos := source.length }
      return (mark, .ok ts) := by
  intro source
  have hstart : ¬({ source } : Cursor).atEnd := h.not_atEnd hne
  have hrest : Cursor.rest { source, pos := source.length } = [] := by
    rw [rest_of_nonneg (Int.natCast_nonneg _)]
    exact List.drop_length
  have hline := collects_line hne h hending {}
  unfold tokenize line
  cases hts : (segments.map (·.1)).mapM Token.ofText with
  | error fault =>
      rw [hts] at hline
      obtain ⟨tally, hline⟩ := hline
      rw [Parser.run_track_fault hstart hline]
      rfl
  | ok ts =>
      rw [hts] at hline
      dsimp only at hline
      rw [Parser.run_track_success hstart hline]
      change _ = Mark.between { source } { source, pos := source.length } >>= _
      cases Mark.between { source } { source, pos := source.length } with
      | error fault => rfl
      | ok mark =>
          dsimp only
          rw [hrest]
          rfl

end Calculator

end ParserAlgebra
