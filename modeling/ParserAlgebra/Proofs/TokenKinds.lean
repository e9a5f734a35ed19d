import Mathlib.Data.List.TakeWhile
import ParserAlgebra.Proofs.Climbing
import ParserAlgebra.Proofs.Tokenizing
import ParserAlgebra.Proofs.Tracking

/-!
# The kinds of tokens

A token is a number if its text begins with a digit, which the text of a numeral need not do.
-/

namespace ParserAlgebra.Calculator

open Cursor Parse

variable {c d e : Cursor} {t r source ending : Text} {v : Value} {vs : List Value} {x : Except Fault (List Token)}
  {segments : List (Text × Text)} {tokens : List Token} {mark : Mark}

/-! ## Tokens at the beginning of a text -/

theorem exists_blank (t : Text) : ∃ gap r, t = gap ++ r ∧ Blank gap ∧ EndsBlanks r := by
  refine ⟨t.takeWhile (Alphabet.spaces.contains ·), t.dropWhile (Alphabet.spaces.contains ·),
    List.takeWhile_append_dropWhile.symm, fun ch hch => contains_spaces.1 (List.mem_takeWhile_imp hch),
    endsBlanks_iff.2 fun ch hch => ?_⟩
  have hstops := List.head?_dropWhile_not (Alphabet.spaces.contains ·) t
  rw [Option.mem_def.1 hch] at hstops
  exact hstops

theorem exists_tokenBefore_or_endsTokens (t : Text) : (∃ u r, t = u ++ r ∧ TokenBefore r u) ∨ EndsTokens t := by
  cases hlength : Numeral.length? t with
  | some n =>
      have hsplit := List.take_append_drop n t
      have htake : (t.take n).length = n := List.length_take_of_le (Numeral.take_length? hlength).2
      exact Or.inl ⟨t.take n, t.drop n, hsplit.symm, .numeral (by rw [hsplit, htake, hlength])⟩
  | none =>
      cases t with
      | nil => exact Or.inr ⟨hlength, nofun⟩
      | cons ch r =>
          cases hch : operatorChars.contains ch with
          | true => exact Or.inl ⟨[ch], r, rfl, .operator hch hlength⟩
          | false =>
              refine Or.inr ⟨hlength, fun d hd => ?_⟩
              cases hd
              exact hch

/-- Every text is made of tokens with blanks behind them, possibly none, and a rest where there is no token. -/
theorem exists_segmented (t : Text) :
    ∃ segments ending, t = written segments ++ ending ∧ Segmented ending segments ∧ EndsTokens ending := by
  -- A token is not empty, so what stands behind it and its blanks is shorter.
  induction hn : t.length using Nat.strong_induction_on generalizing t with
  | _ n ih =>
      rcases exists_tokenBefore_or_endsTokens t with ⟨u, r, rfl, hu⟩ | hends
      · obtain ⟨gap, r, rfl, hgap, hr⟩ := exists_blank r
        have hlong := List.length_pos_of_ne_nil hu.ne_nil
        rw [List.length_append, List.length_append] at hn
        obtain ⟨segments, ending, rfl, hsegmented, hending⟩ := ih r.length (by omega) r rfl
        exact ⟨(u, gap) :: segments, ending, by simp [written_cons], .cons hu hgap hr hsegmented, hending⟩
      · exact ⟨[], t, rfl, .nil, hends⟩

/-! ## A line that is taken whole -/

theorem Walk.of_oneOrMore {p : Parser Tally} {s s' : Tally} (h : Walk p c vs e x)
    (hrun : (p.oneOrMore.run c).run s = .ok (.success v d) s') : vs ≠ [] ∧ d = e := by
  obtain ⟨⟨vs', e'⟩, u, hrepeated, hrun⟩ := run_bind_eq_ok hrun
  have hwalk := h.repeated s
  cases x with
  | error fault =>
      obtain ⟨u', hfault⟩ := hwalk
      rw [hfault] at hrepeated
      cases hrepeated
  | ok ts =>
      dsimp only at hwalk
      rw [hwalk] at hrepeated
      cases hrepeated
      dsimp only at hrun
      split at hrun
      · cases hrun
      · rename_i hvs
        cases hrun
        exact ⟨by simpa using hvs, rfl⟩

theorem endsLine_of_newline {s s' : Tally} (hd : d.InSource)
    (hrun : ((Parser.satisfy .newline).run d).run s = .ok (.success v e) s') (he : e.rest = []) : EndsLine d.rest := by
  cases hrest : d.rest with
  | nil => exact Or.inl rfl
  | cons ch r =>
      cases hch : Alphabet.lineEnds.contains ch with
      | true =>
          have htest : CharClass.newline.test ch = .ok true := congrArg Except.ok hch
          rw [Parser.run_satisfy_cons hd.1 hrest htest] at hrun
          cases hrun
          have hr : r = [] := (rest_advance_one hd.1 hrest).symm.trans he
          exact endsLine_iff.2 (Or.inr ⟨ch, hch, by rw [hr]⟩)
      | false =>
          have htest : CharClass.newline.test ch = .ok false := congrArg Except.ok hch
          rw [Parser.run_satisfy_fail hd.1 (by simpa [hrest] using htest)] at hrun
          cases hrun

theorem endsLine_of_keepFirst {p : Parser Tally} {s s' : Tally}
    (hrun : ((p.seqKeepFirst (.satisfy .newline)).run c).run s = .ok (.success v e) s') (he : e.rest = []) :
    ∃ d t, (p.run c).run s = .ok (.success v d) t ∧ (d.InSource → EndsLine d.rest) := by
  obtain ⟨o, t, hp, hrun⟩ := run_bind_eq_ok hrun
  cases o with
  | failure m => cases hrun
  | success w d =>
      obtain ⟨o, u, hnewline, hrun⟩ := run_bind_eq_ok hrun
      cases o with
      | failure m =>
          cases hrun
          exact ⟨e, t, hp, fun _ => Or.inl he⟩
      | success v' e' =>
          cases hrun
          exact ⟨d, t, hp, fun hd => endsLine_of_newline hd hnewline he⟩

theorem tokenize_eq_ok (h : tokenize source = .ok (mark, .ok tokens)) :
    ∃ v e tally, (line.run { source }).run {} = .ok (.success v e) tally ∧ e.rest = [] := by
  unfold tokenize at h
  split at h
  · cases h
  · cases h
  · rename_i v e tally hrun
    split at h
    · rename_i hempty
      exact ⟨v, e, tally, hrun, List.isEmpty_iff.1 hempty⟩
    · cases h

/-- The tokens that come out are those of all the texts that the source is made of. -/
theorem exists_segments_of_tokenize (h : tokenize source = .ok (mark, .ok tokens)) :
    ∃ segments ending, source = written segments ++ ending ∧ Segmented ending segments ∧ EndsLine ending ∧
      (segments.map (·.1)).mapM Token.ofText = .ok tokens := by
  obtain ⟨segments, ending, hsource, hsegmented, hending⟩ := exists_segmented source
  have hc : ({ source } : Cursor).InSource := ⟨Int.le_refl 0, Int.natCast_nonneg _⟩
  have hwalk := walk_tokens hc hsource hsegmented hending
  obtain ⟨v, e, tally, hrun, hrest⟩ := tokenize_eq_ok h
  obtain ⟨-, -, tally', hrun, -⟩ := Parser.track_eq_ok hrun
  obtain ⟨d, tally'', hrun, hends⟩ := endsLine_of_keepFirst hrun hrest
  obtain ⟨hne, rfl⟩ := hwalk.of_oneOrMore hrun
  have hends := hends (inSource_advance hc _)
  rw [rest_advance hc.1, show ({ source } : Cursor).rest = written segments ++ ending from hsource,
    List.drop_left] at hends
  have hsegments : segments ≠ [] := by simpa using hne
  rw [hsource, tokenize_written hsegments hsegmented hends] at h
  obtain ⟨ts, hts, h⟩ := bind_eq_ok h
  obtain ⟨_, -, h⟩ := bind_eq_ok h
  cases h
  exact ⟨segments, ending, hsource, hsegmented, hends, hts⟩

/-! ## Kinds -/

/-- What the text of a token becomes. -/
inductive Becomes : Text → Token → Prop
  | number {t : Text} {x : Number} : t ∈ Numeral.grammar → t.head?.any Unicode.isDecimal = true →
      Number.read t = .ok x → Becomes t (.ofNumber x)
  | operator (op : Operator) : Becomes op.symbol (.text op.symbol)
  | kept {t : Text} : t ∈ Numeral.grammar → t.head?.any Unicode.isDecimal = false → Becomes t (.text t)

/-- The token is a number or an operator. -/
def Token.WellTyped : Token → Prop
  | .int _ | .float _ => True
  | .text t => ∃ op : Operator, t = op.symbol

theorem Operator.symbol_not_mem (op : Operator) : op.symbol ∉ Numeral.grammar := by
  intro h
  obtain ⟨n, hn, -⟩ := Numeral.length_le_length? h []
  cases op <;> cases hn

theorem exists_symbol {ch : Char} (h : operatorChars.contains ch = true) : ∃ op : Operator, [ch] = op.symbol := by
  have hall : operatorChars.all (fun ch => (Operator.ofText? [ch]).isSome) = true := by decide
  obtain ⟨op, hop⟩ := Option.isSome_iff_exists.1 (List.all_eq_true.1 hall ch (List.contains_iff_mem.1 h))
  exact ⟨op, Operator.eq_symbol hop⟩

theorem TokenBefore.becomes {token : Token} (ht : TokenBefore r t) (h : Token.ofText t = .ok token) :
    Becomes t token := by
  have hne := ht.ne_nil
  cases ht with
  | numeral hlength =>
      have hmem := (Numeral.take_length? hlength).1
      rw [List.take_left] at hmem
      cases hdigit : t.head?.any Unicode.isDecimal with
      | true =>
          rw [Token.ofText_of_digit hdigit] at h
          obtain ⟨x, hx, rfl⟩ := map_eq_ok h
          exact .number hmem hdigit hx
      | false =>
          rw [Token.ofText_of_no_digit hne hdigit] at h
          cases h
          exact .kept hmem hdigit
  | operator hch =>
      obtain ⟨op, hop⟩ := exists_symbol hch
      rw [hop] at h ⊢
      have htoken : token = .text op.symbol := by
        cases op <;> cases h <;> rfl
      exact htoken ▸ .operator op

theorem Becomes.wellTyped_iff {token : Token} (h : Becomes t token) :
    token.WellTyped ↔ (t ∈ Numeral.grammar → t.head?.any Unicode.isDecimal = true) := by
  cases h with
  | @number _ x _ hdigit _ =>
      refine iff_of_true ?_ fun _ => hdigit
      cases x <;> exact trivial
  | operator op => exact iff_of_true ⟨op, rfl⟩ fun hmem => absurd hmem op.symbol_not_mem
  | kept hmem hdigit =>
      refine iff_of_false ?_ fun hall => ?_
      · rintro ⟨op, rfl⟩
        exact op.symbol_not_mem hmem
      · rw [hall hmem] at hdigit
        cases hdigit

theorem Segmented.becomes (h : Segmented ending segments)
    (htokens : List.Forall₂ (fun t token => Token.ofText t = .ok token) (segments.map (·.1)) tokens) :
    List.Forall₂ Becomes (segments.map (·.1)) tokens := by
  induction h generalizing tokens with
  | nil =>
      cases htokens
      exact .nil
  | cons ht _ _ _ ih =>
      obtain ⟨token, rest, htoken, hrest, rfl⟩ := List.forall₂_cons_left_iff.1 htokens
      exact .cons (ht.becomes htoken) (ih hrest)

theorem wellTyped_iff_of_becomes {texts : List Text} (h : List.Forall₂ Becomes texts tokens) :
    (∀ token ∈ tokens, token.WellTyped) ↔
      ∀ t ∈ texts, t ∈ Numeral.grammar → t.head?.any Unicode.isDecimal = true := by
  induction h with
  | nil => simp
  | cons hkind _ ih => rw [List.forall_mem_cons, List.forall_mem_cons, hkind.wellTyped_iff, ih]

/-- If a source gives a list of tokens, these are what the texts become that it is made of: a numeral its value if it
begins with a digit, an operator itself, and any other numeral itself as well. So all the tokens are numbers and
operators exactly if every one of the numerals begins with a digit. -/
theorem tokenize_wellTyped_iff (h : tokenize source = .ok (mark, .ok tokens)) :
    ∃ segments ending, source = written segments ++ ending ∧ Segmented ending segments ∧ EndsLine ending ∧
      List.Forall₂ Becomes (segments.map (·.1)) tokens ∧
      ((∀ token ∈ tokens, token.WellTyped) ↔
        ∀ t ∈ segments.map (·.1), t ∈ Numeral.grammar → t.head?.any Unicode.isDecimal = true) := by
  obtain ⟨segments, ending, hsource, hsegmented, hends, htokens⟩ := exists_segments_of_tokenize h
  have hkinds := hsegmented.becomes (mapM_eq_ok_iff.1 htokens)
  exact ⟨segments, ending, hsource, hsegmented, hends, hkinds, wellTyped_iff_of_becomes hkinds⟩

/-- In `2 * 7`, both numerals begin with digits. -/
theorem tokenize_wellTyped_product :
    (∃ mark, tokenize "2 * 7\n" = .ok (mark, .ok [.int 2, .text "*", .int 7])) ∧
      ∃ segments ending, ("2 * 7\n" : Text) = written segments ++ ending ∧ Segmented ending segments ∧ EndsLine ending ∧
        List.Forall₂ Becomes (segments.map (·.1)) [.int 2, .text "*", .int 7] ∧
        ((∀ token ∈ [Token.int 2, .text "*", .int 7], token.WellTyped) ↔
          ∀ t ∈ segments.map (·.1), t ∈ Numeral.grammar → t.head?.any Unicode.isDecimal = true) := by
  have h : ∃ mark, tokenize "2 * 7\n" = .ok (mark, .ok [.int 2, .text "*", .int 7]) := ⟨_, rfl⟩
  obtain ⟨mark, h⟩ := h
  exact ⟨⟨mark, h⟩, tokenize_wellTyped_iff h⟩

/-- The numeral `.5` has a value, but its token is neither a number nor an operator. -/
theorem tokenize_keeps_numeral :
    (∃ mark, tokenize ".5" = .ok (mark, .ok [.text ".5"])) ∧ Numeral.length? ".5" = some 2 ∧
      (∃ x, Number.read ".5" = .ok (.float x)) ∧ ¬(Token.text ".5").WellTyped := by
  refine ⟨⟨_, rfl⟩, by decide, ⟨_, rfl⟩, ?_⟩
  rintro ⟨op, hop⟩
  cases op <;> cases hop

end ParserAlgebra.Calculator
