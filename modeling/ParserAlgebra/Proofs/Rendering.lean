import ParserAlgebra.Proofs.BlankPlacement
import ParserAlgebra.Proofs.LineReader

/-!
# Rendering

The tokenizer finds each of the texts again unless one is an integer with too many digits.
-/

namespace ParserAlgebra

/-! ## A text on one line -/

section Unbroken

open LineReader

variable {r : LineReader} {t : Text}

theorem LineReader.readAll_unbroken (hr : r.behindReturn = false) (h : t.any Text.isBreak = false) :
    r.readAll t = { line := r.line, column := r.column + t.length } := by
  induction t generalizing r with
  | nil =>
      obtain ⟨line, column, behindReturn⟩ := r
      simpa using hr
  | cons ch t ih =>
      rw [List.any_cons, Bool.or_eq_false_iff] at h
      rw [readAll_cons, next_unbroken h.1, ih rfl h.2]
      simp
      omega

/-- Line and column behind a text without breaks, with or without a line end behind it. -/
theorem Text.lineCol_unbroken (h : t.any isBreak = false) (ended : Bool) :
    let source := t ++ if ended then ['\n'] else []
    source.lineCol source.length 0 = if ended then (2, 1) else (1, (t.length : Int) + 1) := by
  intro source
  have hread := lineCol_eq_readAll source (Nat.zero_le _) (Nat.le_refl source.length)
  rw [List.take_length, List.drop_zero, readAll_append, readAll_unbroken rfl h] at hread
  rw [Int.natCast_zero] at hread
  rw [hread]
  cases ended <;> simp [startingAt, next, Int.add_comm]

theorem Mark.between_whole {source : Text} (hne : source ≠ []) :
    Mark.between { source } { source, pos := source.length } = .ok {
      line := (source.lineCol source.length 0).1
      column := (source.lineCol source.length 0).2
      position := source.length
      lastChar := source.getLast?.map ([·]) } := by
  have hlong := List.length_pos_of_ne_nil hne
  have hlast : source.at? (source.length - 1) = source.getLast? := by
    have hpos : ((source.length : Int) - 1).toNat = source.length - 1 := by omega
    rw [Text.at?, if_neg (by omega), Text.index_of_nonneg _ (by omega), hpos, List.getLast?_eq_getElem?]
  unfold between
  dsimp only
  rw [if_neg (by omega), hlast, List.getLast?_eq_some_getLast hne]
  simp

end Unbroken

namespace Calculator

/-! ## Texts with blanks between them -/

variable {p : Piece} {ps : List Piece} {ended : Bool}

/-- The texts of the pieces with a blank between any two, with or without a line end behind the last. -/
def rendered (pieces : List Piece) (ended : Bool) : Text :=
  List.intercalate [' '] (pieces.map Piece.text) ++ if ended then ['\n'] else []

/-- The token that a piece stands for: the value of a numeral, the text of an operator. -/
def Piece.token : Piece → Except Fault Token
  | numeral n => Token.ofNumber <$> Number.read n.text
  | operator op => .ok (.text op.symbol)

theorem Piece.ofText_text (p : Piece) : Token.ofText p.text = p.token := by
  cases p with
  | numeral n =>
      exact Token.ofText_of_digit n.digitFirst
  | operator op => cases op <;> rfl

/-- The numeral has a point or an exponent, or not too many digits for an integer. -/
def Unsigned.Readable (n : Unsigned) : Prop :=
  (∃ ch ∈ n.text, ch = '.' ∨ ch = 'e' ∨ ch = 'E') ∨ (Numeral.digitValues n.text).length ≤ 4300

theorem Unsigned.Readable.exists_number {n : Unsigned} (h : n.Readable) : ∃ x, Number.read n.text = .ok x := by
  rcases h with hfractional | hshort
  · obtain ⟨x, hx⟩ := Number.readWithin_float n.numeral (Number.isFractional_iff.2 hfractional)
    exact ⟨.float x, hx _⟩
  · obtain ⟨x, hx⟩ := Number.exists_isValueOf n.numeral
    exact ⟨x, hx.reads _ (by rintro _ ⟨⟩; exact hshort)⟩

theorem Unsigned.read_eq_error {n : Unsigned} (h : ¬n.Readable) : Number.read n.text = .error .noNumeral := by
  obtain ⟨hwhole, hlong⟩ := not_or.1 h
  rw [← Number.isFractional_iff, Bool.not_eq_true] at hwhole
  exact Number.readWithin_eq_error n.numeral hwhole (Nat.lt_of_not_le hlong)

theorem Piece.exists_token (h : ∀ n, p = .numeral n → n.Readable) : ∃ token, p.token = .ok token := by
  cases p with
  | operator op => exact ⟨_, rfl⟩
  | numeral n =>
      obtain ⟨x, hx⟩ := (h n rfl).exists_number
      exact ⟨.ofNumber x, by rw [token, hx]; rfl⟩

theorem Piece.token_eq_error {n : Unsigned} (h : ¬n.Readable) : (numeral n).token = .error .noNumeral := by
  rw [token, n.read_eq_error h]
  rfl

theorem not_isBreak_of_not_isBlank {ch : Char} (h : Unicode.isBlank ch = false) : Text.isBreak ch = false := by
  rw [Text.isBreak, Bool.or_eq_false_iff, beq_eq_false_iff_ne, beq_eq_false_iff_ne]
  constructor <;>
  · rintro rfl
    exact absurd h (by decide)

theorem Piece.unbroken (p : Piece) : p.text.any Text.isBreak = false := by
  cases p with
  | numeral n =>
      rw [List.any_eq_false]
      intro ch hch
      rw [not_isBreak_of_not_isBlank (Numeral.not_isBlank_of_mem n.numeral ch hch)]
      exact Bool.false_ne_true
  | operator op => cases op <;> decide

/-- The pieces with the blanks that separate them. -/
def separated : List Piece → List Spaced
  | [] => []
  | [p] => [⟨p, [], nofun⟩]
  | p :: q :: ps => ⟨p, [' '], by decide⟩ :: separated (q :: ps)

theorem separated_ne_nil (h : ps ≠ []) : separated ps ≠ [] := by
  fun_cases separated ps with
  | case1 => exact absurd rfl h
  | case2 p => exact List.cons_ne_nil _ _
  | case3 p q ps => exact List.cons_ne_nil _ _

theorem gap_separated (ps : List Piece) : (separated ps).IsChain fun a _ => a.gap ≠ [] := by
  fun_induction separated ps with
  | case1 => exact .nil
  | case2 p => exact .singleton _
  | case3 p q ps ih => exact List.isChain_cons.2 ⟨fun _ _ => List.cons_ne_nil _ _, ih⟩

/-- With a blank behind it, no sign touches a numeral. -/
theorem texts_segments_separated (ps : List Piece) :
    (Spaced.segments (separated ps)).map (·.1) = ps.map Piece.text := by
  fun_induction separated ps with
  | case1 => rfl
  | case2 p => simp [Spaced.segments, Spaced.touches]
  | case3 p q ps ih => simpa [Spaced.segments, Spaced.touches] using ih

theorem written_separated (ps : List Piece) :
    (written (Spaced.segments (separated ps))) = List.intercalate [' '] (ps.map Piece.text) := by
  rw [Spaced.written_segments]
  fun_induction separated ps with
  | case1 => rfl
  | case2 p => simp [List.intercalate]
  | case3 p q ps ih =>
      rw [List.flatMap_cons, ih]
      simp [List.intercalate]

theorem unbroken_intercalate (ps : List Piece) :
    (List.intercalate [' '] (ps.map Piece.text)).any Text.isBreak = false := by
  rw [← written_separated, Spaced.written_segments, List.any_eq_false]
  intro ch hch
  obtain ⟨a, -, hch⟩ := List.mem_flatMap.1 hch
  rcases List.mem_append.1 hch with hch | hch
  · exact List.any_eq_false.1 a.piece.unbroken ch hch
  · rcases a.blank ch hch with rfl | rfl <;> decide

/-- The record of a scanner that has seen the whole of a text, with no break but a line end at its end. -/
def wholeMark (source : Text) (ended : Bool) : Mark where
  line := if ended then 2 else 1
  column := if ended then 1 else source.length + 1
  position := source.length
  lastChar := source.getLast?.map ([·])

theorem between_rendered (hne : rendered ps ended ≠ []) :
    Mark.between { source := rendered ps ended } { source := rendered ps ended, pos := (rendered ps ended).length } =
      .ok (wholeMark (rendered ps ended) ended) := by
  rw [Mark.between_whole hne, rendered, Text.lineCol_unbroken (unbroken_intercalate ps) ended]
  cases ended <;> simp [wholeMark]

/-! ## The tokens of all pieces -/

theorem exists_tokens (h : ∀ n, .numeral n ∈ ps → n.Readable) :
    ∃ tokens, List.Forall₂ (fun p token => p.token = .ok token) ps tokens := by
  induction ps with
  | nil => exact ⟨[], .nil⟩
  | cons p ps ih =>
      obtain ⟨token, htoken⟩ := p.exists_token fun n hn => h n (hn ▸ List.mem_cons_self)
      obtain ⟨tokens, htokens⟩ := ih fun n hn => h n (List.mem_cons_of_mem p hn)
      exact ⟨token :: tokens, .cons htoken htokens⟩

/-- One numeral that cannot be read is enough, whatever stands in front of it. -/
theorem mapM_token_eq_error {n : Unsigned} (hmem : .numeral n ∈ ps) (h : ¬n.Readable) :
    ps.mapM Piece.token = .error .noNumeral := by
  induction ps with
  | nil => cases hmem
  | cons p ps ih =>
      rw [List.mapM_cons]
      by_cases hp : ∀ m, p = .numeral m → m.Readable
      · obtain ⟨token, htoken⟩ := p.exists_token hp
        have hne : Piece.numeral n ≠ p := fun heq => h (hp n heq.symm)
        rw [htoken, ih ((List.mem_cons.1 hmem).resolve_left hne)]
        rfl
      · simp only [not_forall] at hp
        obtain ⟨m, rfl, hm⟩ := hp
        rw [Piece.token_eq_error hm]
        rfl

theorem tokenize_rendered_eq (hne : ps ≠ []) (ended : Bool) :
    tokenize (rendered ps ended) = do
      let tokens ← ps.mapM Piece.token
      return (wholeMark (rendered ps ended) ended, .ok tokens) := by
  have hends : EndsLine (if ended then ['\n'] else []) := by
    cases ended with
    | false => exact Or.inl rfl
    | true => exact Or.inr (Or.inl rfl)
  have hsegmented := Spaced.segmented hends ((gap_separated ps).imp fun _ _ hgap hnil => absurd hnil hgap)
  have hsegments : Spaced.segments (separated ps) ≠ [] := Spaced.segments_ne_nil (separated_ne_nil hne)
  have htokens := tokenize_written hsegments hsegmented hends
  have hsource : rendered ps ended ≠ [] := by
    intro hnil
    have hstart := hsegmented.not_atEnd hsegments
    rw [written_separated, ← rendered, hnil] at hstart
    exact hstart (by decide)
  rw [written_separated, texts_segments_separated, List.mapM_map] at htokens
  rw [show Token.ofText ∘ Piece.text = Piece.token from funext Piece.ofText_text] at htokens
  dsimp only at htokens
  rw [← rendered, between_rendered hsource] at htokens
  exact htokens

/-! ## The result -/

/-- If all the numerals are readable, rendered pieces come out as the list of their tokens, in the same order, and the
scanner has seen the whole text. Otherwise the run gives up, since a numeral is none for the reader of integers. -/
theorem tokenize_rendered (hne : ps ≠ []) (ended : Bool) :
    ((∀ n, .numeral n ∈ ps → n.Readable) →
      ∃ tokens, List.Forall₂ (fun p token => p.token = .ok token) ps tokens ∧
        tokenize (rendered ps ended) = .ok (wholeMark (rendered ps ended) ended, .ok tokens)) ∧
    ((∃ n, .numeral n ∈ ps ∧ ¬n.Readable) → tokenize (rendered ps ended) = .error .noNumeral) := by
  rw [tokenize_rendered_eq hne]
  constructor
  · intro h
    obtain ⟨tokens, htokens⟩ := exists_tokens h
    exact ⟨tokens, htokens, bind_of_ok (mapM_eq_ok_iff.2 htokens) rfl⟩
  · rintro ⟨n, hmem, hn⟩
    rw [mapM_token_eq_error hmem hn]
    rfl

/-- Two operators in a row, and two numerals. -/
theorem tokenize_rendered_in_any_order :
    ∃ ps : List Piece, ps ≠ [] ∧ rendered ps true = "2 + - 3 5\n" ∧
      tokenize (rendered ps true) =
        .ok ({ line := 2, column := 1, position := 10, lastChar := some "\n" },
          .ok [.int 2, .text "+", .text "-", .int 3, .int 5]) := by
  let digit (t : Text) (h : Numeral.length? t = some 1) (hdigit : t.head?.any Unicode.isDecimal = true)
      (hone : t.take 1 = t) : Unsigned := ⟨t, hone ▸ (Numeral.take_length? h).1, hdigit⟩
  let two := digit "2" (by decide) (by decide) rfl
  let three := digit "3" (by decide) (by decide) rfl
  let five := digit "5" (by decide) (by decide) rfl
  let ps : List Piece := [.numeral two, .operator .add, .operator .sub, .numeral three, .numeral five]
  have hne : ps ≠ [] := List.cons_ne_nil _ _
  have hreadable : ∀ n, .numeral n ∈ ps → n.Readable := by
    intro n hn
    have hn : n = two ∨ n = three ∨ n = five := by simpa [ps] using hn
    rcases hn with rfl | rfl | rfl <;> exact Or.inr (by decide)
  obtain ⟨tokens, htokens, hrun⟩ := (tokenize_rendered hne true).1 hreadable
  have hvalues : ps.mapM Piece.token = .ok [.int 2, .text "+", .text "-", .int 3, .int 5] := rfl
  cases (mapM_eq_ok_iff.2 htokens).symm.trans hvalues
  exact ⟨ps, hne, rfl, hrun⟩

theorem ones_mem_someDigits (k : Nat) : List.replicate (k + 1) '1' ∈ Numeral.someDigits := by
  refine Numeral.mem_someDigits.2 ⟨by simp, mem_many.2 fun ch hch => ?_⟩
  rw [List.eq_of_mem_replicate hch]
  rfl

theorem digitValues_ones (k : Nat) : Numeral.digitValues (List.replicate k '1') = List.replicate k 1 :=
  List.filterMap_replicate_of_some rfl

theorem nil_mem_sign : [] ∈ Numeral.sign :=
  Numeral.mem_sign.2 (Or.inl rfl)

/-- The numeral of `k + 1` ones. -/
def ones (k : Nat) : Unsigned where
  text := List.replicate (k + 1) '1'
  numeral := Numeral.mem_grammar_of_whole nil_mem_sign (ones_mem_someDigits k)
  digitFirst := rfl

theorem not_readable_ones {k : Nat} (hk : 4300 ≤ k) : ¬(ones k).Readable := by
  refine not_or.2 ⟨?_, ?_⟩
  · rintro ⟨ch, hch, hmark⟩
    rw [List.eq_of_mem_replicate hch] at hmark
    exact absurd hmark (by decide)
  · rw [ones, digitValues_ones, List.length_replicate]
    omega

theorem length?_ones (k : Nat) : Numeral.length? (ones k).text = some (k + 1) := by
  have hlength := Numeral.length?_append nil_mem_sign (ones_mem_someDigits k) (r := []) nofun
  rwa [List.append_nil, List.nil_append, List.length_replicate] at hlength

theorem rendered_ones (k : Nat) : rendered [.numeral (ones k)] false = List.replicate (k + 1) '1' := by
  rw [rendered, List.map_cons, List.map_nil, List.intercalate_singleton]
  exact List.append_nil _

theorem tokenize_ones {k : Nat} (hk : 4300 ≤ k) : tokenize (List.replicate (k + 1) '1') = .error .noNumeral := by
  have htokens := tokenize_rendered_eq (List.cons_ne_nil (Piece.numeral (ones k)) []) false
  rw [mapM_token_eq_error List.mem_cons_self (not_readable_ones hk), rendered_ones] at htokens
  exact htokens

/-- A numeral of more than 4300 ones is matched whole and writes an integer, but is not read. -/
theorem exists_long_numeral {k : Nat} (hk : 4300 < k) :
    ∃ n : Unsigned, n.text = List.replicate k '1' ∧
      Numeral.length? n.text = some k ∧ (∃ i, Number.readWithin none n.text = .ok (.int i)) ∧
      rendered [.numeral n] false = List.replicate k '1' ∧
      tokenize (List.replicate k '1') = .error .noNumeral := by
  obtain ⟨j, rfl⟩ := Nat.exists_eq_add_one_of_ne_zero (Nat.ne_zero_of_lt hk)
  have hvalue : ∃ i, Number.readWithin none (ones j).text = .ok (.int i) :=
    ⟨_, Number.readWithin_int nil_mem_sign (ones_mem_someDigits j) nofun⟩
  exact ⟨ones j, rfl, length?_ones j, hvalue, rendered_ones j, tokenize_ones (Nat.le_of_lt_succ hk)⟩

theorem tokenize_gives_up_on_long_numeral :
    ∃ n : Unsigned, n.text = List.replicate 4301 '1' ∧
      Numeral.length? n.text = some 4301 ∧ (∃ i, Number.readWithin none n.text = .ok (.int i)) ∧
      rendered [.numeral n] false = List.replicate 4301 '1' ∧
      tokenize (List.replicate 4301 '1') = .error .noNumeral :=
  exists_long_numeral (by decide)

end Calculator

end ParserAlgebra
