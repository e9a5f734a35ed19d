import Mathlib.Data.List.Chain
import ParserAlgebra.Proofs.Climbing
import ParserAlgebra.Proofs.Nesting
import ParserAlgebra.Proofs.Tokenizing

/-!
# Where blanks stand

A sign right in front of a numeral is taken for a part of it. Only a blank between the two keeps it an operator.
-/

namespace ParserAlgebra.Calculator

open Cursor Parse

/-! ## Lines -/

/-- A numeral that begins with a digit. -/
structure Unsigned where
  text : Text
  numeral : text ∈ Numeral.grammar
  digitFirst : text.head?.any Unicode.isDecimal = true

inductive Piece where
  | numeral (n : Unsigned)
  | operator (op : Operator)

namespace Piece

def text : Piece → Text
  | numeral n => n.text
  | operator op => op.symbol

def isNumeral : Piece → Bool
  | numeral _ => true
  | operator _ => false

def isSign : Piece → Bool
  | operator .add | operator .sub => true
  | operator _ | numeral _ => false

theorem isNumeral_iff {p : Piece} : p.isNumeral = true ↔ ∃ n, p = .numeral n := by
  cases p <;> simp [isNumeral]

end Piece

/-- A piece and the blanks behind it. -/
structure Spaced where
  piece : Piece
  gap : Text
  blank : Blank gap

namespace Spaced

/-- The piece is a sign, and without a blank between them, a numeral comes next. -/
def touches (a : Spaced) (next : List Spaced) : Bool :=
  a.piece.isSign && a.gap.isEmpty && next.head?.any (·.piece.isNumeral)

/-- Of each piece, whether it is a sign that touches a numeral. -/
def touching : List Spaced → List Bool
  | [] => []
  | a :: next => a.touches next :: touching next

/-- The segments with a text in front of the first one. -/
def glue (t : Text) : List (Text × Text) → List (Text × Text)
  | [] => [(t, [])]
  | (u, gap) :: segments => (t ++ u, gap) :: segments

/-- The texts of the tokens with the blanks behind them. A sign that touches a numeral makes one text with it. -/
def segments : List Spaced → List (Text × Text)
  | [] => []
  | a :: next =>
    if a.touches next then glue a.piece.text (segments next) else (a.piece.text, a.gap) :: segments next

end Spaced

/-- Numerals and operators in turn up to where the line ends. -/
structure Line where
  pieces : List Spaced
  nonempty : pieces ≠ []
  alternates : pieces.IsChain fun a b => a.piece.isNumeral ≠ b.piece.isNumeral
  ending : Text
  ends : EndsLine ending

def Line.source (l : Line) : Text :=
  (l.pieces.flatMap fun a => a.piece.text ++ a.gap) ++ l.ending

def Line.texts (l : Line) : List Text :=
  (Spaced.segments l.pieces).map (·.1)

/-! ## What may follow a piece -/

variable {t r ending : Text} {ch : Char} {a b : Spaced} {next next' ps ps' : List Spaced}

theorem endsNumeral_cons (h : ch ∈ Alphabet.spaces ++ operatorChars ++ Alphabet.lineEnds) (r : Text) :
    Numeral.EndsNumeral (ch :: r) := by
  have hall : (Alphabet.spaces ++ operatorChars ++ Alphabet.lineEnds).all (fun ch =>
      !Unicode.isDecimal ch && ch != '.' && ch != 'e' && ch != 'E') = true := by decide
  have hch := List.all_eq_true.1 hall ch h
  intro d hd
  cases hd
  simpa [and_assoc] using hch

theorem Blank.endsNumeral {gap : Text} (hgap : Blank gap) (h : gap = [] → Numeral.EndsNumeral r) :
    Numeral.EndsNumeral (gap ++ r) := by
  cases gap with
  | nil => exact h rfl
  | cons ch gap =>
      have hch := List.contains_iff_mem.1 (contains_spaces.2 (hgap ch List.mem_cons_self))
      exact endsNumeral_cons (List.mem_append_left _ (List.mem_append_left _ hch)) _

theorem EndsLine.endsNumeral (h : EndsLine ending) : Numeral.EndsNumeral ending := by
  rcases endsLine_iff.1 h with rfl | ⟨ch, hch, rfl⟩
  · exact nofun
  · exact endsNumeral_cons (List.mem_append_right _ (List.contains_iff_mem.1 hch)) []

theorem EndsLine.endsBlanks (h : EndsLine ending) : EndsBlanks ending := by
  rcases h with rfl | rfl | rfl
  · exact nofun
  all_goals
    rintro d ⟨⟩
    decide

theorem Operator.symbol_eq (op : Operator) : ∃ ch, op.symbol = [ch] ∧ operatorChars.contains ch = true ∧
    Alphabet.signs.contains ch = (Piece.operator op).isSign := by
  cases op <;> exact ⟨_, rfl, by decide, by decide⟩

theorem Operator.endsNumeral (op : Operator) (r : Text) : Numeral.EndsNumeral (op.symbol ++ r) := by
  obtain ⟨ch, hsymbol, hch, -⟩ := op.symbol_eq
  rw [hsymbol]
  exact endsNumeral_cons (List.mem_append_left _ (List.mem_append_right _ (List.contains_iff_mem.1 hch))) r

theorem Unsigned.eq_cons (n : Unsigned) : ∃ ch u, n.text = ch :: u ∧ Unicode.isDecimal ch = true :=
  cons_of_head?_any n.digitFirst

/-- A sign in front of an unsigned numeral makes a numeral with it. -/
theorem Unsigned.mem_signed (n : Unsigned) {op : Operator} (h : (Piece.operator op).isSign = true) :
    op.symbol ++ n.text ∈ Numeral.grammar := by
  obtain ⟨ch, hsymbol, -, hch⟩ := op.symbol_eq
  obtain ⟨s, hs, m, hm, e, he, htext⟩ := Numeral.exists_parts n.numeral
  obtain ⟨d, u, hn, hd⟩ := n.eq_cons
  rcases Numeral.mem_sign.1 hs with rfl | ⟨c, hc, rfl⟩
  · have hsign : [ch] ∈ Numeral.sign := Numeral.mem_sign.2 (Or.inr ⟨ch, hch.trans h, rfl⟩)
    rw [hsymbol, htext, List.nil_append, ← List.append_assoc]
    exact Language.append_mem_mul (Language.append_mem_mul hsign hm) he
  · rw [hn] at htext
    obtain ⟨rfl, -⟩ := List.cons.inj htext
    rw [Numeral.not_isDecimal_of_sign hc] at hd
    cases hd

theorem Piece.text_eq_cons (p : Piece) : ∃ ch u, p.text = ch :: u ∧ Alphabet.spaces.contains ch = false := by
  cases p with
  | numeral n =>
      obtain ⟨ch, u, hn, hch⟩ := n.eq_cons
      refine ⟨ch, u, hn, ?_⟩
      by_contra hblank
      rw [Bool.not_eq_false] at hblank
      have hdigit : Unicode.isDecimal ch = false := Numeral.not_of_contains (by decide) hblank
      rw [hch] at hdigit
      cases hdigit
  | operator op =>
      obtain ⟨ch, hsymbol, hch, -⟩ := op.symbol_eq
      exact ⟨ch, [], hsymbol, Numeral.not_of_contains (by decide) hch⟩

/-! ## The tokens of a line -/

namespace Spaced

theorem touches_iff : a.touches next = true ↔
    a.piece.isSign = true ∧ a.gap = [] ∧ ∃ b rest n, next = b :: rest ∧ b.piece = .numeral n := by
  cases next with
  | nil => simp [touches]
  | cons b rest => simp [touches, and_assoc, Piece.isNumeral_iff]

theorem segments_cons_numeral {n : Unsigned} (h : a.piece = .numeral n) (next : List Spaced) :
    segments (a :: next) = (n.text, a.gap) :: segments next := by
  have htouches : a.touches next = false := by simp [touches, h, Piece.isSign]
  rw [segments, if_neg (by simp [htouches]), h]
  rfl

theorem segments_touching (h : a.touches next = true) : ∃ (n : Unsigned) (gap : Text) (rest : List (Text × Text)),
    segments next = (n.text, gap) :: rest ∧ segments (a :: next) = (a.piece.text ++ n.text, gap) :: rest := by
  obtain ⟨-, -, b, rest, n, rfl, hn⟩ := touches_iff.1 h
  refine ⟨n, b.gap, segments rest, segments_cons_numeral hn rest, ?_⟩
  rw [segments, if_pos h, segments_cons_numeral hn]
  rfl

theorem segments_ne_nil {ps : List Spaced} (h : ps ≠ []) : segments ps ≠ [] := by
  obtain ⟨a, next, rfl⟩ := List.exists_cons_of_ne_nil h
  rw [segments]
  split
  · cases segments next <;> exact List.cons_ne_nil _ _
  · exact List.cons_ne_nil _ _

/-- In a line, what is written are the pieces with the blanks behind them. -/
theorem written_segments (ps : List Spaced) :
    written (segments ps) = ps.flatMap fun a => a.piece.text ++ a.gap := by
  induction ps with
  | nil => rfl
  | cons a next ih =>
      rw [segments, List.flatMap_cons]
      split
      · rename_i htouches
        obtain ⟨-, hgap, b, rest, -, rfl, -⟩ := touches_iff.1 htouches
        rw [← ih, hgap, List.append_nil]
        cases segments (b :: rest) <;> simp [glue, written]
      · rw [written_cons, ih]

/-- What stands behind the blanks of a piece does not begin with one. -/
theorem endsBlanks_next (hending : EndsLine ending) (next : List Spaced) :
    EndsBlanks (written (segments next) ++ ending) := by
  rw [written_segments]
  cases next with
  | nil => exact hending.endsBlanks
  | cons b rest =>
      obtain ⟨ch, u, htext, hch⟩ := b.piece.text_eq_cons
      rw [List.flatMap_cons, htext]
      refine endsBlanks_iff.2 fun d hd => ?_
      cases hd
      exact hch

/-- Behind a piece that no numeral touches, a numeral cannot go on. -/
theorem endsNumeral_next (hending : EndsLine ending) (a : Spaced)
    (h : a.gap = [] → ∀ b ∈ next.head?, b.piece.isNumeral = false) :
    Numeral.EndsNumeral (a.gap ++ (written (segments next) ++ ending)) := by
  refine a.blank.endsNumeral fun hgap => ?_
  rw [written_segments]
  cases next with
  | nil => exact hending.endsNumeral
  | cons b rest =>
      have hb := h hgap b rfl
      cases hpiece : b.piece with
      | numeral n =>
          rw [hpiece] at hb
          cases hb
      | operator op =>
          rw [List.flatMap_cons, hpiece, List.append_assoc, List.append_assoc]
          exact op.endsNumeral _

theorem tokenBefore_numeral (hending : EndsLine ending) {n : Unsigned} (ha : a.piece = .numeral n)
    (h : ∀ b ∈ next.head?, a.gap = [] → a.piece.isNumeral ≠ b.piece.isNumeral) {t : Text} (ht : t ∈ Numeral.grammar) :
    TokenBefore (a.gap ++ (written (segments next) ++ ending)) t := by
  refine .numeral (Numeral.length?_append_of_mem ht (endsNumeral_next hending a fun hgap b hb => ?_))
  have hne := h b hb hgap
  rw [ha] at hne
  exact Bool.eq_false_of_not_eq_true hne.symm

theorem tokenBefore_operator (hending : EndsLine ending) {op : Operator} (ha : a.piece = .operator op)
    (h : a.touches next = false) : TokenBefore (a.gap ++ (written (segments next) ++ ending)) op.symbol := by
  obtain ⟨ch, hsymbol, hch, hsign⟩ := op.symbol_eq
  have hends := op.endsNumeral (a.gap ++ (written (segments next) ++ ending))
  rw [hsymbol] at hends ⊢
  refine .operator hch ?_
  cases hs : Alphabet.signs.contains ch with
  | false => exact hends.length? hs
  | true =>
      refine Numeral.EndsNumeral.length?_sign hs (endsNumeral_next hending a fun hgap b hb => ?_)
      obtain ⟨rest, rfl⟩ := List.head?_eq_some_iff.1 hb
      rw [hs, ← ha] at hsign
      simpa [touches, ← hsign, hgap] using h

theorem segmented (hending : EndsLine ending) {ps : List Spaced}
    (h : ps.IsChain fun a b => a.gap = [] → a.piece.isNumeral ≠ b.piece.isNumeral) :
    Segmented ending (segments ps) := by
  induction ps with
  | nil => exact .nil
  | cons a next ih =>
      obtain ⟨hturn, hnext⟩ := List.isChain_cons.1 h
      have ih := ih hnext
      have hblanks := endsBlanks_next hending next
      cases ha : a.piece with
      | numeral n =>
          rw [segments_cons_numeral ha]
          exact .cons (tokenBefore_numeral hending ha hturn n.numeral) a.blank hblanks ih
      | operator op =>
          rw [segments, ha]
          split
          · -- What may follow the numeral alone may follow the numeral with the sign in front of it.
            rename_i htouches
            obtain ⟨hsign, -, b, rest, n, rfl, hn⟩ := touches_iff.1 htouches
            rw [segments_cons_numeral hn] at ih ⊢
            cases ih with
            | cons _ hgap hblanks hrest =>
                have hmem := n.mem_signed (ha ▸ hsign)
                exact .cons (tokenBefore_numeral hending hn (List.isChain_cons.1 hnext).1 hmem) hgap hblanks hrest
          · rename_i htouches
            exact .cons (tokenBefore_operator hending ha (by simpa using htouches)) a.blank hblanks ih

end Spaced

/-! ## What the tokens tell -/

/-- The text that the token keeps. Of a number, the text is not kept. -/
def Token.kept? : Token → Option Text
  | .text t => some t
  | .int _ | .float _ => none

/-- What the token for a text keeps of it. -/
def keptOf (t : Text) : Option Text :=
  if t.head?.any Unicode.isDecimal then none else some t

theorem kept?_of_ofText {token : Token} (h : Token.ofText t = .ok token) : token.kept? = keptOf t := by
  rw [keptOf]
  cases t with
  | nil => cases h
  | cons ch t =>
      cases hdigit : (ch :: t).head?.any Unicode.isDecimal with
      | true =>
          rw [Token.ofText_of_digit hdigit] at h
          obtain ⟨x, -, rfl⟩ := map_eq_ok h
          cases x <;> rfl
      | false =>
          rw [Token.ofText_of_no_digit (List.cons_ne_nil ch t) hdigit] at h
          cases h
          rfl

theorem map_kept?_of_mapM {texts : List Text} {tokens : List Token} (h : texts.mapM Token.ofText = .ok tokens) :
    tokens.map Token.kept? = texts.map keptOf := by
  replace h := mapM_eq_ok_iff.1 h
  induction h with
  | nil => rfl
  | cons ht _ ih => rw [List.map_cons, List.map_cons, kept?_of_ofText ht, ih]

theorem keptOf_unsigned (n : Unsigned) : keptOf n.text = none :=
  if_pos n.digitFirst

theorem keptOf_sign {p : Piece} (h : p.isSign = true) (t : Text) : keptOf (p.text ++ t) = some (p.text ++ t) := by
  cases p with
  | numeral n => cases h
  | operator op =>
      obtain ⟨ch, hsymbol, -, hch⟩ := op.symbol_eq
      have hdigit := Numeral.not_isDecimal_of_sign (hch.trans h)
      rw [Piece.text, hsymbol]
      exact if_neg (by simp [hdigit])

namespace Spaced

theorem touches_of_kept {a' : Spaced} (hpiece : a.piece = a'.piece) (htouches : a.touches next = true)
    (h : ((segments (a :: next)).map (keptOf ·.1)).head? = ((segments (a' :: next')).map (keptOf ·.1)).head?) :
    a'.touches next' = true := by
  obtain ⟨n, gap, rest, -, hglued⟩ := segments_touching htouches
  by_contra hnot
  rw [hglued, segments, if_neg hnot, ← hpiece] at h
  have hsign := (touches_iff.1 htouches).1
  have halone := keptOf_sign hsign []
  rw [List.append_nil] at halone
  obtain ⟨ch, u, htext, -⟩ := n.eq_cons
  simp [keptOf_sign hsign, halone, htext] at h

/-- The tokens of a line tell where its signs touch numerals. -/
theorem touching_eq_of_kept {ps ps' : List Spaced} (hpieces : ps.map (·.piece) = ps'.map (·.piece))
    (h : (segments ps).map (keptOf ·.1) = (segments ps').map (keptOf ·.1)) : touching ps = touching ps' := by
  -- A numeral with a sign in front of it is kept whole, one without is not kept, so the first pieces of both lines
  -- touch what follows or do not, and the tokens of what follows agree in both cases.
  induction ps generalizing ps' with
  | nil => rw [List.map_eq_nil_iff.1 hpieces.symm]
  | cons a next ih =>
      obtain ⟨a', next', rfl, hpiece, hnext⟩ := List.map_eq_cons_iff.1 hpieces.symm
      have htouches : a.touches next = a'.touches next' := Bool.eq_iff_iff.2
        ⟨fun ht => touches_of_kept hpiece.symm ht (by rw [h]), fun ht => touches_of_kept hpiece ht (by rw [h])⟩
      rw [touching, touching, htouches]
      refine congrArg _ (ih hnext.symm ?_)
      cases hs : a.touches next with
      | false =>
          rw [segments, segments, if_neg (by simp [hs]), if_neg (by simp [← htouches, hs])] at h
          exact (List.cons.inj h).2
      | true =>
          obtain ⟨n, gap, rest, hrest, hglued⟩ := segments_touching hs
          obtain ⟨n', gap', rest', hrest', hglued'⟩ := segments_touching (htouches ▸ hs)
          rw [hglued, hglued'] at h
          rw [hrest, hrest', List.map_cons, List.map_cons, keptOf_unsigned, keptOf_unsigned]
          exact congrArg _ (List.cons.inj h).2

theorem texts_eq_of_touching {ps ps' : List Spaced} (hpieces : ps.map (·.piece) = ps'.map (·.piece))
    (h : touching ps = touching ps') : (segments ps).map (·.1) = (segments ps').map (·.1) := by
  induction ps generalizing ps' with
  | nil => rw [List.map_eq_nil_iff.1 hpieces.symm]
  | cons a next ih =>
      obtain ⟨a', next', rfl, hpiece, hnext⟩ := List.map_eq_cons_iff.1 hpieces.symm
      obtain ⟨htouches, h⟩ := List.cons.inj h
      have ih := ih hnext.symm h
      cases hs : a.touches next with
      | false =>
          rw [segments, segments, if_neg (by simp [hs]), if_neg (by simp [← htouches, hs]), List.map_cons, List.map_cons,
            ih, hpiece]
      | true =>
          obtain ⟨n, gap, rest, hrest, hglued⟩ := segments_touching hs
          obtain ⟨n', gap', rest', hrest', hglued'⟩ := segments_touching (htouches ▸ hs)
          rw [hrest, hrest', List.map_cons, List.map_cons] at ih
          obtain ⟨htext, hrests⟩ := List.cons.inj ih
          dsimp only at hpiece htext
          rw [hglued, hglued', List.map_cons, List.map_cons, hpiece, htext, hrests]

end Spaced

/-! ## Blanks that matter -/

theorem Line.segmented (l : Line) : Segmented l.ending (Spaced.segments l.pieces) :=
  Spaced.segmented l.ends (l.alternates.imp fun _ _ h _ => h)

theorem Line.tokenize_source (l : Line) :
    tokenize l.source = do
      let ts ← l.texts.mapM Token.ofText
      let mark ← Mark.between { source := l.source } { source := l.source, pos := l.source.length }
      return (mark, .ok ts) := by
  have hne : Spaced.segments l.pieces ≠ [] := Spaced.segments_ne_nil l.nonempty
  have htokens := tokenize_written hne l.segmented l.ends
  rwa [Spaced.written_segments] at htokens

theorem Line.tokenize_iff (l : Line) (tokens : List Token) :
    (∃ mark, tokenize l.source = .ok (mark, .ok tokens)) ↔ l.texts.mapM Token.ofText = .ok tokens := by
  rw [l.tokenize_source]
  constructor
  · rintro ⟨mark, h⟩
    obtain ⟨ts, hts, h⟩ := bind_eq_ok h
    obtain ⟨_, -, h⟩ := bind_eq_ok h
    cases h
    exact hts
  · intro h
    have hstart := l.segmented.not_atEnd (Spaced.segments_ne_nil l.nonempty)
    rw [Spaced.written_segments] at hstart
    have hfirst : ({ source := l.source } : Cursor).NotBefore := Int.le_refl 0
    have hlast : ({ source := l.source, pos := l.source.length } : Cursor).NotBefore := Int.natCast_nonneg _
    obtain ⟨mark, hmark⟩ := Mark.between_ok hfirst hlast hstart (Int.le_refl _)
    exact ⟨mark, bind_of_ok h (bind_of_ok hmark rfl)⟩

/-- Two lines of the same pieces have the same tokens exactly if the same signs touch numerals in them. -/
theorem Line.same_tokens_iff {l l' : Line} (hpieces : l.pieces.map (·.piece) = l'.pieces.map (·.piece))
    {mark : Mark} {tokens : List Token} (h : tokenize l.source = .ok (mark, .ok tokens)) :
    (∃ mark', tokenize l'.source = .ok (mark', .ok tokens)) ↔
      Spaced.touching l'.pieces = Spaced.touching l.pieces := by
  have hl := (l.tokenize_iff tokens).1 ⟨mark, h⟩
  rw [l'.tokenize_iff]
  constructor
  · intro hl'
    have hkept := (map_kept?_of_mapM hl').symm.trans (map_kept?_of_mapM hl)
    rw [Line.texts, Line.texts, List.map_map, List.map_map] at hkept
    exact Spaced.touching_eq_of_kept hpieces.symm hkept
  · intro htouching
    rw [Line.texts, Spaced.texts_eq_of_touching hpieces.symm htouching]
    exact hl

/-- In `1 - 3`, the blank before the sign may go. -/
theorem Line.same_tokens_without_blank_before_sign :
    ∃ l l' : Line, l.source = "1 - 3\n" ∧ l'.source = "1- 3\n" ∧
      l.pieces.map (·.piece) = l'.pieces.map (·.piece) ∧
      (∃ mark, tokenize l.source = .ok (mark, .ok [.int 1, .text "-", .int 3])) ∧
      ∃ mark, tokenize l'.source = .ok (mark, .ok [.int 1, .text "-", .int 3]) := by
  let one : Unsigned := ⟨"1", (Numeral.take_length? (t := "1") (n := 1) (by decide)).1, by decide⟩
  let three : Unsigned := ⟨"3", (Numeral.take_length? (t := "3") (n := 1) (by decide)).1, by decide⟩
  let spaced (gap : Text) (blank : Blank gap) : Line := {
    pieces := [⟨.numeral one, gap, blank⟩, ⟨.operator .sub, " ", by decide⟩, ⟨.numeral three, [], by decide⟩]
    nonempty := List.cons_ne_nil _ _
    alternates := by simp [Piece.isNumeral]
    ending := "\n"
    ends := Or.inr (Or.inl rfl) }
  let l := spaced " " (by decide)
  let l' := spaced [] (by decide)
  have hsource : l.source = "1 - 3\n" := rfl
  have hsource' : l'.source = "1- 3\n" := rfl
  have htokens : ∃ mark, tokenize l.source = .ok (mark, .ok [.int 1, .text "-", .int 3]) := by
    rw [hsource]
    exact ⟨_, rfl⟩
  have hpieces : l.pieces.map (·.piece) = l'.pieces.map (·.piece) := rfl
  have htouching : Spaced.touching l'.pieces = Spaced.touching l.pieces := rfl
  obtain ⟨mark, h⟩ := htokens
  exact ⟨l, l', hsource, hsource', hpieces, ⟨mark, h⟩, (Line.same_tokens_iff hpieces h).2 htouching⟩

/-- In `1 - 3`, the blank behind the sign keeps it an operator. -/
theorem tokens_without_blank_behind_sign :
    (∃ mark, tokenize "1 - 3" = .ok (mark, .ok [.int 1, .text "-", .int 3])) ∧
      (∃ mark, tokenize "1 -3" = .ok (mark, .ok [.int 1, .text "-3"])) ∧
      [Token.int 1, .text "-", .int 3] ≠ [.int 1, .text "-3"] :=
  ⟨⟨_, rfl⟩, ⟨_, rfl⟩, by simp⟩

end ParserAlgebra.Calculator
