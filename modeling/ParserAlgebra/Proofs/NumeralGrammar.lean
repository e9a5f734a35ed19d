import Mathlib.Computability.Language
import ParserAlgebra.Proofs.Reading
import ParserAlgebra.Proofs.Run

/-!
# The grammar of numerals

Numerals are measured with no way back: a part that ends early can only be followed by nothing.
-/

namespace ParserAlgebra

open Cursor Parse
open scoped Computability

/-! ## Languages of characters -/

/-- The texts of one character that passes the test. -/
def oneThat (test : Char → Bool) : Language Char :=
  {t | ∃ c, test c = true ∧ t = [c]}

/-- The texts of the language, and the empty text. -/
def optional (L : Language Char) : Language Char :=
  1 + L

theorem mem_optional {L : Language Char} {t : Text} : t ∈ optional L ↔ t = [] ∨ t ∈ L :=
  Iff.rfl

theorem mem_oneThat_mul {test : Char → Bool} {L : Language Char} {t : Text} :
    t ∈ oneThat test * L ↔ ∃ c, test c = true ∧ ∃ u ∈ L, t = c :: u := by
  rw [Language.mem_mul]
  constructor
  · rintro ⟨_, ⟨c, hc, rfl⟩, u, hu, rfl⟩
    exact ⟨c, hc, u, hu, rfl⟩
  · rintro ⟨c, hc, u, hu, rfl⟩
    exact ⟨[c], ⟨c, hc, rfl⟩, u, hu, rfl⟩

theorem mem_many {test : Char → Bool} {t : Text} : t ∈ (oneThat test)∗ ↔ ∀ c ∈ t, test c = true := by
  rw [Language.mem_kstar]
  constructor
  · rintro ⟨parts, rfl, hparts⟩ c hc
    obtain ⟨part, hpart, hc⟩ := List.mem_flatten.1 hc
    obtain ⟨d, hd, rfl⟩ := hparts part hpart
    rw [List.mem_singleton.1 hc]
    exact hd
  · intro h
    refine ⟨t.map ([·]), ?_, fun part hpart => ?_⟩
    · rw [← List.flatMap_def, List.flatMap_singleton']
    · obtain ⟨c, hc, rfl⟩ := List.mem_map.1 hpart
      exact ⟨c, h c hc, rfl⟩

theorem mem_some {test : Char → Bool} {t : Text} :
    t ∈ oneThat test * (oneThat test)∗ ↔ t ≠ [] ∧ ∀ c ∈ t, test c = true := by
  rw [mem_oneThat_mul]
  constructor
  · rintro ⟨c, hc, u, hu, rfl⟩
    exact ⟨List.cons_ne_nil c u, List.forall_mem_cons.2 ⟨hc, mem_many.1 hu⟩⟩
  · rintro ⟨hne, h⟩
    obtain ⟨c, u, rfl⟩ := List.exists_cons_of_ne_nil hne
    obtain ⟨hc, hu⟩ := List.forall_mem_cons.1 h
    exact ⟨c, hc, u, mem_many.2 hu, rfl⟩

namespace Numeral

/-! ## The grammar -/

def sign : Language Char :=
  optional (oneThat fun c => c == '+' || c == '-')

/-- Digits of any script, also none. -/
def digits : Language Char :=
  (oneThat Unicode.isDecimal)∗

def someDigits : Language Char :=
  oneThat Unicode.isDecimal * digits

def point : Language Char :=
  oneThat (· == '.')

/-- Digits with a decimal point among them or not, and a digit on one of its sides. -/
def mantissa : Language Char :=
  someDigits * optional (point * digits) + point * someDigits

def exponent : Language Char :=
  optional (oneThat (fun c => c == 'e' || c == 'E') * sign * someDigits)

/-- `[+-]? (D+ ('.' D*)? | '.' D+) ([eE] [+-]? D+)?` -/
def grammar : Language Char :=
  sign * mantissa * exponent

variable {s ds e m t : Text} {n : Nat}

theorem contains_signs (c : Char) : Alphabet.signs.contains c = (c == '+' || c == '-') := by
  simp [Alphabet.signs, Bool.beq_eq_decide_eq]

theorem contains_exponentMarks (c : Char) : Alphabet.exponentMarks.contains c = (c == 'e' || c == 'E') := by
  simp [Alphabet.exponentMarks, Bool.beq_eq_decide_eq]

theorem mem_sign : s ∈ sign ↔ s = [] ∨ ∃ c, Alphabet.signs.contains c = true ∧ s = [c] := by
  simp only [contains_signs]
  exact Iff.rfl

theorem mem_someDigits : ds ∈ someDigits ↔ ds ≠ [] ∧ ds ∈ digits := by
  rw [digits, mem_many]
  exact mem_some

theorem mem_mantissa :
    m ∈ mantissa ↔ m ∈ someDigits ∨
      ∃ ds ∈ digits, ∃ es ∈ digits, (ds ≠ [] ∨ es ≠ []) ∧ m = ds ++ '.' :: es := by
  have hpoint : ∀ {L : Language Char} {t : Text}, t ∈ point * L ↔ ∃ es ∈ L, t = '.' :: es := by
    intro L t
    simp [point, mem_oneThat_mul]
  rw [mantissa, Language.mem_add, Language.mem_mul, hpoint]
  constructor
  · rintro (⟨ds, hds, u, hu | hu, rfl⟩ | ⟨es, hes, rfl⟩)
    · rw [show u = [] from hu, List.append_nil]
      exact Or.inl hds
    · obtain ⟨es, hes, rfl⟩ := hpoint.1 hu
      obtain ⟨hne, hds⟩ := mem_someDigits.1 hds
      exact Or.inr ⟨ds, hds, es, hes, Or.inl hne, rfl⟩
    · obtain ⟨hne, hes⟩ := mem_someDigits.1 hes
      exact Or.inr ⟨[], Language.nil_mem_kstar _, es, hes, Or.inr hne, rfl⟩
  · rintro (hm | ⟨ds, hds, es, hes, hne, rfl⟩)
    · exact Or.inl ⟨m, hm, [], Or.inl rfl, List.append_nil m⟩
    · by_cases h : ds = []
      · subst h
        exact Or.inr ⟨es, mem_someDigits.2 ⟨by simpa using hne, hes⟩, rfl⟩
      · exact Or.inl ⟨ds, mem_someDigits.2 ⟨h, hds⟩, _, Or.inr (hpoint.2 ⟨es, hes, rfl⟩), rfl⟩

theorem mem_exponent :
    e ∈ exponent ↔ e = [] ∨ ∃ c, Alphabet.exponentMarks.contains c = true ∧
      ∃ s ∈ sign, ∃ ds ∈ someDigits, e = c :: (s ++ ds) := by
  simp only [exponent, mem_optional, mul_assoc, mem_oneThat_mul, ← contains_exponentMarks]
  refine or_congr_right (exists_congr fun c => and_congr_right fun _ => ?_)
  simp only [Language.mem_mul]
  constructor
  · rintro ⟨_, ⟨s, hs, ds, hds, rfl⟩, rfl⟩
    exact ⟨s, hs, ds, hds, rfl⟩
  · rintro ⟨s, hs, ds, hds, rfl⟩
    exact ⟨_, ⟨s, hs, ds, hds, rfl⟩, rfl⟩

/-! ## Characters that begin a part -/

theorem not_of_contains {test : Char → Bool} {t : Text} (ht : t.all (!test ·) = true) {c : Char}
    (h : t.contains c = true) : test c = false := by
  have hc := List.all_eq_true.1 ht c (List.contains_iff_mem.1 h)
  simpa using hc

theorem not_isDecimal_of_sign {c : Char} (h : Alphabet.signs.contains c = true) : Unicode.isDecimal c = false :=
  not_of_contains (by decide) h

theorem not_isDecimal_of_mark {c : Char} (h : Alphabet.exponentMarks.contains c = true) :
    Unicode.isDecimal c = false :=
  not_of_contains (by decide) h

theorem not_sign_of_isDecimal {c : Char} (h : Unicode.isDecimal c = true) : Alphabet.signs.contains c = false := by
  by_contra hc
  rw [not_isDecimal_of_sign (by simpa using hc)] at h
  cases h

theorem not_point_of_mark {c : Char} (h : Alphabet.exponentMarks.contains c = true) : c ≠ '.' := by
  rintro rfl
  cases h

theorem cons_of_mem_someDigits (h : ds ∈ someDigits) : ∃ c u, ds = c :: u ∧ Unicode.isDecimal c = true := by
  obtain ⟨c, hc, u, -, rfl⟩ := mem_oneThat_mul.1 h
  exact ⟨c, u, rfl, hc⟩

/-- A mantissa begins with a digit or a point. -/
theorem cons_of_mem_mantissa (h : m ∈ mantissa) : ∃ c u, m = c :: u ∧ Alphabet.signs.contains c = false := by
  rcases mem_mantissa.1 h with h | ⟨ds, hds, es, hes, -, rfl⟩
  · obtain ⟨c, u, rfl, hc⟩ := cons_of_mem_someDigits h
    exact ⟨c, u, rfl, not_sign_of_isDecimal hc⟩
  · cases ds with
    | nil => exact ⟨'.', es, rfl, by decide⟩
    | cons c ds => exact ⟨c, ds ++ '.' :: es, rfl, not_sign_of_isDecimal (mem_many.1 hds c (by simp))⟩

theorem cons_of_mem_exponent (h : e ∈ exponent) (hne : e ≠ []) :
    ∃ c u, e = c :: u ∧ Alphabet.exponentMarks.contains c = true := by
  rcases mem_exponent.1 h with rfl | ⟨c, hc, s, -, ds, -, rfl⟩
  · exact absurd rfl hne
  · exact ⟨c, s ++ ds, rfl, hc⟩

/-! ## What is measured is not shorter -/

theorem digitsLength_append (h : ds ∈ digits) (t : Text) :
    digitsLength (ds ++ t) = ds.length + digitsLength t := by
  rw [digitsLength, List.takeWhile_append_of_pos (mem_many.1 h), List.length_append, digitsLength]

theorem digitsLength_cons {c : Char} (h : Unicode.isDecimal c = false) (t : Text) : digitsLength (c :: t) = 0 := by
  simp [digitsLength, h]

theorem signLength_cons {c : Char} (h : Alphabet.signs.contains c = false) (t : Text) : signLength (c :: t) = 0 := by
  rw [signLength, if_neg (by rw [h]; exact Bool.false_ne_true)]

theorem signLength_append (h : s ∈ sign) {c : Char} (hc : Alphabet.signs.contains c = false) (t : Text) :
    signLength (s ++ c :: t) = s.length := by
  rcases mem_sign.1 h with rfl | ⟨d, hd, rfl⟩
  · exact signLength_cons hc t
  · exact if_pos hd

theorem digitsLength_exponent (h : e ∈ exponent) (hne : e ≠ []) (t : Text) : digitsLength (e ++ t) = 0 := by
  obtain ⟨c, u, rfl, hc⟩ := cons_of_mem_exponent h hne
  exact digitsLength_cons (not_isDecimal_of_mark hc) _

theorem length_le_mantissaLength?_someDigits (hm : m ∈ someDigits) (he : e ∈ exponent) (t : Text) :
    ∃ n, mantissaLength? (m ++ (e ++ t)) = some n ∧ m.length ≤ n ∧ (e ≠ [] → n = m.length) := by
  obtain ⟨hne, hdigits⟩ := mem_someDigits.1 hm
  have hpos : 0 < m.length := List.length_pos_of_ne_nil hne
  have hwhole := digitsLength_append hdigits (e ++ t)
  cases hnext : ((m ++ (e ++ t)).drop (digitsLength (m ++ (e ++ t)))).head?.any (· == '.') with
  | false =>
      rw [mantissaLength?_whole hnext, if_neg (by omega)]
      exact ⟨_, rfl, by omega, fun h => by rw [hwhole, digitsLength_exponent he h, Nat.add_zero]⟩
  | true =>
      obtain ⟨c, u, hu, hc⟩ := cons_of_head?_any hnext
      rw [beq_iff_eq.1 hc] at hu
      rw [mantissaLength?_point hu, if_neg (by omega)]
      refine ⟨_, rfl, by omega, fun h => ?_⟩
      -- The letter of the exponent stands where the point would have to be.
      rw [hwhole, digitsLength_exponent he h, Nat.add_zero, List.drop_left] at hu
      obtain ⟨d, v, rfl, hd⟩ := cons_of_mem_exponent he h
      exact absurd (List.cons.inj hu).1 (not_point_of_mark hd)

theorem mantissaLength?_digits_point (hds : ds ∈ digits) (hes : es ∈ digits) (hne : ds ≠ [] ∨ es ≠ []) (t : Text) :
    mantissaLength? (ds ++ '.' :: (es ++ t)) = some (ds.length + 1 + es.length + digitsLength t) := by
  have hwhole : digitsLength (ds ++ '.' :: (es ++ t)) = ds.length := by
    rw [digitsLength_append hds, digitsLength_cons (by decide), Nat.add_zero]
  have hfraction := digitsLength_append hes t
  have hu : (ds ++ '.' :: (es ++ t)).drop (digitsLength (ds ++ '.' :: (es ++ t))) = '.' :: (es ++ t) := by
    rw [hwhole, List.drop_left]
  have hdigit : ¬(ds.length = 0 ∧ es.length + digitsLength t = 0) := by
    rintro ⟨hds0, hes0⟩
    rcases hne with h | h
    · exact h (List.length_eq_zero_iff.1 hds0)
    · exact h (List.length_eq_zero_iff.1 (by omega))
  rw [mantissaLength?_point hu, hwhole, hfraction, if_neg hdigit, Nat.add_assoc _ es.length]

/-- Behind a mantissa that ends early there is no exponent. -/
theorem length_le_mantissaLength? (hm : m ∈ mantissa) (he : e ∈ exponent) (t : Text) :
    ∃ n, mantissaLength? (m ++ (e ++ t)) = some n ∧ m.length ≤ n ∧ (e ≠ [] → n = m.length) := by
  rcases mem_mantissa.1 hm with hm | ⟨ds, hds, es, hes, hne, rfl⟩
  · exact length_le_mantissaLength?_someDigits hm he t
  · have hlen : (ds ++ '.' :: es).length = ds.length + 1 + es.length := by
      simp
      omega
    rw [List.append_assoc, List.cons_append, mantissaLength?_digits_point hds hes hne, hlen]
    exact ⟨_, rfl, by omega, fun h => by rw [digitsLength_exponent he h, Nat.add_zero]⟩

theorem length_le_exponentLength (he : e ∈ exponent) (t : Text) : e.length ≤ exponentLength (e ++ t) := by
  rcases mem_exponent.1 he with rfl | ⟨c, hc, s, hs, ds, hds, rfl⟩
  · exact Nat.zero_le _
  · obtain ⟨d, u, rfl, hd⟩ := cons_of_mem_someDigits hds
    have hsign : signLength (s ++ (d :: u) ++ t) = s.length := by
      rw [List.append_assoc, List.cons_append]
      exact signLength_append hs (not_sign_of_isDecimal hd) _
    have hdigits := digitsLength_append (mem_someDigits.1 hds).2 t
    have hdrop : (s ++ (d :: u) ++ t).drop s.length = d :: u ++ t := by
      rw [List.append_assoc, List.drop_left]
    rw [List.cons_append, exponentLength]
    rw [hsign, hdrop, hdigits, if_pos ⟨hc, by simp⟩]
    simp
    omega

/-- Whatever numeral a text begins with, the measured one is at least as long. -/
theorem length_le_length? (h : m ∈ grammar) (t : Text) : ∃ n, length? (m ++ t) = some n ∧ m.length ≤ n := by
  obtain ⟨_, ⟨s, hs, m, hm, rfl⟩, e, he, rfl⟩ := Language.mem_mul.1 h
  obtain ⟨n, hn, hle, hend⟩ := length_le_mantissaLength? hm he t
  have hsign : signLength (s ++ m ++ e ++ t) = s.length := by
    obtain ⟨c, u, rfl, hc⟩ := cons_of_mem_mantissa hm
    simp only [List.append_assoc, List.cons_append]
    exact signLength_append hs hc _
  have hdrop : (s ++ m ++ e ++ t).drop s.length = m ++ (e ++ t) := by
    simp only [List.append_assoc, List.drop_left]
  refine ⟨s.length + n + exponentLength ((s ++ m ++ e ++ t).drop (s.length + n)), ?_, ?_⟩
  · rw [length?]
    dsimp only
    rw [hsign, hdrop, hn]
    rfl
  · simp only [List.length_append]
    by_cases hnil : e = []
    · subst hnil
      simp
      omega
    · have hrest : (s ++ m ++ e ++ t).drop (s.length + n) = e ++ t := by
        rw [← List.drop_drop, hdrop, hend hnil, List.drop_left]
      have hexponent := length_le_exponentLength he t
      rw [hrest]
      omega

/-! ## What is measured is a numeral -/

theorem take_signLength (t : Text) : t.take (signLength t) ∈ sign := by
  cases t with
  | nil => exact Or.inl rfl
  | cons c t =>
      rw [signLength]
      split
      · rename_i h
        exact mem_sign.2 (Or.inr ⟨c, h, rfl⟩)
      · exact Or.inl rfl

theorem take_digitsLength (t : Text) : t.take (digitsLength t) ∈ digits := by
  rw [digitsLength, ← List.prefix_iff_eq_take.1 (List.takeWhile_prefix _)]
  exact mem_many.2 (List.all_eq_true.1 (List.all_takeWhile))

theorem take_someDigits (h : digitsLength t ≠ 0) : t.take (digitsLength t) ∈ someDigits := by
  have hle := digitsLength_le t
  refine mem_someDigits.2 ⟨List.ne_nil_of_length_pos ?_, take_digitsLength t⟩
  rw [List.length_take]
  omega

theorem take_mantissaLength? (h : mantissaLength? t = some n) : t.take n ∈ mantissa ∧ n ≤ t.length := by
  have hle := digitsLength_le t
  cases hnext : (t.drop (digitsLength t)).head?.any (· == '.') with
  | false =>
      rw [mantissaLength?_whole hnext] at h
      split at h
      · cases h
      · rename_i h0
        cases h
        exact ⟨mem_mantissa.2 (Or.inl (take_someDigits h0)), hle⟩
  | true =>
      obtain ⟨c, u, hu, hc⟩ := cons_of_head?_any hnext
      rw [beq_iff_eq.1 hc] at hu
      rw [mantissaLength?_point hu] at h
      have hlen : (t.drop (digitsLength t)).length = t.length - digitsLength t := List.length_drop
      have hu' := digitsLength_le u
      rw [hu, List.length_cons] at hlen
      split at h
      · cases h
      · rename_i h0
        cases h
        have htake : t.take (digitsLength t + 1 + digitsLength u) =
            t.take (digitsLength t) ++ '.' :: u.take (digitsLength u) := by
          rw [Nat.add_assoc, List.take_add, hu, Nat.add_comm 1, List.take_succ_cons]
        have hdigit : t.take (digitsLength t) ≠ [] ∨ u.take (digitsLength u) ≠ [] := by
          by_cases hwhole : digitsLength t = 0
          · exact Or.inr (mem_someDigits.1 (take_someDigits fun hfraction => h0 ⟨hwhole, hfraction⟩)).1
          · exact Or.inl (mem_someDigits.1 (take_someDigits hwhole)).1
        rw [htake]
        exact ⟨mem_mantissa.2 (Or.inr ⟨_, take_digitsLength t, _, take_digitsLength u, hdigit, rfl⟩), by omega⟩

theorem take_exponentLength (t : Text) : t.take (exponentLength t) ∈ exponent ∧ exponentLength t ≤ t.length := by
  cases t with
  | nil => exact ⟨Or.inl rfl, Nat.le_refl 0⟩
  | cons c t =>
      rw [exponentLength]
      split
      · rename_i h
        have hsign := signLength_le t
        have hdigits := digitsLength_le (t.drop (signLength t))
        rw [List.length_drop] at hdigits
        have htake : (c :: t).take (1 + signLength t + digitsLength (t.drop (signLength t))) =
            c :: (t.take (signLength t) ++ (t.drop (signLength t)).take (digitsLength (t.drop (signLength t)))) := by
          rw [Nat.add_assoc, Nat.add_comm 1, List.take_succ_cons, List.take_add]
        rw [htake, List.length_cons]
        exact ⟨mem_exponent.2 (Or.inr ⟨c, h.1, _, take_signLength t, _, take_someDigits h.2, rfl⟩), by omega⟩
      · exact ⟨Or.inl rfl, Nat.zero_le _⟩

theorem take_length? (h : length? t = some n) : t.take n ∈ grammar ∧ n ≤ t.length := by
  obtain ⟨k, hk, rfl⟩ := Option.map_eq_some_iff.1 h
  obtain ⟨hmantissa, hle⟩ := take_mantissaLength? hk
  obtain ⟨hexponent, hle'⟩ := take_exponentLength (t.drop (signLength t + k))
  have hsign := signLength_le t
  rw [List.length_drop] at hle hle'
  have htake : t.take (signLength t + k + exponentLength (t.drop (signLength t + k))) =
      t.take (signLength t) ++ (t.drop (signLength t)).take k ++
        (t.drop (signLength t + k)).take (exponentLength (t.drop (signLength t + k))) := by
    rw [List.take_add, List.take_add]
  rw [htake]
  exact ⟨Language.append_mem_mul (Language.append_mem_mul (take_signLength t) hmantissa) hexponent, by omega⟩

/-! ## The longest numeral -/

/-- The text begins with this numeral, and with none that is longer. -/
structure Longest (t m : Text) : Prop where
  starts : m <+: t
  numeral : m ∈ grammar
  longest : ∀ u, u <+: t → u ∈ grammar → u.length ≤ m.length

theorem longest_of_length? (h : length? t = some n) : Longest t (t.take n) where
  starts := List.take_prefix n t
  numeral := (take_length? h).1
  longest := by
    rintro u ⟨v, rfl⟩ hu
    obtain ⟨k, hk, hle⟩ := length_le_length? hu v
    cases hk.symm.trans h
    rwa [List.length_take, Nat.min_eq_left (take_length? h).2]

theorem no_numeral_of_length? (h : length? t = none) : ∀ u, u <+: t → u ∉ grammar := by
  rintro u ⟨v, rfl⟩ hu
  obtain ⟨k, hk, -⟩ := length_le_length? hu v
  cases hk.symm.trans h

end Numeral

/-! ## The parser of numerals -/

namespace Parser

variable {σ : Type}

theorem run_number {c : Cursor} (hc : c.InSource) (s : σ) :
    (number.run c).run s = .ok (match Numeral.length? c.rest with
      | some n => taken c n
      | none => .fail c Wording.expectedNumber Wording.digits) s := by
  rw [number]
  dsimp only
  rw [ahead_of_nonneg hc.1]
  change (match Numeral.length? c.rest with
    | some n => (return taken c n : Parse σ Outcome)
    | none => return .fail c Wording.expectedNumber Wording.digits).run s = _
  cases Numeral.length? c.rest <;> rfl

theorem taken_eq {c : Cursor} (hc : c.InSource) {n : Nat} (hn : n ≤ c.rest.length) :
    taken c n = .success (.text (c.rest.take n)) { c with pos := c.pos + (c.rest.take n).length } := by
  have hmoved : c.advance n = { c with pos := c.pos + (c.rest.take n).length } := by
    rw [List.length_take, Nat.min_eq_left hn, ← pos_advance hc hn]
    rfl
  rw [taken, sliceAhead_eq_take hc.1, hmoved]

/-- The parser of numerals matches exactly where a numeral comes next. It takes the longest one, and where there
is none, it fails and stays. -/
theorem number_takes_longest {c : Cursor} (hc : c.InSource) (s : σ) :
    ((∃ v d s', (number.run c).run s = .ok (.success v d) s') ↔ ∃ u, u <+: c.rest ∧ u ∈ Numeral.grammar) ∧
    (∀ v d s', (number.run c).run s = .ok (.success v d) s' →
      ∃ m, Numeral.Longest c.rest m ∧ v = .text m ∧ d = { c with pos := c.pos + m.length } ∧ s' = s) ∧
    ((∀ u, u <+: c.rest → u ∉ Numeral.grammar) →
      ∃ m, (number.run c).run s = .ok (.failure m) s ∧ m.cursor = c) := by
  rw [run_number hc]
  cases h : Numeral.length? c.rest with
  | some n =>
      have hlongest := Numeral.longest_of_length? h
      dsimp only
      rw [taken_eq hc (Numeral.take_length? h).2]
      refine ⟨⟨fun _ => ⟨_, hlongest.starts, hlongest.numeral⟩, fun _ => ⟨_, _, _, rfl⟩⟩, ?_, ?_⟩
      · intro v d s' hrun
        cases hrun
        exact ⟨_, hlongest, rfl, rfl, rfl⟩
      · intro hnone
        exact absurd hlongest.numeral (hnone _ hlongest.starts)
  | none =>
      have hnone := Numeral.no_numeral_of_length? h
      refine ⟨⟨?_, ?_⟩, ?_, fun _ => ⟨_, rfl, rfl⟩⟩
      · rintro ⟨v, d, s', hrun⟩
        cases hrun
      · rintro ⟨u, hu, hmem⟩
        exact absurd hmem (hnone u hu)
      · intro v d s' hrun
        cases hrun

/-- Of `x-.5e+٣e`, the numeral behind the `x` ends at the second `e`, which no digit follows. -/
theorem number_takes_longest_with_exponent :
    let c : Cursor := { source := "x-.5e+٣e", pos := 1 }
    c.InSource ∧ Numeral.Longest c.rest "-.5e+٣" ∧
      ∀ s : Unit, (number.run c).run s = .ok (.success (.text "-.5e+٣") { c with pos := 7 }) s := by
  intro c
  have hc : c.InSource := ⟨by decide, by decide⟩
  have hlength : Numeral.length? c.rest = some 6 := by decide +kernel
  have hrun : ∀ s : Unit, (number.run c).run s = .ok (.success (.text "-.5e+٣") { c with pos := 7 }) s := by
    intro s
    rw [run_number hc, hlength]
    rfl
  obtain ⟨m, hm, hv, -, -⟩ := (number_takes_longest hc ()).2.1 _ _ _ (hrun ())
  cases hv
  exact ⟨hc, hm, hrun⟩

end Parser

end ParserAlgebra
