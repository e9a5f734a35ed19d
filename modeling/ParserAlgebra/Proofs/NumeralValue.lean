import Mathlib.Data.Nat.Digits.Defs
import ParserAlgebra.Number.Basic
import ParserAlgebra.Proofs.NumeralGrammar

/-!
# The value of a numeral
-/

namespace ParserAlgebra

open Numeral

variable {t u s ds e m r : Text} {c : Char} {limit : Option Nat}

/-! ## Characters of a numeral -/

theorem Unicode.not_isBlank_of_isDecimal (h : isDecimal c = true) : isBlank c = false := by
  have htable : ∀ first ∈ zeroDigits, ∀ i < 10, blanks.holds (first + i) = false := by decide
  obtain ⟨d, hd⟩ := Option.isSome_iff_exists.1 h
  obtain ⟨first, hfirst, -⟩ := Option.map_eq_some_iff.1 hd
  have hrange := List.find?_some hfirst
  simp only [Bool.and_eq_true, decide_eq_true_eq] at hrange
  have hblank := htable first (List.mem_of_find?_eq_some hfirst) (c.toNat - first) (by omega)
  rwa [Nat.add_sub_cancel' hrange.1] at hblank

theorem Unicode.decimalValue?_of_isDigit (h : c.isDigit = true) : decimalValue? c = some (c.toNat - '0'.toNat) := by
  have hrange : '0'.toNat ≤ c.toNat ∧ c.toNat ≤ '9'.toNat := by
    simpa [Char.isDigit, Char.le_def, UInt32.le_iff_toNat_le] using h
  have hfirst : zeroDigits.find? (fun first => first ≤ c.toNat && c.toNat < first + 10) = some '0'.toNat := by
    rw [zeroDigits, List.find?_cons_of_pos]
    · rfl
    · simpa using ⟨hrange.1, Nat.lt_succ_of_le hrange.2⟩
  rw [decimalValue?, hfirst]
  rfl

theorem Unicode.decimalValue?_eq_none (h : isDecimal c = false) : decimalValue? c = none := by
  simpa [isDecimal] using h

namespace Numeral

/-- The values of the digits of a text, one after another. -/
def digitValues (t : Text) : List Nat :=
  t.filterMap Unicode.decimalValue?

/-- The sign of a text times the number that its digits write to the base 10. -/
def intValue (t : Text) : Int :=
  (if t.head? = some '-' then -1 else 1) * (Nat.ofDigits 10 (digitValues t).reverse : Nat)

theorem exists_parts (h : t ∈ grammar) : ∃ s ∈ sign, ∃ m ∈ mantissa, ∃ e ∈ exponent, t = s ++ m ++ e := by
  obtain ⟨_, ⟨s, hs, m, hm, rfl⟩, e, he, rfl⟩ := Language.mem_mul.1 h
  exact ⟨s, hs, m, hm, e, he, rfl⟩

theorem digitValues_sign (h : s ∈ sign) : digitValues s = [] := by
  rcases mem_sign.1 h with rfl | ⟨c, hc, rfl⟩
  · rfl
  · simp [digitValues, Unicode.decimalValue?_eq_none (not_isDecimal_of_sign hc)]

theorem digitValues_ne_nil (h : ds ∈ someDigits) : digitValues ds ≠ [] := by
  obtain ⟨c, u, rfl, hc⟩ := cons_of_mem_someDigits h
  obtain ⟨d, hd⟩ := Option.isSome_iff_exists.1 hc
  simp [digitValues, hd]

theorem sign_cases (h : Alphabet.signs.contains c = true) : c = '+' ∨ c = '-' := by
  simpa [Alphabet.signs] using h

theorem not_isBlank_of_sign (h : s ∈ sign) : ∀ c ∈ s, Unicode.isBlank c = false := by
  rcases mem_sign.1 h with rfl | ⟨d, hd, rfl⟩
  · simp
  · simpa using not_of_contains (by decide) hd

theorem not_isBlank_of_digits (h : ds ∈ digits) : ∀ c ∈ ds, Unicode.isBlank c = false :=
  fun c hc => Unicode.not_isBlank_of_isDecimal (mem_many.1 h c hc)

theorem not_isBlank_of_mantissa (h : m ∈ mantissa) : ∀ c ∈ m, Unicode.isBlank c = false := by
  rcases mem_mantissa.1 h with hm | ⟨ds, hds, es, hes, -, rfl⟩
  · exact not_isBlank_of_digits (mem_someDigits.1 hm).2
  · have hpoint : Unicode.isBlank '.' = false := by decide
    simp only [List.forall_mem_append, List.forall_mem_cons]
    exact ⟨not_isBlank_of_digits hds, hpoint, not_isBlank_of_digits hes⟩

theorem not_isBlank_of_exponent (h : e ∈ exponent) : ∀ c ∈ e, Unicode.isBlank c = false := by
  rcases mem_exponent.1 h with rfl | ⟨d, hd, s, hs, ds, hds, rfl⟩
  · simp
  · simp only [List.forall_mem_cons, List.forall_mem_append]
    exact ⟨not_of_contains (by decide) hd, not_isBlank_of_sign hs,
      not_isBlank_of_digits (mem_someDigits.1 hds).2⟩

theorem not_isBlank_of_mem (h : t ∈ grammar) : ∀ c ∈ t, Unicode.isBlank c = false := by
  obtain ⟨s, hs, m, hm, e, he, rfl⟩ := exists_parts h
  simp only [List.forall_mem_append]
  exact ⟨⟨not_isBlank_of_sign hs, not_isBlank_of_mantissa hm⟩, not_isBlank_of_exponent he⟩

end Numeral

namespace Decimal

/-! ## Reading digits -/

theorem ofDigits_eq (ds : List Nat) : ofDigits ds = Nat.ofDigits 10 ds.reverse := by
  simp only [ofDigits, Nat.ofDigits_eq_foldr, List.foldr_reverse, Nat.cast_id]
  congr 1
  funext n d
  omega

/-- No digit and no underscore comes next. -/
def EndsDigits (t : Text) : Prop :=
  ∀ c ∈ t.head?, c ≠ '_' ∧ Unicode.isDecimal c = false

theorem endsDigits_exponent (h : e ∈ Numeral.exponent) : EndsDigits e := by
  rcases mem_exponent.1 h with rfl | ⟨c, hc, s, -, ds, -, rfl⟩
  · simp [EndsDigits]
  · have hline : c ≠ '_' := by
      rintro rfl
      cases hc
    simpa [EndsDigits] using ⟨hline, not_isDecimal_of_mark hc⟩

theorem endsDigits_point (t : Text) : EndsDigits ('.' :: t) := by
  simp [EndsDigits]
  decide

theorem moreDigits_digit {d : Nat} (h : Unicode.decimalValue? c = some d) (t : Text) :
    moreDigits (c :: t) = (d :: (moreDigits t).1, (moreDigits t).2) := by
  have hc : c ≠ '_' := by
    rintro rfl
    cases h
  rw [moreDigits.eq_def]
  split
  · rename_i heq
    cases heq
  · rename_i heq
    exact absurd (List.cons.inj heq).1 hc
  · rename_i heq
    cases heq
    rw [h]

theorem moreDigits_end (h : EndsDigits t) : moreDigits t = ([], t) := by
  rw [moreDigits.eq_def]
  split
  · rfl
  · exact absurd rfl (h '_' rfl).1
  · rw [Unicode.decimalValue?_eq_none (h _ rfl).2]

theorem moreDigits_append (hds : ds ∈ Numeral.digits) (ht : EndsDigits t) :
    moreDigits (ds ++ t) = (digitValues ds, t) := by
  rw [Numeral.digits, mem_many] at hds
  induction ds with
  | nil => exact moreDigits_end ht
  | cons c ds ih =>
      obtain ⟨hc, hds⟩ := List.forall_mem_cons.1 hds
      obtain ⟨d, hd⟩ := Option.isSome_iff_exists.1 hc
      rw [List.cons_append, moreDigits_digit hd, ih hds]
      simp [digitValues, hd]

theorem splitDigits_append (hds : ds ∈ Numeral.digits) (ht : EndsDigits t) :
    splitDigits (ds ++ t) = (digitValues ds, t) := by
  cases ds with
  | nil =>
      cases t with
      | nil => rfl
      | cons c t =>
          rw [List.nil_append, splitDigits, Unicode.decimalValue?_eq_none (ht c rfl).2]
          rfl
  | cons c ds =>
      rw [Numeral.digits, mem_many] at hds
      obtain ⟨hc, hds⟩ := List.forall_mem_cons.1 hds
      obtain ⟨d, hd⟩ := Option.isSome_iff_exists.1 hc
      rw [List.cons_append, splitDigits, hd]
      simp [moreDigits_append (mem_many.2 hds) ht, digitValues, hd]

/-! ## Reading the parts -/

theorem splitSign_append (hs : s ∈ sign) (ht : ∀ c ∈ t.head?, Alphabet.signs.contains c = false) :
    splitSign (s ++ t) = (s == ['-'], t) := by
  rcases mem_sign.1 hs with rfl | ⟨c, hc, rfl⟩
  · rw [List.nil_append, splitSign.eq_def]
    split
    -- Behind an empty sign no sign comes next.
    · exact absurd (ht '-' rfl) (by decide)
    · exact absurd (ht '+' rfl) (by decide)
    · rfl
  · rcases sign_cases hc with rfl | rfl <;> rfl

theorem trim_eq_self (h : ∀ c ∈ t, Unicode.isBlank c = false) : trim t = t := by
  have hdrop : ∀ u : Text, (∀ c ∈ u, Unicode.isBlank c = false) → u.dropWhile Unicode.isBlank = u := by
    intro u hu
    cases u with
    | nil => rfl
    | cons c u => rw [List.dropWhile_cons_of_neg (by simp [hu c])]
  rw [trim, hdrop t h, hdrop _ (by simpa using h), List.reverse_reverse]

theorem head_someDigits (hds : ds ∈ someDigits) (t : Text) :
    ∀ c ∈ (ds ++ t).head?, Alphabet.signs.contains c = false := by
  obtain ⟨c, u, rfl, hc⟩ := cons_of_mem_someDigits hds
  simpa using not_sign_of_isDecimal hc

theorem signedDigits?_append (hs : s ∈ sign) (hds : ds ∈ someDigits) :
    signedDigits? (s ++ ds) = some (s == ['-'], digitValues ds) := by
  have hhead := head_someDigits hds []
  have hsplit := splitDigits_append (t := []) (mem_someDigits.1 hds).2 (by simp [EndsDigits])
  rw [List.append_nil] at hhead hsplit
  obtain ⟨d, rest, hvalues⟩ := List.exists_cons_of_ne_nil (digitValues_ne_nil hds)
  rw [signedDigits?, splitSign_append hs hhead]
  simp only [hsplit, hvalues]

theorem exists_readExponent? (he : e ∈ Numeral.exponent) : ∃ n, readExponent? e = some n := by
  rcases mem_exponent.1 he with rfl | ⟨c, hc, s, hs, ds, hds, rfl⟩
  · exact ⟨0, rfl⟩
  · have hmark : c = 'e' ∨ c = 'E' := by simpa [Alphabet.exponentMarks] using hc
    rw [readExponent?, if_pos hmark, signedDigits?_append hs hds]
    exact ⟨_, rfl⟩

/-- The digits on both sides of the point are read, and not all of them are missing. -/
theorem exists_splitFraction (hm : m ∈ mantissa) (he : e ∈ Numeral.exponent) :
    ∃ whole fraction u, splitDigits (m ++ e) = (whole, u) ∧ splitFraction u = (fraction, e) ∧
      (whole.isEmpty && fraction.isEmpty) = false := by
  have hend := endsDigits_exponent he
  rcases mem_mantissa.1 hm with hm | ⟨ds, hds, es, hes, hne, rfl⟩
  · -- The mark of the exponent is no point, so no digits are read behind one.
    have hfraction : splitFraction e = ([], e) := by
      rcases mem_exponent.1 he with rfl | ⟨c, hc, s, -, ds, -, rfl⟩
      · rfl
      · rw [splitFraction.eq_def]
        split
        · rename_i heq
          exact absurd (List.cons.inj heq).1 (not_point_of_mark hc)
        · rfl
    refine ⟨_, _, _, splitDigits_append (mem_someDigits.1 hm).2 hend, hfraction, ?_⟩
    simpa using digitValues_ne_nil hm
  · refine ⟨digitValues ds, digitValues es, '.' :: (es ++ e), ?_, splitDigits_append hes hend, ?_⟩
    · rw [List.append_assoc, List.cons_append]
      exact splitDigits_append hds (endsDigits_point _)
    · rw [Bool.and_eq_false_iff, List.isEmpty_eq_false_iff, List.isEmpty_eq_false_iff]
      exact hne.imp (fun h => digitValues_ne_nil (mem_someDigits.2 ⟨h, hds⟩))
        fun h => digitValues_ne_nil (mem_someDigits.2 ⟨h, hes⟩)

/-! ## Reading a numeral -/

theorem exists_read? (h : t ∈ grammar) : ∃ d, read? t = some d := by
  obtain ⟨s, hs, m, hm, e, he, rfl⟩ := exists_parts h
  have hhead : ∀ c ∈ (m ++ e).head?, Alphabet.signs.contains c = false := by
    obtain ⟨c, u, rfl, hc⟩ := cons_of_mem_mantissa hm
    simpa using hc
  have hsign := splitSign_append hs hhead
  obtain ⟨whole, fraction, u, hwhole, hfraction, hdigit⟩ := exists_splitFraction hm he
  obtain ⟨n, hn⟩ := exists_readExponent? he
  rw [← List.append_assoc] at hsign
  rw [read?, trim_eq_self (not_isBlank_of_mem h), hsign]
  simp only [hwhole, hfraction, hdigit, hn]
  exact ⟨_, rfl⟩

end Decimal

namespace Numeral

theorem digitValues_append (hs : s ∈ sign) (t : Text) : digitValues (s ++ t) = digitValues t := by
  have hnil := digitValues_sign hs
  rw [digitValues] at hnil ⊢
  rw [List.filterMap_append, hnil, List.nil_append, digitValues]

theorem intValue_append (hs : s ∈ sign) (hds : ds ∈ someDigits) :
    intValue (s ++ ds) = Decimal.signed (s == ['-']) (Decimal.ofDigits (digitValues ds)) := by
  rw [intValue, digitValues_append hs, ← Decimal.ofDigits_eq]
  rcases mem_sign.1 hs with rfl | ⟨c, hc, rfl⟩
  · obtain ⟨c, u, rfl, hc⟩ := cons_of_mem_someDigits hds
    have hminus : c ≠ '-' := by
      rintro rfl
      cases hc
    simp [Decimal.signed, hminus]
  · by_cases hminus : c = '-' <;> simp [Decimal.signed, hminus]

theorem mem_grammar_of_whole (hs : s ∈ sign) (hds : ds ∈ someDigits) : s ++ ds ∈ grammar := by
  rw [← List.append_nil (s ++ ds)]
  exact Language.append_mem_mul (Language.append_mem_mul hs (mem_mantissa.2 (Or.inl hds))) (Or.inl rfl)

/-- Without a point and an exponent a numeral is a sign and digits. -/
theorem exists_sign_digits (h : t ∈ grammar) (hwhole : Number.isFractional t = false) :
    ∃ s ∈ sign, ∃ ds ∈ someDigits, t = s ++ ds := by
  obtain ⟨s, hs, m, hm, e, he, rfl⟩ := exists_parts h
  simp only [Number.isFractional, List.any_append, Bool.or_eq_false_iff] at hwhole
  rcases mem_exponent.1 he with rfl | ⟨c, hc, _, -, _, -, rfl⟩
  · rcases mem_mantissa.1 hm with hm | ⟨ds, -, es, -, -, rfl⟩
    · exact ⟨s, hs, m, hm, List.append_nil _⟩
    · simp at hwhole
  · rw [List.any_cons, hc, Bool.or_true] at hwhole
    cases hwhole.2

end Numeral

namespace Number

theorem isFractional_iff : isFractional t = true ↔ ∃ c ∈ t, c = '.' ∨ c = 'e' ∨ c = 'E' := by
  simp [isFractional, Alphabet.exponentMarks]

theorem isFractional_eq_false : isFractional t = false ↔ ∀ c ∈ t, c ≠ '.' ∧ c ≠ 'e' ∧ c ≠ 'E' := by
  simp [← Bool.not_eq_true, isFractional_iff]

theorem isFractional_append (hs : s ∈ sign) (hds : ds ∈ someDigits) : isFractional (s ++ ds) = false := by
  have hdigit : ∀ c ∈ ds, (c == '.' || Alphabet.exponentMarks.contains c) = false := by
    intro c hc
    have hdecimal := mem_many.1 (mem_someDigits.1 hds).2 c hc
    rw [Bool.or_eq_false_iff]
    refine ⟨?_, ?_⟩
    · rw [beq_eq_false_iff_ne]
      rintro rfl
      exact absurd hdecimal (by decide)
    · by_contra hmark
      rw [not_isDecimal_of_mark (by simpa using hmark)] at hdecimal
      cases hdecimal
  have hsign : isFractional s = false := by
    rcases mem_sign.1 hs with rfl | ⟨c, hc, rfl⟩
    · rfl
    · rcases sign_cases hc with rfl | rfl <;> rfl
  have hdigits : isFractional ds = false := by simpa [isFractional] using hdigit
  rw [isFractional] at hsign hdigits ⊢
  rw [List.any_append, hsign, hdigits, Bool.or_false]

theorem readWithin_whole (hs : s ∈ sign) (hds : ds ∈ someDigits) (limit : Option Nat) :
    readWithin limit (s ++ ds) =
      if limit.all ((digitValues (s ++ ds)).length ≤ ·) then .ok (.int (intValue (s ++ ds))) else .error .noNumeral := by
  have hblank : ∀ c ∈ s ++ ds, Unicode.isBlank c = false := by
    rw [List.forall_mem_append]
    exact ⟨not_isBlank_of_sign hs, not_isBlank_of_digits (mem_someDigits.1 hds).2⟩
  have hread : Decimal.readInt? limit (s ++ ds) =
      if limit.all ((digitValues (s ++ ds)).length ≤ ·) then some (intValue (s ++ ds)) else none := by
    rw [Decimal.readInt?, Decimal.trim_eq_self hblank, Decimal.signedDigits?_append hs hds, intValue_append hs hds,
      digitValues_append hs]
  rw [readWithin, isFractional_append hs hds, if_neg Bool.false_ne_true, hread]
  cases limit.all ((digitValues (s ++ ds)).length ≤ ·) <;> rfl

theorem readWithin_int (hs : s ∈ sign) (hds : ds ∈ someDigits)
    (hlimit : ∀ k ∈ limit, (digitValues (s ++ ds)).length ≤ k) :
    readWithin limit (s ++ ds) = .ok (.int (intValue (s ++ ds))) := by
  rw [readWithin_whole hs hds]
  exact if_pos (by simpa [Option.all_eq_true] using hlimit)

theorem readWithin_eq_error (h : t ∈ grammar) (hwhole : isFractional t = false) {k : Nat}
    (hlong : k < (digitValues t).length) : readWithin (some k) t = .error .noNumeral := by
  obtain ⟨s, hs, ds, hds, rfl⟩ := exists_sign_digits h hwhole
  rw [readWithin_whole hs hds]
  exact if_neg (by simpa using hlong)

theorem readWithin_float (h : t ∈ grammar) (hfractional : isFractional t = true) :
    ∃ x, ∀ limit, readWithin limit t = .ok (.float x) := by
  obtain ⟨d, hd⟩ := Decimal.exists_read? h
  refine ⟨d.toFloat, fun limit => ?_⟩
  rw [readWithin, if_pos hfractional, hd]

/-- The number that a numeral writes. No limit that admits its digits keeps it from being read, it is an integer
where a point and an exponent are missing, and then the digits and the sign say which one. -/
structure IsValueOf (x : Number) (t : Text) : Prop where
  reads : ∀ limit : Option Nat, (∀ k ∈ limit, (digitValues t).length ≤ k) → readWithin limit t = .ok x
  whole : (∃ n, x = .int n) ↔ ∀ c ∈ t, c ≠ '.' ∧ c ≠ 'e' ∧ c ≠ 'E'
  value : ∀ n, x = .int n → n = intValue t

theorem isValueOf_int (hs : s ∈ sign) (hds : ds ∈ someDigits) : IsValueOf (.int (intValue (s ++ ds))) (s ++ ds) where
  reads _ hlimit := readWithin_int hs hds hlimit
  whole := by simpa using isFractional_eq_false.1 (isFractional_append hs hds)
  value := by simp

theorem isValueOf_float {x : Float} (hfractional : isFractional t = true)
    (hx : ∀ limit, readWithin limit t = .ok (.float x)) : IsValueOf (.float x) t where
  reads limit _ := hx limit
  whole := by
    rw [← isFractional_eq_false, hfractional]
    simp
  value := by simp

theorem exists_isValueOf (h : t ∈ grammar) : ∃ x, IsValueOf x t := by
  cases hwhole : isFractional t with
  | false =>
      obtain ⟨s, hs, ds, hds, rfl⟩ := exists_sign_digits h hwhole
      exact ⟨_, isValueOf_int hs hds⟩
  | true =>
      obtain ⟨x, hx⟩ := readWithin_float h hwhole
      exact ⟨_, isValueOf_float hwhole hx⟩

end Number

/-! ## The text of an integer -/

namespace Text

theorem ofNat_mem (n : Nat) : ofNat n ∈ someDigits := by
  refine mem_someDigits.2 ⟨Nat.toDigits_ne_nil, mem_many.2 fun c hc => ?_⟩
  rw [Unicode.isDecimal, Unicode.decimalValue?_of_isDigit (Nat.isDigit_of_mem_toDigits (by decide) (by decide) hc)]
  rfl

theorem ofDigits_ofNat (n : Nat) : Decimal.ofDigits (digitValues (ofNat n)) = n := by
  have hvalues : digitValues (ofNat n) = (ofNat n).map fun c => c.toNat - '0'.toNat := by
    rw [digitValues, ← List.filterMap_eq_map]
    refine List.filterMap_congr fun c hc => ?_
    exact Unicode.decimalValue?_of_isDigit (Nat.isDigit_of_mem_toDigits (by decide) (by decide) hc)
  rw [hvalues, Decimal.ofDigits, List.foldl_map]
  exact Nat.ofDigitChars_ten_toDigits

def signOf (n : Int) : Text :=
  if n < 0 then ['-'] else []

theorem ofInt_eq (n : Int) : ofInt n = signOf n ++ ofNat n.natAbs := by
  cases n with
  | ofNat n => rfl
  | negSucc n => simp [ofInt, signOf, Int.negSucc_lt_zero]

theorem signOf_mem (n : Int) : signOf n ∈ sign := by
  rw [signOf]
  split
  · exact Or.inr ⟨'-', by decide, rfl⟩
  · exact Or.inl rfl

theorem intValue_ofInt (n : Int) : intValue (ofInt n) = n := by
  rw [ofInt_eq, intValue_append (signOf_mem n) (ofNat_mem _), ofDigits_ofNat]
  cases n with
  | ofNat n => rfl
  | negSucc n =>
      rw [signOf, if_pos (Int.negSucc_lt_zero n)]
      rfl

theorem isValueOf_ofInt (n : Int) : Number.IsValueOf (.int n) (ofInt n) := by
  have hvalue := intValue_ofInt n
  rw [ofInt_eq] at hvalue ⊢
  have hread := Number.isValueOf_int (signOf_mem n) (ofNat_mem n.natAbs)
  rwa [hvalue] at hread

end Text

namespace Numeral

/-- The text cannot go on a numeral that ends with a digit. -/
def EndsNumeral (t : Text) : Prop :=
  ∀ c ∈ t.head?, Unicode.isDecimal c = false ∧ c ≠ '.' ∧ c ≠ 'e' ∧ c ≠ 'E'

theorem EndsNumeral.digitsLength (hr : EndsNumeral r) : digitsLength r = 0 := by
  cases r with
  | nil => rfl
  | cons c r => exact digitsLength_cons (hr c rfl).1 r

theorem mantissaLength?_append (hm : m ∈ mantissa) (hr : EndsNumeral r) : mantissaLength? (m ++ r) = some m.length := by
  rcases mem_mantissa.1 hm with hm | ⟨ds, hds, es, hes, hne, rfl⟩
  · obtain ⟨hne, hdigits⟩ := mem_someDigits.1 hm
    have hlength : Numeral.digitsLength (m ++ r) = m.length := by
      rw [digitsLength_append hdigits, hr.digitsLength, Nat.add_zero]
    rw [Cursor.mantissaLength?_whole, hlength, if_neg fun h => hne (List.length_eq_zero_iff.1 h)]
    rw [hlength, List.drop_left]
    cases r with
    | nil => rfl
    | cons c r => simpa using (hr c rfl).2.1
  · rw [List.append_assoc, List.cons_append, mantissaLength?_digits_point hds hes hne, hr.digitsLength]
    simp
    omega

theorem exponentLength_append (he : e ∈ exponent) (hr : EndsNumeral r) : exponentLength (e ++ r) = e.length := by
  rcases mem_exponent.1 he with rfl | ⟨c, hc, s, hs, ds, hds, rfl⟩
  · cases r with
    | nil => rfl
    | cons c r =>
        have hmark : Alphabet.exponentMarks.contains c = false := by
          simpa [Alphabet.exponentMarks] using (hr c rfl).2.2
        rw [List.nil_append, exponentLength]
        exact if_neg fun h => absurd h.1 (by rw [hmark]; exact Bool.false_ne_true)
  · obtain ⟨d, u, rfl, hd⟩ := cons_of_mem_someDigits hds
    have hsign : signLength (s ++ (d :: u ++ r)) = s.length := signLength_append hs (not_sign_of_isDecimal hd) _
    have hdigits : Numeral.digitsLength (d :: u ++ r) = (d :: u).length := by
      rw [digitsLength_append (mem_someDigits.1 hds).2, hr.digitsLength, Nat.add_zero]
    rw [List.cons_append, List.append_assoc, exponentLength, hsign, List.drop_left, hdigits, if_pos ⟨hc, by simp⟩]
    simp
    omega

/-- In front of a text that cannot go on a numeral, a numeral is measured whole. -/
theorem length?_append_of_mem (ht : t ∈ grammar) (hr : EndsNumeral r) : length? (t ++ r) = some t.length := by
  obtain ⟨s, hs, m, hm, e, he, rfl⟩ := exists_parts ht
  have hsign : signLength (s ++ m ++ e ++ r) = s.length := by
    obtain ⟨c, u, rfl, hc⟩ := cons_of_mem_mantissa hm
    simp only [List.append_assoc, List.cons_append]
    exact signLength_append hs hc _
  have hdrop : (s ++ m ++ e ++ r).drop s.length = m ++ (e ++ r) := by
    simp only [List.append_assoc, List.drop_left]
  have hmantissa : mantissaLength? (m ++ (e ++ r)) = some m.length := by
    by_cases hnil : e = []
    · rw [hnil]
      exact mantissaLength?_append hm hr
    · obtain ⟨n, hn, -, hend⟩ := length_le_mantissaLength? hm he r
      rw [hn, hend hnil]
  have hrest : (s ++ m ++ e ++ r).drop (s.length + m.length) = e ++ r := by
    rw [← List.drop_drop, hdrop, List.drop_left]
  rw [length?, hsign, hdrop, hmantissa, Option.map_some, hrest, exponentLength_append he hr, List.length_append,
    List.length_append]

theorem EndsNumeral.mantissaLength? (hr : EndsNumeral r) : mantissaLength? r = none := by
  rw [Cursor.mantissaLength?_whole, hr.digitsLength, if_pos rfl]
  rw [hr.digitsLength, List.drop_zero]
  cases r with
  | nil => rfl
  | cons c r => simpa using (hr c rfl).2.1

/-- In front of a text that cannot go on a numeral, a sign is none. -/
theorem EndsNumeral.length?_sign (hc : Alphabet.signs.contains c = true) (hr : EndsNumeral r) :
    length? (c :: r) = none := by
  have hsign : signLength (c :: r) = 1 := if_pos hc
  rw [length?, hsign, List.drop_one, List.tail_cons, hr.mantissaLength?]
  rfl

theorem EndsNumeral.length? (hc : Alphabet.signs.contains c = false) (hr : EndsNumeral (c :: r)) :
    length? (c :: r) = none := by
  rw [Numeral.length?, signLength_cons hc, List.drop_zero, hr.mantissaLength?]
  rfl

theorem length?_append (hs : s ∈ sign) (hds : ds ∈ someDigits) (hr : EndsNumeral r) :
    length? (s ++ ds ++ r) = some (s ++ ds).length :=
  length?_append_of_mem (mem_grammar_of_whole hs hds) hr

end Numeral

/-! ## The parser of numerals -/

namespace Parser

variable {σ : Type} {c : Cursor}

/-- What the parser of numerals matches is the text of a number. The text of an integer is matched whole and read
back as that integer, before anything that does not go on a numeral. -/
theorem number_converts (hc : c.InSource) (s : σ) :
    (∀ v d s', (number.run c).run s = .ok (.success v d) s' → ∃ t x, v = .text t ∧ Number.IsValueOf x t) ∧
    ∀ n r, c.rest = Text.ofInt n ++ r → Numeral.EndsNumeral r →
      ∃ d, (number.run c).run s = .ok (.success (.text (Text.ofInt n)) d) s ∧ d.rest = r ∧
        Number.IsValueOf (.int n) (Text.ofInt n) := by
  rw [run_number hc]
  constructor
  · intro v d s' hrun
    cases hlength : Numeral.length? c.rest with
    | none =>
        rw [hlength] at hrun
        cases hrun
    | some n =>
        obtain ⟨hmem, hle⟩ := Numeral.take_length? hlength
        rw [hlength] at hrun
        dsimp only at hrun
        rw [taken_eq hc hle] at hrun
        cases hrun
        obtain ⟨x, hx⟩ := Number.exists_isValueOf hmem
        exact ⟨_, x, rfl, hx⟩
  · intro n r hrest hend
    have hlength := Numeral.length?_append (Text.signOf_mem n) (Text.ofNat_mem n.natAbs) hend
    rw [← Text.ofInt_eq, ← hrest] at hlength
    rw [hlength]
    dsimp only
    rw [taken, Cursor.sliceAhead_eq_take hc.1, hrest, List.take_left]
    refine ⟨_, rfl, ?_, Text.isValueOf_ofInt n⟩
    rw [Cursor.rest_advance hc.1, hrest, List.drop_left]

/-- Behind the `x`, the integer -12 is read up to the `;`. -/
theorem number_converts_negative :
    let c : Cursor := { source := "x-12;", pos := 1 }
    c.InSource ∧ ∀ s : Unit, ∃ d, (number.run c).run s = .ok (.success (.text "-12") d) s ∧ d.rest = [';'] ∧
      Number.IsValueOf (.int (-12)) "-12" := by
  intro c
  have hc : c.InSource := ⟨by decide, by decide⟩
  refine ⟨hc, fun s => ?_⟩
  exact (number_converts hc s).2 (-12) [';'] rfl (by simp [Numeral.EndsNumeral]; decide)

end Parser

end ParserAlgebra
