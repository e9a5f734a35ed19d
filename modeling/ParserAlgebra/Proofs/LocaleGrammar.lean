import ParserAlgebra.Proofs.NumeralGrammar

/-!
# The grammar of numbers of a locale

A symbol counts only in front of a digit, and holds none, so at each place there is one way to go on.
-/

namespace ParserAlgebra

open Cursor Numeral
open scoped Computability

/-- The text begins with `m`, which is in the language, and with no longer text that is. -/
structure LongestIn (L : Language Char) (t m : Text) : Prop where
  starts : m <+: t
  mem : m ∈ L
  longest : ∀ u, u <+: t → u ∈ L → u.length ≤ m.length

namespace NumberSymbols

/-! ## The grammar -/

/-- The symbol. An empty one matches nothing. -/
def symbol (t : Text) : Language Char :=
  {u | u = t ∧ t ≠ []}

/-- The signs of the locale, and the signs that all locales have. -/
def signs (s : NumberSymbols) : List Text :=
  [s.plus, s.minus, ['+'], ['-']]

/-- One of the symbols. -/
def oneOf (symbols : List Text) : Language Char :=
  {u | ∃ t ∈ symbols, u ∈ symbol t}

def sign (s : NumberSymbols) : Language Char :=
  optional (oneOf s.signs)

/-- Digits, and a separator only between digits. -/
def groupedDigits (group : Text) : Language Char :=
  someDigits * (symbol group * someDigits)∗

def fraction (decimal : Text) : Language Char :=
  optional (symbol decimal * someDigits)

/-- `sign? D+ (group D+)* (decimal D+)?` -/
def grammar (s : NumberSymbols) : Language Char :=
  s.sign * groupedDigits s.group * fraction s.decimal

/-- No character of the text is a digit. -/
def Digitless (t : Text) : Prop :=
  ∀ c ∈ t, Unicode.isDecimal c = false

instance (t : Text) : Decidable (Digitless t) :=
  decidable_of_iff (t.all (!Unicode.isDecimal ·) = true) (by simp [Digitless])

/-- What may be assumed of locale data: no symbol holds a digit, and no sign begins another one. -/
structure Usable (s : NumberSymbols) : Prop where
  plus : Digitless s.plus
  minus : Digitless s.minus
  group : Digitless s.group
  decimal : Digitless s.decimal
  apart : ∀ t ∈ s.signs, ∀ u ∈ s.signs, t ≠ [] → t <+: u → t = u

/-- A digit comes first. -/
def DigitFirst (t : Text) : Prop :=
  ∃ c u, t = c :: u ∧ Unicode.isDecimal c = true

variable {g t u : Text} {ch : Char}

theorem DigitFirst.append (h : DigitFirst t) (u : Text) : DigitFirst (t ++ u) := by
  obtain ⟨c, v, rfl, hc⟩ := h
  exact ⟨c, v ++ u, rfl, hc⟩

theorem not_digitFirst_append (hg : Digitless g) (hne : g ≠ []) (t : Text) : ¬DigitFirst (g ++ t) := by
  obtain ⟨c, g, rfl⟩ := List.exists_cons_of_ne_nil hne
  rintro ⟨d, u, heq, hd⟩
  obtain ⟨rfl, -⟩ := List.cons.inj heq
  rw [hg c List.mem_cons_self] at hd
  cases hd

theorem digitFirst_of_mem (h : t ∈ someDigits) : DigitFirst t :=
  cons_of_mem_someDigits h

/-- Two symbols in front of digits, in the same text, are the same symbol. -/
theorem eq_of_append {g' t' : Text} (hg : Digitless g) (hg' : Digitless g') (ht : DigitFirst t)
    (ht' : DigitFirst t') (h : g ++ t = g' ++ t') : g = g' := by
  -- Each of them is what stands before the first digit.
  have hcut : ∀ {g t : Text}, Digitless g → DigitFirst t → (g ++ t).takeWhile (!Unicode.isDecimal ·) = g := by
    rintro g _ hg ⟨c, u, rfl, hc⟩
    have hall : ∀ d ∈ g, (!Unicode.isDecimal d) = true := fun d hd => by rw [hg d hd]; rfl
    rw [List.takeWhile_append_of_pos hall, List.takeWhile_cons_of_neg (by simp [hc]), List.append_nil]
  rw [← hcut hg ht, h, hcut hg' ht']

/-! ## Digits with separators -/

/-- Digits and separators, each separator in front of a digit. -/
inductive Grouped (g : Text) : Text → Prop
  | nil : Grouped g []
  | digit {c : Char} {t : Text} : Unicode.isDecimal c = true → Grouped g t → Grouped g (c :: t)
  | group {t : Text} : g ≠ [] → DigitFirst t → Grouped g t → Grouped g (g ++ t)

/-- Neither a digit comes first nor a separator in front of a digit. -/
structure EndsGrouped (g t : Text) : Prop where
  digit : ¬DigitFirst t
  group : ∀ u, g ≠ [] → t = g ++ u → ¬DigitFirst u

theorem Grouped.append {g t u : Text} (ht : Grouped g t) (hu : Grouped g u) : Grouped g (t ++ u) := by
  induction ht with
  | nil => exact hu
  | digit hc _ ih => exact .digit hc ih
  | group hne hfirst _ ih =>
      rw [List.append_assoc]
      exact .group hne (hfirst.append u) ih

theorem grouped_digits (g : Text) (h : t ∈ digits) : Grouped g t := by
  rw [digits, mem_many] at h
  induction t with
  | nil => exact .nil
  | cons c t ih =>
      obtain ⟨hc, ht⟩ := List.forall_mem_cons.1 h
      exact .digit hc (ih ht)

theorem Grouped.of_digit (hg : Digitless g) (h : Grouped g (ch :: t)) (hch : Unicode.isDecimal ch = true) :
    Grouped g t := by
  generalize hv : ch :: t = v at h
  cases h with
  | nil => cases hv
  | digit _ h =>
      obtain ⟨-, rfl⟩ := List.cons.inj hv
      exact h
  | group hne _ _ => exact absurd ⟨ch, t, hv.symm, hch⟩ (not_digitFirst_append hg hne _)

theorem Grouped.of_group (hg : Digitless g) (hne : g ≠ []) (h : Grouped g (g ++ t)) : DigitFirst t ∧ Grouped g t := by
  generalize hv : g ++ t = v at h
  cases h with
  | nil => exact absurd (List.append_eq_nil_iff.1 hv).1 hne
  | digit hc _ => exact absurd ⟨_, _, hv, hc⟩ (not_digitFirst_append hg hne t)
  | group _ hfirst h =>
      obtain rfl := List.append_cancel_left hv
      exact ⟨hfirst, h⟩

theorem Grouped.of_append (hg : Digitless g) (ht : Grouped g t) (h : Grouped g (t ++ u)) : Grouped g u := by
  induction ht with
  | nil => exact h
  | digit hc _ ih => exact ih (h.of_digit hg hc)
  | group hne _ _ ih =>
      rw [List.append_assoc] at h
      exact ih (h.of_group hg hne).2

/-- What ends is at least as long as anything else of the kind that the text begins with. -/
theorem Grouped.length_le {t' u' : Text} (hg : Digitless g) (ht : Grouped g t) (hu : EndsGrouped g u)
    (ht' : Grouped g t') (h : t' ++ u' = t ++ u) : t'.length ≤ t.length := by
  induction ht' generalizing t with
  | nil => exact Nat.zero_le _
  | @digit c t' hc _ ih =>
      cases ht with
      | nil => exact absurd ⟨c, t' ++ u', h.symm, hc⟩ hu.digit
      | digit _ ht => exact Nat.succ_le_succ (ih ht (List.cons.inj h).2)
      | group hne _ _ =>
          rw [List.append_assoc] at h
          exact absurd ⟨c, t' ++ u', h.symm, hc⟩ (not_digitFirst_append hg hne _)
  | @group t' hne hfirst _ ih =>
      rw [List.append_assoc] at h
      cases ht with
      | nil => exact absurd (hfirst.append u') (hu.group _ hne h.symm)
      | digit hc _ => exact absurd ⟨_, _, h, hc⟩ (not_digitFirst_append hg hne _)
      | group _ _ ht =>
          rw [List.append_assoc] at h
          have hle := ih ht (List.append_cancel_left h)
          simpa using hle

theorem Grouped.digitFirst (hg : Digitless g) (ht : Grouped g t) (hu : EndsGrouped g u) (h : DigitFirst (t ++ u)) :
    DigitFirst t := by
  cases ht with
  | nil => exact absurd h hu.digit
  | digit hc _ => exact ⟨_, _, rfl, hc⟩
  | group hne _ _ =>
      rw [List.append_assoc] at h
      exact absurd h (not_digitFirst_append hg hne _)

theorem Grouped.mem_digits (h : Grouped [] t) : t ∈ digits := by
  refine mem_many.2 ?_
  induction h with
  | nil => exact nofun
  | digit hc _ ih => exact List.forall_mem_cons.2 ⟨hc, ih⟩
  | group hne _ _ _ => exact absurd rfl hne

theorem mem_symbol_mul {L : Language Char} : t ∈ symbol g * L ↔ g ≠ [] ∧ ∃ u ∈ L, t = g ++ u := by
  rw [Language.mem_mul]
  constructor
  · rintro ⟨_, ⟨rfl, hne⟩, u, hu, rfl⟩
    exact ⟨hne, u, hu, rfl⟩
  · rintro ⟨hne, u, hu, rfl⟩
    exact ⟨g, ⟨rfl, hne⟩, u, hu, rfl⟩

theorem grouped_of_mem_kstar (h : t ∈ (symbol g * someDigits)∗) : Grouped g t := by
  obtain ⟨parts, rfl, hparts⟩ := Language.mem_kstar.1 h
  clear h
  induction parts with
  | nil => exact .nil
  | cons part parts ih =>
      obtain ⟨hpart, htail⟩ := List.forall_mem_cons.1 hparts
      obtain ⟨hne, ds, hds, rfl⟩ := mem_symbol_mul.1 hpart
      rw [List.flatten_cons, List.append_assoc]
      exact .group hne ((digitFirst_of_mem hds).append _)
        ((grouped_digits g (mem_someDigits.1 hds).2).append (ih htail))

theorem Grouped.exists_split (hg : Digitless g) (h : Grouped g t) :
    ∃ ds ∈ digits, ∃ u ∈ (symbol g * someDigits)∗, t = ds ++ u ∧ (DigitFirst t → ds ∈ someDigits) := by
  induction h with
  | nil => exact ⟨[], Language.nil_mem_kstar _, [], Language.nil_mem_kstar _, rfl, fun ⟨_, _, h, _⟩ => by cases h⟩
  | @digit c t hc _ ih =>
      obtain ⟨ds, hds, u, hu, rfl, -⟩ := ih
      have hcons : c :: ds ∈ digits := mem_many.2 (List.forall_mem_cons.2 ⟨hc, mem_many.1 hds⟩)
      exact ⟨c :: ds, hcons, u, hu, rfl, fun _ => mem_someDigits.2 ⟨List.cons_ne_nil c ds, hcons⟩⟩
  | @group t hne hfirst _ ih =>
      obtain ⟨ds, -, u, hu, rfl, hds⟩ := ih
      have hpart : g ++ ds ∈ symbol g * someDigits := mem_symbol_mul.2 ⟨hne, ds, hds hfirst, rfl⟩
      obtain ⟨parts, rfl, hparts⟩ := Language.mem_kstar.1 hu
      refine ⟨[], Language.nil_mem_kstar _, g ++ ds ++ parts.flatten, ?_, ?_, ?_⟩
      · exact Language.mem_kstar.2 ⟨(g ++ ds) :: parts, rfl, List.forall_mem_cons.2 ⟨hpart, hparts⟩⟩
      · rw [List.nil_append, List.append_assoc]
      · exact fun h => absurd h (not_digitFirst_append hg hne _)

theorem mem_groupedDigits (hg : Digitless g) : t ∈ groupedDigits g ↔ DigitFirst t ∧ Grouped g t := by
  constructor
  · rintro ⟨ds, hds, u, hu, rfl⟩
    exact ⟨(digitFirst_of_mem hds).append u,
      (grouped_digits g (mem_someDigits.1 hds).2).append (grouped_of_mem_kstar hu)⟩
  · rintro ⟨hfirst, ht⟩
    obtain ⟨ds, -, u, hu, rfl, hds⟩ := ht.exists_split hg
    exact Language.append_mem_mul (hds hfirst) hu

/-! ## What the scan takes -/

theorem digitNext_iff {c : Cursor} (hc : c.NotBefore) : digitNext c = true ↔ DigitFirst c.rest := by
  have hnext := (nextIs_isDecimal hc).symm.trans (nextIs_eq hc Unicode.isDecimal)
  rw [Except.ok.inj hnext]
  constructor
  · exact cons_of_head?_any
  · rintro ⟨ch, t, hrest, hch⟩
    rw [hrest]
    exact hch

/-- The symbol that is skipped is the first one, of those that are not empty, with which the text begins. -/
theorem skipSymbol?_eq_some {symbols : List Text} {c d : Cursor} (hc : c.InSource)
    (h : skipSymbol? symbols c = some d) :
    ∃ t ∈ symbols, t ≠ [] ∧ t <+: c.rest ∧ d = c.advance t.length := by
  obtain ⟨t, hfind, rfl⟩ := Option.map_eq_some_iff.1 h
  have htest := List.find?_some hfind
  rw [Bool.and_eq_true, startsWith_eq_true_iff hc] at htest
  exact ⟨t, List.mem_of_find?_eq_some hfind, by simpa using htest.1, htest.2, rfl⟩

theorem skipSymbol?_eq_none {symbols : List Text} {c : Cursor} (hc : c.InSource)
    (h : skipSymbol? symbols c = none) : ∀ t ∈ symbols, t ≠ [] → ¬t <+: c.rest := by
  intro t ht hne hstarts
  have htest := List.find?_eq_none.1 (Option.map_eq_none_iff.1 h) t ht
  rw [Bool.and_eq_true, startsWith_eq_true_iff hc] at htest
  exact htest ⟨by simpa using hne, hstarts⟩

theorem rest_advance_append {c : Cursor} (hc : c.InSource) (h : c.rest = t ++ u) : (c.advance t.length).rest = u := by
  rw [rest_advance hc.1, h, List.drop_left]

theorem skipSymbol?_single {c d : Cursor} (hc : c.InSource) (h : skipSymbol? [g] c = some d) :
    g ≠ [] ∧ c.rest = g ++ d.rest ∧ d.InSource ∧ d = c.advance g.length := by
  obtain ⟨t, hmem, hne, ⟨u, hu⟩, hd⟩ := skipSymbol?_eq_some hc h
  rw [List.mem_singleton.1 hmem] at hne hu hd
  refine ⟨hne, ?_, hd ▸ inSource_advance hc g.length, hd⟩
  rw [hd, rest_advance_append hc hu.symm, hu]

/-- The scan of digits and separators takes them up to where they end. -/
theorem skipGrouped_takes (hg : Digitless g) {limit : Nat} {c : Cursor} (hc : c.InSource)
    (hl : c.remaining ≤ limit) :
    ∃ t u, c.rest = t ++ u ∧ Grouped g t ∧ EndsGrouped g u ∧ skipGrouped g limit c = c.advance t.length := by
  induction limit generalizing c with
  | zero =>
      have hrest : c.rest = [] := List.length_eq_zero_iff.1 (by rw [length_rest hc.1]; omega)
      refine ⟨[], [], hrest, .nil, ⟨?_, ?_⟩, (advance_zero hc).symm⟩
      · rintro ⟨_, _, h, -⟩
        cases h
      · rintro u hne h
        exact absurd (List.append_eq_nil_iff.1 h.symm).1 hne
  | succ limit ih =>
      rw [skipGrouped]
      by_cases hdigit : digitNext c = true
      · obtain ⟨ch, v, hrest, hch⟩ := (digitNext_iff hc.1).1 hdigit
        have hlt : (c.advance (1 : Nat)).remaining < c.remaining :=
          remaining_advance_lt Nat.one_pos (remaining_pos_of_digitNext hc.1 hdigit)
        obtain ⟨t, u, hv, ht, hu, hskip⟩ := ih (inSource_advance hc 1) (by omega)
        rw [rest_advance_one hc.1 hrest] at hv
        refine ⟨ch :: t, u, by rw [hrest, hv]; rfl, .digit hch ht, hu, ?_⟩
        rw [if_pos hdigit, List.length_cons, Nat.add_comm, ← advance_advance]
        exact hskip
      · have hstop : ¬DigitFirst c.rest := fun h => hdigit ((digitNext_iff hc.1).2 h)
        rw [if_neg hdigit]
        cases hs : skipSymbol? [g] c with
        | none =>
            have hnone := skipSymbol?_eq_none hc hs g List.mem_cons_self
            exact ⟨[], c.rest, rfl, .nil, ⟨hstop, fun u hne h => absurd ⟨u, h.symm⟩ (hnone hne)⟩,
              (advance_zero hc).symm⟩
        | some d =>
            have hlt := remaining_skipSymbol?_lt hc.1 hs
            obtain ⟨hne, hrest, hd, hmoved⟩ := skipSymbol?_single hc hs
            dsimp only
            by_cases hdigit' : digitNext d = true
            · obtain ⟨t, u, htu, ht, hu, hskip⟩ := ih hd (by omega)
              have hfirst := ht.digitFirst hg hu (htu ▸ (digitNext_iff hd.1).1 hdigit')
              refine ⟨g ++ t, u, by rw [hrest, htu, List.append_assoc], .group hne hfirst ht, hu, ?_⟩
              rw [if_pos hdigit', hskip, hmoved, advance_advance, List.length_append]
            · rw [if_neg hdigit']
              refine ⟨[], c.rest, rfl, .nil, ⟨hstop, fun u _ hu => ?_⟩, (advance_zero hc).symm⟩
              rw [← List.append_cancel_left (hrest.symm.trans hu)]
              exact fun h => hdigit' ((digitNext_iff hd.1).2 h)

theorem mem_fraction {decimal : Text} :
    t ∈ fraction decimal ↔ t = [] ∨ decimal ≠ [] ∧ ∃ ds ∈ someDigits, t = decimal ++ ds := by
  rw [fraction, mem_optional, mem_symbol_mul]

/-- Behind the digits, the scan takes the longest fraction. -/
theorem skipFraction_takes (decimal : Text) {c : Cursor} (hc : c.InSource) :
    ∃ t, LongestIn (fraction decimal) c.rest t ∧ skipFraction decimal c = c.advance t.length := by
  have hstays (hnone : ∀ u, decimal ≠ [] → c.rest = decimal ++ u → ¬DigitFirst u) :
      LongestIn (fraction decimal) c.rest [] := by
    refine ⟨List.nil_prefix, mem_fraction.2 (Or.inl rfl), ?_⟩
    rintro u ⟨v, hv⟩ hu
    rcases mem_fraction.1 hu with rfl | ⟨hne, ds, hds, rfl⟩
    · exact Nat.le_refl 0
    · rw [List.append_assoc] at hv
      exact absurd ((digitFirst_of_mem hds).append v) (hnone _ hne hv.symm)
  unfold skipFraction
  cases hs : skipSymbol? [decimal] c with
  | none =>
      have hnone := skipSymbol?_eq_none hc hs decimal List.mem_cons_self
      exact ⟨[], hstays fun u hne h => absurd ⟨u, h.symm⟩ (hnone hne), (advance_zero hc).symm⟩
  | some d =>
      obtain ⟨hne, hrest, hd, hmoved⟩ := skipSymbol?_single hc hs
      dsimp only
      by_cases hdigit : digitNext d = true
      · have hnil : Digitless [] := nofun
        obtain ⟨ds, u, hdu, hds, hu, hskip⟩ := skipGrouped_takes hnil hd (Nat.le_refl _)
        obtain ⟨ch, v, rfl, -⟩ := hds.digitFirst hnil hu (hdu ▸ (digitNext_iff hd.1).1 hdigit)
        have hmem : ch :: v ∈ someDigits := mem_someDigits.2 ⟨List.cons_ne_nil ch v, hds.mem_digits⟩
        refine ⟨decimal ++ ch :: v, ⟨⟨u, ?_⟩, mem_fraction.2 (Or.inr ⟨hne, _, hmem, rfl⟩), ?_⟩, ?_⟩
        · rw [hrest, hdu, List.append_assoc]
        · rintro w ⟨x, hx⟩ hw
          rcases mem_fraction.1 hw with rfl | ⟨-, es, hes, rfl⟩
          · exact Nat.zero_le _
          · rw [hrest, hdu, List.append_assoc] at hx
            have hle := hds.length_le hnil hu (grouped_digits [] (mem_someDigits.1 hes).2) (List.append_cancel_left hx)
            rw [List.length_append, List.length_append]
            omega
        · rw [if_pos hdigit, hskip, hmoved, advance_advance, List.length_append]
      · rw [if_neg hdigit]
        refine ⟨[], hstays fun u _ hu h => hdigit ((digitNext_iff hd.1).2 ?_), (advance_zero hc).symm⟩
        rwa [List.append_cancel_left (hrest.symm.trans hu)]

variable {s : NumberSymbols}

/-- A decimal symbol with digits behind it, in the middle of what ends further on, is a separator there. -/
theorem Grouped.append_fraction {decimal a ds x : Text} (hg : Digitless g) (hdecimal : Digitless decimal)
    (hne : decimal ≠ []) (hds : ds ∈ someDigits) (ht : Grouped g t) (ha : Grouped g a) (hlt : a.length < t.length)
    (h : a ++ (decimal ++ ds) ++ x = t ++ u) : Grouped g (a ++ (decimal ++ ds)) := by
  rw [List.append_assoc, List.append_assoc] at h
  obtain ⟨v, rfl⟩ := List.prefix_of_prefix_length_le ⟨_, h⟩ (List.prefix_append t u) hlt.le
  rw [List.append_assoc] at h
  have htail := List.append_cancel_left h
  have hv := ha.of_append hg ht
  cases hv with
  | nil => simp at hlt
  | digit hc _ => exact absurd ⟨_, _, htail, hc⟩ (not_digitFirst_append hdecimal hne _)
  | group hne' hfirst _ =>
      rw [List.append_assoc] at htail
      have hfirst' := digitFirst_of_mem hds
      rw [eq_of_append hdecimal hg (hfirst'.append x) (hfirst.append u) htail]
      exact ha.append (.group hne' hfirst' (grouped_digits g (mem_someDigits.1 hds).2))

/-- From a digit on, the scan takes the longest number without a sign. -/
theorem skipDigits_takes (hs : s.Usable) {c : Cursor} (hc : c.InSource) (hfirst : DigitFirst c.rest) :
    ∃ t, LongestIn (groupedDigits s.group * fraction s.decimal) c.rest t ∧ s.skipDigits c = c.advance t.length := by
  obtain ⟨t, u, hrest, ht, hu, hskip⟩ := skipGrouped_takes hs.group hc (Nat.le_refl _)
  obtain ⟨f, hf, hskip'⟩ := skipFraction_takes s.decimal (inSource_advance hc t.length)
  rw [rest_advance_append hc hrest] at hf
  have hmem : t ∈ groupedDigits s.group :=
    (mem_groupedDigits hs.group).2 ⟨ht.digitFirst hs.group hu (hrest ▸ hfirst), ht⟩
  refine ⟨t ++ f, ⟨?_, Language.append_mem_mul hmem hf.mem, ?_⟩, ?_⟩
  · rw [hrest]
    exact (List.prefix_append_right_inj t).2 hf.starts
  · rintro _ ⟨x, hx⟩ ⟨a, ha, b, hb, rfl⟩
    have ha := ((mem_groupedDigits hs.group).1 ha).2
    simp only [hrest] at hx
    rw [List.length_append, List.length_append]
    have hle := ht.length_le hs.group hu ha ((List.append_assoc a b x).symm.trans hx)
    rcases Nat.eq_or_lt_of_le hle with heq | hlt
    · rw [List.append_assoc] at hx
      obtain ⟨-, hx⟩ := List.append_inj hx heq
      have hb := hf.longest b ⟨x, hx⟩ hb
      omega
    · -- Digits that end earlier go on with a decimal symbol that is the separator, so they are only a part of the
      -- digits and separators that were taken.
      rcases mem_fraction.1 hb with rfl | ⟨hne, ds, hds, rfl⟩
      · simp
        omega
      · have hgrouped := ht.append_fraction hs.group hs.decimal hne hds ha hlt hx
        have hle := ht.length_le hs.group hu hgrouped hx
        rw [List.length_append] at hle
        omega
  · rw [skipDigits, hskip, hskip', advance_advance, List.length_append]

theorem Usable.digitless (hs : s.Usable) {t : Text} (ht : t ∈ s.signs) : Digitless t := by
  simp only [signs, List.mem_cons, List.not_mem_nil, or_false] at ht
  rcases ht with rfl | rfl | rfl | rfl
  · exact hs.plus
  · exact hs.minus
  · decide
  · decide

theorem mem_sign : t ∈ s.sign ↔ t = [] ∨ t ∈ s.signs ∧ t ≠ [] := by
  rw [sign, mem_optional]
  refine or_congr_right ⟨?_, fun ⟨ht, hne⟩ => ⟨t, ht, rfl, hne⟩⟩
  rintro ⟨_, ht, rfl, hne⟩
  exact ⟨ht, hne⟩

/-- The sign that is skipped is the only one that can stand in front of a digit here. -/
theorem skipSign_takes (hs : s.Usable) {c : Cursor} (hc : c.InSource) :
    ∃ t u, c.rest = t ++ u ∧ t ∈ s.sign ∧ s.skipSign c = c.advance t.length ∧
      ∀ t' u', t' ∈ s.sign → c.rest = t' ++ u' → DigitFirst u' → t' = t := by
  cases hskip : skipSymbol? s.signs c with
  | none =>
      have hnone := skipSymbol?_eq_none hc hskip
      have hstays : s.skipSign c = c := congrArg (·.getD c) hskip
      refine ⟨[], c.rest, rfl, Or.inl rfl, hstays.trans (advance_zero hc).symm, fun t' u' ht' hrest _ => ?_⟩
      rcases mem_sign.1 ht' with rfl | ⟨ht', hne⟩
      · rfl
      · exact absurd ⟨u', hrest.symm⟩ (hnone t' ht' hne)
  | some d =>
      obtain ⟨t, ht, hne, ⟨u, hu⟩, rfl⟩ := skipSymbol?_eq_some hc hskip
      refine ⟨t, u, hu.symm, mem_sign.2 (Or.inr ⟨ht, hne⟩), congrArg (·.getD c) hskip, ?_⟩
      intro t' u' ht' hrest hfirst
      rcases mem_sign.1 ht' with rfl | ⟨ht', hne'⟩
      · rw [List.nil_append, ← hu] at hrest
        exact absurd (hrest ▸ hfirst) (not_digitFirst_append (hs.digitless ht) hne u)
      · rcases List.prefix_or_prefix_of_prefix ⟨u', hrest.symm⟩ ⟨u, hu⟩ with h | h
        · exact hs.apart t' ht' t ht hne' h
        · exact (hs.apart t ht t' ht' hne h).symm

/-- A number is a sign, possibly empty, with digits behind it. -/
theorem mem_grammar (hg : Digitless s.group) :
    t ∈ s.grammar ↔ ∃ a ∈ s.sign, ∃ b ∈ groupedDigits s.group * fraction s.decimal, DigitFirst b ∧ t = a ++ b := by
  rw [grammar, mul_assoc, Language.mem_mul]
  refine exists_congr fun a => and_congr_right fun _ => exists_congr fun b => and_congr_right fun hb => ?_
  obtain ⟨ds, hds, f, -, rfl⟩ := hb
  exact ⟨fun h => ⟨((mem_groupedDigits hg).1 hds).1.append f, h.symm⟩, fun h => h.2.symm⟩

/-- Where a digit stands behind the sign, the scan takes the longest number. -/
theorem longest_of_digitNext (hs : s.Usable) {c : Cursor} (hc : c.InSource) (h : digitNext (s.skipSign c) = true) :
    ∃ m, LongestIn s.grammar c.rest m ∧ s.skipDigits (s.skipSign c) = c.advance m.length := by
  obtain ⟨sign, r, hrest, hsign, hskip, honly⟩ := skipSign_takes hs hc
  have hd : (s.skipSign c).InSource := onward_inSource.reaches hc (s.reaches_skipSign c)
  have hr : (s.skipSign c).rest = r := by rw [hskip, rest_advance_append hc hrest]
  have hfirst := (digitNext_iff hd.1).1 h
  obtain ⟨t, ht, hskip'⟩ := skipDigits_takes hs hd hfirst
  rw [hr] at ht
  refine ⟨sign ++ t, ⟨?_, ?_, ?_⟩, ?_⟩
  · rw [hrest]
    exact (List.prefix_append_right_inj sign).2 ht.starts
  · rw [grammar, mul_assoc]
    exact Language.append_mem_mul hsign ht.mem
  · rintro u ⟨x, hx⟩ hu
    obtain ⟨a, ha, b, hb, hfirst, rfl⟩ := (mem_grammar hs.group).1 hu
    rw [List.append_assoc] at hx
    obtain rfl := honly a _ ha hx.symm (hfirst.append x)
    rw [hrest] at hx
    have hle := ht.longest b ⟨x, List.append_cancel_left hx⟩ hb
    simpa using hle
  · rw [hskip', hskip, advance_advance, List.length_append]

/-- Where no digit stands behind the sign, no number comes next. -/
theorem no_number_of_not_digitNext (hs : s.Usable) {c : Cursor} (hc : c.InSource)
    (h : digitNext (s.skipSign c) = false) : ∀ u, u <+: c.rest → u ∉ s.grammar := by
  rintro u ⟨x, hx⟩ hu
  obtain ⟨sign, r, hrest, -, hskip, honly⟩ := skipSign_takes hs hc
  have hd : (s.skipSign c).InSource := onward_inSource.reaches hc (s.reaches_skipSign c)
  obtain ⟨a, ha, b, -, hfirst, rfl⟩ := (mem_grammar hs.group).1 hu
  rw [List.append_assoc] at hx
  obtain rfl := honly a _ ha hx.symm (hfirst.append x)
  have hnext : digitNext (s.skipSign c) = true := by
    rw [digitNext_iff hd.1, hskip, rest_advance_append hc hx.symm]
    exact hfirst.append x
  rw [h] at hnext
  cases hnext

end NumberSymbols

/-! ## The parser of numbers of a locale -/

namespace Parser

open NumberSymbols Parse

variable {σ : Type} {data : Installation} {locale : Text} {symbols : NumberSymbols}

theorem run_localeNumber (h : data.numberSymbols locale = .ok symbols) :
    ∃ p : Parser σ, localeNumber data locale = .ok p ∧ ∀ (c : Cursor) (s : σ), c.InSource →
      (p.run c).run s = .ok (
        let start := symbols.skipSign c
        let stop := symbols.skipDigits start
        if digitNext start then .success (.text (stop.since c)) stop
        else .fail c (Wording.expectedLocaleNumber locale) Wording.digits) s := by
  refine ⟨_, by rw [localeNumber, h]; rfl, fun c s hc => ?_⟩
  have hstart : (symbols.skipSign c).NotBefore := (onward_inSource.reaches hc (symbols.reaches_skipSign c)).1
  dsimp only
  generalize symbols.skipSign c = start at hstart
  by_cases hend : start.atEnd
  · rw [if_pos hend, digitNext_of_atEnd hstart hend]
    rfl
  · obtain ⟨ch, t, -, hch⟩ := current_of_not_atEnd hstart hend
    rw [if_neg hend, hch]
    have hdigit : digitNext start = Unicode.isDecimal ch := by rw [digitNext, hch]
    rw [hdigit]
    change ((if Unicode.isDecimal ch then _ else _ : Parse σ Outcome)).run s = _
    cases Unicode.isDecimal ch <;> rfl

/-- The parser of numbers of a locale matches exactly where a number of the locale comes next. It takes the longest
one, and where there is none, it fails and stays. -/
theorem localeNumber_takes_longest (h : data.numberSymbols locale = .ok symbols) (hs : symbols.Usable) :
    ∃ p : Parser σ, localeNumber data locale = .ok p ∧ ∀ (c : Cursor) (s : σ), c.InSource →
      ((∃ v d s', (p.run c).run s = .ok (.success v d) s') ↔ ∃ u, u <+: c.rest ∧ u ∈ symbols.grammar) ∧
      (∀ v d s', (p.run c).run s = .ok (.success v d) s' →
        ∃ m, LongestIn symbols.grammar c.rest m ∧ v = .text m ∧ d = { c with pos := c.pos + m.length } ∧ s' = s) ∧
      ((∀ u, u <+: c.rest → u ∉ symbols.grammar) →
        (p.run c).run s = .ok (.fail c (Wording.expectedLocaleNumber locale) Wording.digits) s) := by
  obtain ⟨p, hp, hrun⟩ := run_localeNumber (σ := σ) h
  refine ⟨p, hp, fun c s hc => ?_⟩
  rw [hrun c s hc]
  dsimp only
  cases hdigit : digitNext (symbols.skipSign c) with
  | true =>
      obtain ⟨m, hm, hskip⟩ := longest_of_digitNext hs hc hdigit
      have htext : (c.advance m.length).since c = m := by
        rw [since_advance hc (Int.natCast_nonneg _), sliceAhead_eq_take hc.1, List.prefix_iff_eq_take.1 hm.starts]
        simp
      have hmoved : c.advance m.length = { c with pos := c.pos + m.length } := by
        rw [← pos_advance hc hm.starts.length_le]
        rfl
      rw [if_pos rfl, hskip, htext, hmoved]
      refine ⟨⟨fun _ => ⟨m, hm.starts, hm.mem⟩, fun _ => ⟨_, _, _, rfl⟩⟩, ?_, fun hnone => ?_⟩
      · rintro v d s' ⟨⟩
        exact ⟨m, hm, rfl, rfl, rfl⟩
      · exact absurd hm.mem (hnone m hm.starts)
  | false =>
      have hnone := no_number_of_not_digitNext hs hc hdigit
      rw [if_neg Bool.false_ne_true]
      refine ⟨⟨?_, ?_⟩, ?_, fun _ => rfl⟩
      · rintro ⟨v, d, s', hrun⟩
        cases hrun
      · rintro ⟨u, hu, hmem⟩
        exact absurd hmem (hnone u hu)
      · rintro v d s' ⟨⟩

/-- Where the separator begins the decimal symbol, the scan still sees which of the two comes next. -/
theorem localeNumber_takes_longest_up_to_second_fraction :
    let symbols : NumberSymbols := { decimal := "..", group := ".", plus := "+", minus := "−" }
    let data : Installation := some [("xx", .symbols symbols)]
    let c : Cursor := { source := "x−1.234..5.6", pos := 1 }
    data.numberSymbols "xx" = .ok symbols ∧ symbols.Usable ∧ c.InSource ∧
      LongestIn symbols.grammar c.rest "−1.234..5" ∧
      ∃ p : Parser Unit, localeNumber data "xx" = .ok p ∧
        (p.run c).run () = .ok (.success (.text "−1.234..5") { c with pos := 10 }) () := by
  intro symbols data c
  have hsymbols : data.numberSymbols "xx" = .ok symbols := by rfl
  have hs : symbols.Usable := ⟨by decide, by decide, by decide, by decide, by decide⟩
  have hc : c.InSource := ⟨by decide, by decide⟩
  obtain ⟨p, hp, hlongest⟩ := localeNumber_takes_longest (σ := Unit) hsymbols hs
  obtain ⟨q, hq, hrun⟩ := run_localeNumber (σ := Unit) hsymbols
  obtain rfl := Except.ok.inj (hp.symm.trans hq)
  have htaken : (p.run c).run () = .ok (.success (.text "−1.234..5") { c with pos := 10 }) () := by
    have hsign : symbols.skipSign c = { c with pos := 2 } := by decide +kernel
    have hdigit : digitNext { c with pos := 2 } = true := by decide +kernel
    have hstop : symbols.skipDigits { c with pos := 2 } = { c with pos := 10 } := by decide +kernel
    rw [hrun c () hc, hsign]
    dsimp only
    rw [hdigit, hstop]
    rfl
  obtain ⟨m, hm, hv, -, -⟩ := (hlongest c () hc).2.1 _ _ _ htaken
  cases hv
  exact ⟨hsymbols, hs, hc, hm, p, hp, htaken⟩

end Parser

end ParserAlgebra
