import Mathlib.Data.List.Lex
import Mathlib.Data.List.Sort
import ParserAlgebra.Precedence
import ParserAlgebra.Proofs.Reading
import ParserAlgebra.Proofs.Run

/-!
# The longest operator
-/

namespace ParserAlgebra

open Cursor

/-! ## The order of a dictionary -/

/-- The code point of `c` is less than that of `d`. -/
def CodeLess (c d : Char) : Prop :=
  c.toNat < d.toNat

instance : Std.Asymm CodeLess where
  asymm _ _ := Nat.lt_asymm

instance : Std.Trichotomous CodeLess where
  trichotomous _ _ h h' := Char.toNat_inj.1 (Nat.le_antisymm (Nat.not_lt.1 h') (Nat.not_lt.1 h))

namespace Text

/-- `a` stands before `b` in a dictionary ordered by code points. -/
abbrev DictionaryLess (a b : Text) : Prop :=
  List.Lex CodeLess a b

theorem DictionaryLess.trans : {a b c : Text} → DictionaryLess a b → DictionaryLess b c → DictionaryLess a c
  | _, _, _, .nil, .rel _ | _, _, _, .nil, .cons _ => .nil
  | _, _, _, .rel h, .rel h' => .rel (Nat.lt_trans h h')
  | _, _, _, .rel h, .cons _ => .rel h
  | _, _, _, .cons _, .rel h' => .rel h'
  | _, _, _, .cons h, .cons h' => .cons (DictionaryLess.trans h h')

theorem precedes_iff {a b : Text} : a.precedes b = true ↔ DictionaryLess a b := by
  fun_induction precedes a b with
  | case1 a => exact iff_of_false nofun nofun
  | case2 d b => exact iff_of_true rfl .nil
  | case3 c a d b ih =>
      simp only [Bool.or_eq_true, decide_eq_true_eq, Bool.and_eq_true, beq_iff_eq, ih]
      constructor
      · rintro (h | ⟨rfl, h⟩)
        · exact .rel h
        · exact .cons h
      · rintro (_ | h | h)
        · exact Or.inl h
        · exact Or.inr ⟨rfl, h⟩

end Text

namespace PrecedenceTable

open Text

/-! ## The order in which operators are tried -/

/-- A longer operator stands before a shorter one, and of two of the same length the first in a dictionary. -/
def TriedBefore (a b : Text) : Prop :=
  b.length < a.length ∨ a.length = b.length ∧ DictionaryLess a b

theorem triedBefore_iff {a b : Text} : triedBefore a b = true ↔ TriedBefore a b := by
  simp [triedBefore, TriedBefore, precedes_iff]

theorem TriedBefore.trans {a b c : Text} (h : TriedBefore a b) (h' : TriedBefore b c) : TriedBefore a c := by
  rcases h with h | ⟨heq, h⟩
  · rcases h' with h' | ⟨heq', -⟩
    · exact Or.inl (Nat.lt_trans h' h)
    · exact Or.inl (heq' ▸ h)
  · rcases h' with h' | ⟨heq', h'⟩
    · exact Or.inl (heq ▸ h')
    · exact Or.inr ⟨heq.trans heq', h.trans h'⟩

instance : Std.Asymm TriedBefore where
  asymm a b h h' := by
    rcases h with h | ⟨heq, h⟩ <;> rcases h' with h' | ⟨heq', h'⟩
    · omega
    · omega
    · omega
    · exact Std.Asymm.asymm a b h h'

theorem triedBefore_of_not {a b : Text} (hne : a ≠ b) (h : ¬TriedBefore a b) : TriedBefore b a := by
  by_contra h'
  simp only [TriedBefore, not_or, not_and] at h h'
  have hlen : a.length = b.length := by omega
  exact hne (Std.Trichotomous.trichotomous (r := DictionaryLess) a b (h.2 hlen) (h'.2 hlen.symm))

theorem TriedBefore.length_le {a b : Text} (h : TriedBefore a b) : b.length ≤ a.length := by
  rcases h with h | ⟨heq, -⟩ <;> omega

/-! ## The operators of a table -/

/-- The last entry of the operator gives it this precedence. -/
def Assigns (table : PrecedenceTable) (op : Text) (n : Int) : Prop :=
  ∃ before after, table = before ++ (op, n) :: after ∧ ∀ entry ∈ after, entry.1 ≠ op

variable {table table' : PrecedenceTable} {op : Text} {n : Int}

theorem precedence?_eq_some_iff : table.precedence? op = some n ↔ table.Assigns op n := by
  rw [precedence?, Option.map_eq_some_iff]
  constructor
  · rintro ⟨⟨_, _⟩, hfind, rfl⟩
    obtain ⟨hop, front, back, htable, hfront⟩ := List.find?_eq_some_iff_append.1 hfind
    refine ⟨back.reverse, front.reverse, ?_, fun entry hentry => ?_⟩
    · rw [← eq_of_beq hop, ← table.reverse_reverse, htable]
      simp
    · simpa using hfront entry (List.mem_reverse.1 hentry)
  · rintro ⟨before, after, rfl, hafter⟩
    refine ⟨(op, n), List.find?_eq_some_iff_append.2 ⟨?_, after.reverse, before.reverse, ?_, ?_⟩, rfl⟩
    · simp
    · simp
    · simpa using hafter

theorem Assigns.mem (h : table.Assigns op n) : (op, n) ∈ table := by
  obtain ⟨before, after, rfl, -⟩ := h
  simp

theorem exists_assigns (h : op ∈ table.map (·.1)) : ∃ n, table.Assigns op n := by
  obtain ⟨entry, hentry, hop⟩ := List.mem_map.1 h
  have hfound : (table.reverse.find? (·.1 == op)).isSome :=
    List.find?_isSome.2 ⟨entry, List.mem_reverse.2 hentry, by simp [hop]⟩
  obtain ⟨found, hfound⟩ := Option.isSome_iff_exists.1 hfound
  exact ⟨found.2, precedence?_eq_some_iff.1 (by rw [precedence?, hfound]; rfl)⟩

/-- Where no operator is repeated, all that counts is which entries there are. -/
theorem assigns_iff_mem (h : (table.map (·.1)).Nodup) : table.Assigns op n ↔ (op, n) ∈ table := by
  refine ⟨Assigns.mem, fun hmem => ?_⟩
  obtain ⟨before, after, rfl⟩ := List.append_of_mem hmem
  refine ⟨before, after, rfl, fun entry hentry hop => ?_⟩
  rw [List.map_append, List.map_cons, List.nodup_append] at h
  exact (List.nodup_cons.1 h.2.1).1 (List.mem_map.2 ⟨entry, hentry, hop⟩)

theorem mem_insertOperator {o : Text} {ops : List Text} : o ∈ insertOperator op ops ↔ o = op ∨ o ∈ ops := by
  induction ops with
  | nil => simp [insertOperator]
  | cons o' ops ih =>
      rw [insertOperator]
      split
      · rename_i heq
        simp [heq]
      · split
        · simp
        · simp only [List.mem_cons, ih]
          exact or_left_comm

theorem pairwise_insertOperator {ops : List Text} (h : ops.Pairwise TriedBefore) :
    (insertOperator op ops).Pairwise TriedBefore := by
  induction ops with
  | nil => exact List.pairwise_singleton _ _
  | cons o ops ih =>
      obtain ⟨ho, hops⟩ := List.pairwise_cons.1 h
      rw [insertOperator]
      split
      · exact h
      · rename_i hne
        split
        · rename_i hbefore
          have hop := triedBefore_iff.1 hbefore
          exact List.pairwise_cons.2 ⟨List.forall_mem_cons.2 ⟨hop, fun o' ho' => hop.trans (ho o' ho')⟩, h⟩
        · rename_i hbefore
          rw [triedBefore_iff] at hbefore
          refine List.pairwise_cons.2 ⟨fun o' ho' => ?_, ih hops⟩
          rcases mem_insertOperator.1 ho' with rfl | ho'
          · exact triedBefore_of_not hne hbefore
          · exact ho o' ho'

theorem pairwise_operators (table : PrecedenceTable) : table.operators.Pairwise TriedBefore := by
  rw [operators]
  induction table.map (·.1) with
  | nil => exact List.Pairwise.nil
  | cons op ops ih => exact pairwise_insertOperator ih

theorem mem_operators : op ∈ table.operators ↔ ∃ n, table.Assigns op n := by
  have hmem : op ∈ table.operators ↔ op ∈ table.map (·.1) := by
    rw [operators]
    induction table.map (·.1) with
    | nil => rfl
    | cons o ops ih => rw [List.foldr_cons, mem_insertOperator, ih, List.mem_cons]
  rw [hmem]
  exact ⟨exists_assigns, fun ⟨n, hn⟩ => List.mem_map_of_mem (f := (·.1)) hn.mem⟩

/-- The list of the operators depends on nothing but which operators there are. -/
theorem eq_operators {ops : List Text} (hpairwise : ops.Pairwise TriedBefore)
    (hmem : ∀ op, op ∈ ops ↔ ∃ n, table.Assigns op n) : ops = table.operators :=
  List.Pairwise.eq_of_mem_iff hpairwise table.pairwise_operators fun op => (hmem op).trans mem_operators.symm

theorem isEmpty_mem_operators : table.any (·.1.isEmpty) = true ↔ [] ∈ table.operators := by
  rw [mem_operators, List.any_eq_true]
  constructor
  · rintro ⟨entry, hentry, hop⟩
    exact exists_assigns (List.mem_map.2 ⟨entry, hentry, List.isEmpty_iff.1 hop⟩)
  · rintro ⟨n, hn⟩
    exact ⟨_, hn.mem, rfl⟩

/-! ## The first operator that comes next -/

/-- The operator comes next in the text and has this precedence, and no longer operator of the table comes next. -/
structure LongestNext (table : PrecedenceTable) (t op : Text) (n : Int) : Prop where
  assigned : table.Assigns op n
  starts : op <+: t
  longest : ∀ op' n', table.Assigns op' n' → op' <+: t → op'.length ≤ op.length

theorem LongestNext.unique {t op' : Text} {n' : Int} (h : table.LongestNext t op n)
    (h' : table.LongestNext t op' n') : op' = op ∧ n' = n := by
  have hlen : op'.length = op.length :=
    Nat.le_antisymm (h.longest op' n' h'.assigned h'.starts) (h'.longest op n h.assigned h.starts)
  obtain rfl : op' = op := (List.prefix_of_prefix_length_le h'.starts h.starts hlen.le).eq_of_length hlen
  have hn := (precedence?_eq_some_iff.2 h'.assigned).symm.trans (precedence?_eq_some_iff.2 h.assigned)
  exact ⟨rfl, Option.some.inj hn⟩

/-- The operators in front of the one that is found fail the test, and those behind it are not longer. -/
theorem length_le_of_find? {test : Text → Bool} {op' : Text} (h : table.operators.find? test = some op)
    (hop' : op' ∈ table.operators) (htest : test op' = true) : op'.length ≤ op.length := by
  obtain ⟨-, front, back, heq, hfront⟩ := List.find?_eq_some_iff_append.1 h
  have hpairwise := table.pairwise_operators
  rw [heq] at hop' hpairwise
  rcases List.mem_append.1 hop' with hop' | hop'
  · have hfailed := hfront op' hop'
    simp [htest] at hfailed
  · rcases List.mem_cons.1 hop' with rfl | hop'
    · exact Nat.le_refl _
    · have hbefore := (List.pairwise_cons.1 (List.pairwise_append.1 hpairwise).2.1).1 op' hop'
      exact hbefore.length_le

theorem find?_startsWith {c : Cursor} (hc : c.InSource) (h : table.operators.find? c.startsWith = some op)
    (hn : table.Assigns op n) : table.LongestNext c.rest op n where
  assigned := hn
  starts := (startsWith_eq_true_iff hc).1 (List.find?_some h)
  longest _ n' hn' hstarts :=
    length_le_of_find? h (mem_operators.2 ⟨n', hn'⟩) ((startsWith_eq_true_iff hc).2 hstarts)

/-- As soon as an operator comes next, one of them is the longest. -/
theorem exists_longestNext (t : Text) :
    (∃ op n, table.LongestNext t op n) ↔ ∃ op n, table.Assigns op n ∧ op <+: t := by
  refine ⟨fun ⟨op, n, h⟩ => ⟨op, n, h.assigned, h.starts⟩, fun ⟨op, n, hn, hop⟩ => ?_⟩
  have hc : ({ source := t } : Cursor).InSource := ⟨Int.le_refl 0, Int.natCast_nonneg _⟩
  have hfound : (table.operators.find? ({ source := t } : Cursor).startsWith).isSome :=
    List.find?_isSome.2 ⟨op, mem_operators.2 ⟨n, hn⟩, (startsWith_eq_true_iff hc).2 hop⟩
  obtain ⟨longest, hfound⟩ := Option.isSome_iff_exists.1 hfound
  obtain ⟨n', hn'⟩ := mem_operators.1 (List.mem_of_find?_eq_some hfound)
  exact ⟨longest, n', find?_startsWith hc hfound hn'⟩

/-! ## The parser of a table -/

/-- Tables that assign the same precedences make the same parser. -/
theorem operatorPrecedence_congr {σ : Type} (h : ∀ op n, table'.Assigns op n ↔ table.Assigns op n) (exact : Bool) :
    (Parser.operatorPrecedence table' exact : Except Fault (Parser σ)) = Parser.operatorPrecedence table exact := by
  have hoperators : table'.operators = table.operators :=
    eq_operators table'.pairwise_operators fun op => mem_operators.trans (exists_congr fun n => h op n)
  have hprecedence : table'.precedence? = table.precedence? := by
    funext op
    exact Option.ext fun n => by rw [precedence?_eq_some_iff, precedence?_eq_some_iff, h]
  have hempty : table'.any (·.1.isEmpty) = table.any (·.1.isEmpty) := by
    rw [Bool.eq_iff_iff, isEmpty_mem_operators, isEmpty_mem_operators, hoperators]
  simp only [Parser.operatorPrecedence, hoperators, hprecedence, hempty]

/-- The parser runs on the first operator that passes its test. -/
theorem operatorPrecedence_runs {σ : Type} (hne : ∀ entry ∈ table, entry.1 ≠ []) (exact : Bool) :
    ∃ p : Parser σ, Parser.operatorPrecedence table exact = .ok p ∧ ∀ (c : Cursor) (s : σ),
      let test op := if exact then c.rest == op else c.startsWith op
      (∀ op n, table.operators.find? test = some op → table.Assigns op n →
        (p.run c).run s = .ok (.success (.int n) (c.advance op.length)) s) ∧
      (table.operators.find? test = none →
        (p.run c).run s = .ok (.fail c Wording.expectedOperator table.operators) s) := by
  have hempty : table.any (·.1.isEmpty) = false := by simpa using hne
  refine ⟨_, if_neg (by simp [hempty]), fun c s => ?_⟩
  -- Each operator of the list has a precedence, so pairing it with that leaves the search as it is.
  have hpairs : (table.operators.filterMap fun op => (table.precedence? op).map (op, ·)) =
      table.operators.map fun op => (op, (table.precedence? op).getD 0) := by
    rw [← List.filterMap_eq_map]
    refine List.filterMap_congr fun op hop => ?_
    obtain ⟨n, hn⟩ := mem_operators.1 hop
    simp [precedence?_eq_some_iff.2 hn]
  have hentries (test : Text → Bool) : List.find? (fun entry : Text × Int => test entry.1)
      (table.operators.filterMap fun op => (table.precedence? op).map (op, ·)) =
        (table.operators.find? test).map fun op => (op, (table.precedence? op).getD 0) := by
    rw [hpairs, List.find?_map]
    rfl
  have hrun := hentries fun op => if exact then c.rest == op else c.startsWith op
  refine ⟨fun op n hfind hn => ?_, fun hfind => ?_⟩
  · rw [hfind, Option.map_some, precedence?_eq_some_iff.2 hn] at hrun
    simp only [Parser.ofOutcome]
    rw [hrun]
    rfl
  · rw [hfind] at hrun
    simp only [Parser.ofOutcome]
    rw [hrun]
    rfl

/-! ## The result -/

/-- The parser of a table matches exactly where one of its operators comes next, and takes the longest one; if
nothing may follow, it matches exactly where an operator is all that remains. Elsewhere it fails and stays, and
lists the operators in an order in which the entries of the table have no part. -/
theorem longest_operator_wins {σ : Type} (hne : ∀ entry ∈ table, entry.1 ≠ []) :
    (∃ operators : List Text, operators.Pairwise TriedBefore ∧ (∀ op, op ∈ operators ↔ ∃ n, table.Assigns op n) ∧
      (∃ p : Parser σ, Parser.operatorPrecedence table false = .ok p ∧ ∀ (c : Cursor) (s : σ), c.InSource →
        ((∃ op n, table.LongestNext c.rest op n) ↔ ∃ op n, table.Assigns op n ∧ op <+: c.rest) ∧
        (∀ op n, table.LongestNext c.rest op n →
          (p.run c).run s = .ok (.success (.int n) { c with pos := c.pos + op.length }) s) ∧
        ((∀ op n, table.Assigns op n → ¬op <+: c.rest) →
          (p.run c).run s = .ok (.fail c Wording.expectedOperator operators) s)) ∧
      (∃ p : Parser σ, Parser.operatorPrecedence table true = .ok p ∧ ∀ (c : Cursor) (s : σ), c.InSource →
        (∀ n, table.Assigns c.rest n →
          (p.run c).run s = .ok (.success (.int n) { c with pos := c.source.length }) s) ∧
        ((∀ n, ¬table.Assigns c.rest n) →
          (p.run c).run s = .ok (.fail c Wording.expectedOperator operators) s))) ∧
    (∀ (table' : PrecedenceTable) (exact : Bool), (∀ op n, table'.Assigns op n ↔ table.Assigns op n) ∨
        (table.map (·.1)).Nodup ∧ table'.Perm table →
      (Parser.operatorPrecedence table' exact : Except Fault (Parser σ)) =
        Parser.operatorPrecedence table exact) := by
  refine ⟨⟨table.operators, table.pairwise_operators, fun op => mem_operators, ?prefixed, ?whole⟩, ?order⟩
  case prefixed =>
    obtain ⟨p, hp, hruns⟩ := operatorPrecedence_runs (σ := σ) hne false
    refine ⟨p, hp, fun c s hc => ⟨exists_longestNext c.rest, fun op n hop => ?_, fun hnone => ?_⟩⟩
    · obtain ⟨hsome, -⟩ := hruns c s
      have hfound : (table.operators.find? c.startsWith).isSome :=
        List.find?_isSome.2 ⟨op, mem_operators.2 ⟨n, hop.assigned⟩, (startsWith_eq_true_iff hc).2 hop.starts⟩
      obtain ⟨op', hfound⟩ := Option.isSome_iff_exists.1 hfound
      obtain ⟨n', hn'⟩ := mem_operators.1 (List.mem_of_find?_eq_some hfound)
      obtain ⟨rfl, rfl⟩ := hop.unique (find?_startsWith hc hfound hn')
      rw [hsome op' n' hfound hn', ← pos_advance hc hop.starts.length_le]
      rfl
    · refine (hruns c s).2 (List.find?_eq_none.2 fun op hop htest => ?_)
      obtain ⟨n, hn⟩ := mem_operators.1 hop
      exact hnone op n hn ((startsWith_eq_true_iff hc).1 htest)
  case whole =>
    obtain ⟨p, hp, hruns⟩ := operatorPrecedence_runs (σ := σ) hne true
    refine ⟨p, hp, fun c s hc => ⟨fun n hn => ?_, fun hnone => ?_⟩⟩
    · obtain ⟨hsome, -⟩ := hruns c s
      have hfound : (table.operators.find? (c.rest == ·)).isSome :=
        List.find?_isSome.2 ⟨c.rest, mem_operators.2 ⟨n, hn⟩, beq_self_eq_true c.rest⟩
      obtain ⟨op, hfound⟩ := Option.isSome_iff_exists.1 hfound
      obtain rfl : c.rest = op := eq_of_beq (List.find?_some hfound)
      have hend : c.pos + c.rest.length = c.source.length := by
        rw [length_rest hc.1, remaining]
        have hle := hc.2
        omega
      rw [hsome c.rest n hfound hn, ← hend, ← pos_advance hc (Nat.le_refl _)]
      rfl
    · refine (hruns c s).2 (List.find?_eq_none.2 fun op hop htest => ?_)
      obtain ⟨n, hn⟩ := mem_operators.1 hop
      exact hnone n (eq_of_beq htest ▸ hn)
  case order =>
    intro table' exact hsame
    refine operatorPrecedence_congr (fun op n => ?_) exact
    rcases hsame with hsame | ⟨hnodup, hperm⟩
    · exact hsame op n
    · have hnodup' : (table'.map (·.1)).Nodup := (hperm.map (·.1)).nodup_iff.2 hnodup
      rw [assigns_iff_mem hnodup, assigns_iff_mem hnodup', hperm.mem_iff]

/-- Behind the `x`, `**` wins over `*`, whichever of them stands first in the table. -/
theorem longest_operator_wins_over_its_beginning :
    let table : PrecedenceTable := [("*", 3), ("**", 4), ("<=", 0)]
    let c : Cursor := { source := "x**2", pos := 1 }
    (∀ entry ∈ table, entry.1 ≠ []) ∧ c.InSource ∧ table.LongestNext c.rest "**" 4 ∧
      ∃ p : Parser Unit, Parser.operatorPrecedence table false = .ok p ∧
        Parser.operatorPrecedence table.reverse false = .ok p ∧
        (p.run c).run () = .ok (.success (.int 4) { c with pos := 3 }) () := by
  intro table c
  have hne : ∀ entry ∈ table, entry.1 ≠ [] := by decide
  have hc : c.InSource := ⟨by decide, by decide⟩
  have hlongest : table.LongestNext c.rest "**" 4 :=
    find?_startsWith hc (by decide) (precedence?_eq_some_iff.1 (by decide))
  obtain ⟨⟨_, -, -, ⟨p, hp, hruns⟩, -⟩, horder⟩ := longest_operator_wins (σ := Unit) hne
  have hreverse := horder table.reverse false (Or.inr ⟨by decide, List.reverse_perm table⟩)
  exact ⟨hne, hc, hlongest, p, hp, hreverse.trans hp, (hruns c () hc).2.1 _ _ hlongest⟩

end PrecedenceTable
end ParserAlgebra
