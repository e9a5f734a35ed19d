import ParserAlgebra.Calculator
import ParserAlgebra.Precedence

/-!
# Precedence climbing

An expression without parentheses is a sum of terms, both taken together from the left: it has one such tree.
Climbing the precedences never builds the tree, but ends with its value, or with its fault if there is one.
-/

namespace ParserAlgebra.Calculator

/-! ## Tokens of an expression -/

def Operator.symbol : Operator → Text
  | add => "+"
  | sub => "-"
  | mul => "*"
  | div => "/"
  | rem => "%"

@[simp] theorem Operator.ofText?_symbol (op : Operator) : ofText? op.symbol = some op := by
  cases op <;> rfl

theorem Operator.one_le_precedence (op : Operator) : 1 ≤ op.precedence := by
  cases op <;> decide

theorem Operator.precedence_le_two (op : Operator) : op.precedence ≤ 2 := by
  cases op <;> decide

theorem Operator.apply_error {op : Operator} {x y : Float} {fault : Fault} (h : op.apply x y = .error fault) :
    fault = .divisionByZero := by
  cases op with
  | add | sub | mul => cases h
  | div | rem =>
      rw [apply] at h
      split at h
      · cases h
        rfl
      · cases h

theorem Operator.eq_symbol {t : Text} {op : Operator} (h : ofText? t = some op) : t = op.symbol := by
  simp only [ofText?] at h
  repeat' split at h
  all_goals
    cases h
  all_goals assumption

theorem Operator.symbol_inj {op op' : Operator} : op.symbol = op'.symbol ↔ op = op' := by
  refine ⟨fun h => ?_, congrArg symbol⟩
  have hop := congrArg ofText? h
  simpa using hop

def Operator.table : PrecedenceTable :=
  [add, sub, mul, div, rem].map fun op => (op.symbol, op.precedence)

/-- The parser for the table of the operators finds the precedence of an operator, and fails on what is none. -/
theorem operatorPrecedence_table (σ : Type) : ∃ p : Parser σ, Parser.operatorPrecedence Operator.table true = .ok p ∧
    ∀ (t : Text) (s : σ), (p.run { source := t }).run s = .ok (match Operator.ofText? t with
      | some op => .success (.int op.precedence) { source := t, pos := t.length }
      | none => .fail { source := t } Wording.expectedOperator Operator.table.operators) s := by
  refine ⟨_, rfl, fun t s => ?_⟩
  cases h : Operator.ofText? t with
  | some op =>
      rw [Operator.eq_symbol h]
      cases op <;> rfl
  | none =>
      refine congrArg (EStateM.Result.ok · s) ?_
      dsimp only
      split
      · rename_i op n hfind
        have hsymbol : ∀ op ∈ Operator.table.operators, Operator.ofText? op ≠ none := by decide
        obtain ⟨symbol, hmem, hop⟩ := List.mem_filterMap.1 (List.mem_of_find?_eq_some hfind)
        obtain ⟨_, -, hentry⟩ := Option.map_eq_some_iff.1 hop
        cases hentry
        have hrest := List.find?_some hfind
        have hop : t = op := eq_of_beq hrest
        rw [hop] at h
        exact absurd h (hsymbol op hmem)
      · rfl

def Token.ofNumber : Number → Token
  | .int n => .int n
  | .float x => .float x

theorem Token.ofNumber_inj {x y : Number} : Token.ofNumber x = Token.ofNumber y ↔ x = y := by
  cases x <;> cases y <;> simp [Token.ofNumber]

theorem Token.ofText_of_digit {t : Text} (h : t.head?.any Unicode.isDecimal = true) :
    Token.ofText t = Token.ofNumber <$> Number.read t := by
  cases t with
  | nil => cases h
  | cons ch t =>
      have hch : Unicode.isDecimal ch = true := h
      rw [Token.ofText, List.head?_cons]
      dsimp only
      rw [if_pos hch]
      cases Number.read (ch :: t) with
      | error fault => rfl
      | ok x => cases x <;> rfl

theorem Token.ofText_of_no_digit {t : Text} (hne : t ≠ []) (h : t.head?.any Unicode.isDecimal = false) :
    Token.ofText t = .ok (.text t) := by
  cases t with
  | nil => exact absurd rfl hne
  | cons ch t => exact if_neg (by simpa using h)

@[simp] theorem Token.operator_symbol (op : Operator) : (Token.text op.symbol).operator = .ok op := by
  simp [Token.operator]

/-- The tokens of an operand, and of operators that each have an operand behind them. -/
def alternating (x : Number) : (steps : List (Operator × Number)) → List Token
  | [] => [.ofNumber x]
  | (op, y) :: steps => .ofNumber x :: .text op.symbol :: alternating y steps

theorem alternating_append (x y : Number) (op : Operator) (steps steps' : List (Operator × Number)) :
    alternating x (steps ++ (op, y) :: steps') = alternating x steps ++ .text op.symbol :: alternating y steps' := by
  induction steps generalizing x with
  | nil => rfl
  | cons step steps ih => simp [alternating, ih]

theorem alternating_inj {x x' : Number} {steps steps' : List (Operator × Number)}
    (h : alternating x steps = alternating x' steps') : x = x' ∧ steps = steps' := by
  induction steps generalizing x x' steps' with
  | nil =>
      cases steps' with
      | nil => simpa [alternating, Token.ofNumber_inj] using h
      | cons step' steps' => simp [alternating] at h
  | cons step steps ih =>
      cases steps' with
      | nil => simp [alternating] at h
      | cons step' steps' =>
          obtain ⟨op, y⟩ := step
          obtain ⟨op', y'⟩ := step'
          simp only [alternating, List.cons.injEq, Token.ofNumber_inj, Token.text.injEq, Operator.symbol_inj] at h
          obtain ⟨rfl, rfl, h⟩ := h
          obtain ⟨rfl, rfl⟩ := ih h
          exact ⟨rfl, rfl⟩

/-! ## Trees -/

inductive Tree where
  | leaf (x : Number)
  | node (op : Operator) (left right : Tree)

namespace Tree

/-- The value of a tree, with the operands of an operator evaluated from left to right. A remainder has the sign of
the divisor. -/
def value : Tree → Except Fault Float
  | leaf (.int n) => Number.ofInt n
  | leaf (.float x) => .ok x
  | node op left right => do
    let x ← left.value
    let y ← right.value
    match op with
    | .add => .ok (x + y)
    | .sub => .ok (x - y)
    | .mul => .ok (x * y)
    | .div => if y == 0 then .error .divisionByZero else .ok (x / y)
    | .rem => if y == 0 then .error .divisionByZero else .ok (Number.flooredRemainder x y)

theorem value_leaf (x : Number) : (leaf x).value = (Token.ofNumber x).toFloat := by
  cases x <;> rfl

theorem value_node (op : Operator) (left right : Tree) :
    (node op left right).value = left.value >>= fun x => right.value >>= fun y => op.apply x y := by
  cases op <;> rfl

def tokens : Tree → List Token
  | leaf x => [.ofNumber x]
  | node op left right => left.tokens ++ .text op.symbol :: right.tokens

/-- An operand, or a term that is multiplied or divided by an operand. -/
inductive IsTerm : Tree → Prop
  | operand (x : Number) : IsTerm (leaf x)
  | node {op : Operator} {left : Tree} (x : Number) : op = .mul ∨ op = .div ∨ op = .rem → IsTerm left →
      IsTerm (node op left (leaf x))

/-- A term, or a sum that a term is added to or taken from. -/
inductive IsSum : Tree → Prop
  | term {t : Tree} : t.IsTerm → IsSum t
  | node {op : Operator} {left right : Tree} : op = .add ∨ op = .sub → IsSum left → right.IsTerm →
      IsSum (node op left right)

/-- The outermost operator, if there is one, has at least the precedence `n`. -/
def AtLeast (n : Nat) : Tree → Prop
  | leaf _ => True
  | node op _ _ => n ≤ op.precedence

/-- On the left of each operator stand operators that bind at least as tight, on its right those that bind
tighter. -/
def Standard : Tree → Prop
  | leaf _ => True
  | node op left right =>
    left.Standard ∧ right.Standard ∧ left.AtLeast op.precedence ∧ right.AtLeast (op.precedence + 1)

theorem AtLeast.mono {m n : Nat} {t : Tree} (h : t.AtLeast n) (hmn : m ≤ n) : t.AtLeast m := by
  cases t with
  | leaf x => trivial
  | node op left right => exact Nat.le_trans hmn h

theorem atLeast_one (t : Tree) : t.AtLeast 1 := by
  cases t with
  | leaf x => trivial
  | node op left right => exact op.one_le_precedence

theorem IsTerm.standard {t : Tree} (h : t.IsTerm) : t.Standard ∧ t.AtLeast 2 := by
  induction h with
  | operand x => exact ⟨trivial, trivial⟩
  | node x hop _ ih =>
      obtain ⟨hleft, hl⟩ := ih
      rcases hop with rfl | rfl | rfl <;> exact ⟨⟨hleft, trivial, hl, trivial⟩, Nat.le_refl 2⟩

theorem isTerm_of_standard {t : Tree} (h : t.Standard) (h2 : t.AtLeast 2) : t.IsTerm := by
  induction t with
  | leaf x => exact .operand x
  | node op left right ih _ =>
      obtain ⟨hleft, -, hl, hr⟩ := h
      have htight : 2 ≤ op.precedence := h2
      have hop : op = .mul ∨ op = .div ∨ op = .rem := by
        cases op with
        | add | sub => exact absurd htight (by decide)
        | mul | div | rem => simp
      have hterm : left.IsTerm := ih hleft (hl.mono h2)
      -- No operator binds tighter, so none stands on the right.
      cases right with
      | leaf x => exact .node x hop hterm
      | node o _ _ =>
          have htighter : op.precedence + 1 ≤ o.precedence := hr
          have hle := o.precedence_le_two
          omega

/-- The standard trees are the sums of terms. -/
theorem isSum_iff_standard {t : Tree} : t.IsSum ↔ t.Standard := by
  constructor
  · intro h
    induction h with
    | term h => exact h.standard.1
    | @node op left _ hop _ hright ih =>
        have hl := left.atLeast_one
        rcases hop with rfl | rfl <;> exact ⟨ih, hright.standard.1, hl, hright.standard.2⟩
  · intro h
    induction t with
    | leaf x => exact .term (.operand x)
    | node op left right ih _ =>
        have hleft := ih h.1
        cases op with
        | mul | div | rem => exact .term (isTerm_of_standard h (Nat.le_refl 2))
        | add | sub => exact .node (by simp) hleft (isTerm_of_standard h.2.1 h.2.2.2)

/-! ## There is a standard tree -/

/-- The tree with an operator and an operand more at its right end: they take in as much of the tree as binds
at least as tight. -/
def append (op : Operator) (y : Number) : Tree → Tree
  | leaf x => node op (leaf x) (leaf y)
  | node o left right =>
    if op.precedence ≤ o.precedence then node op (node o left right) (leaf y)
    else node o left (right.append op y)

def build (t : Tree) (steps : List (Operator × Number)) : Tree :=
  steps.foldl (fun t step => t.append step.1 step.2) t

variable {t : Tree} {op : Operator} {n : Nat}

@[simp] theorem tokens_append (t : Tree) (op : Operator) (y : Number) :
    (t.append op y).tokens = t.tokens ++ [.text op.symbol, .ofNumber y] := by
  induction t with
  | leaf x => rfl
  | node o left right _ ih =>
      rw [append]
      split
      · rfl
      · simp [tokens, ih]

theorem tokens_build {x : Number} {ts : List Token} (h : t.tokens = ts ++ [.ofNumber x])
    (steps : List (Operator × Number)) : (t.build steps).tokens = ts ++ alternating x steps := by
  induction steps generalizing t x ts with
  | nil => exact h
  | cons step steps ih =>
      have happend : (t.append step.1 step.2).tokens =
          (ts ++ [.ofNumber x, .text step.1.symbol]) ++ [.ofNumber step.2] := by
        simp [h]
      rw [build, List.foldl_cons, ← build, ih happend]
      simp [alternating]

theorem AtLeast.append (h : t.AtLeast n) (hn : n ≤ op.precedence) (y : Number) : (t.append op y).AtLeast n := by
  cases t with
  | leaf x => exact hn
  | node o left right =>
      rw [Tree.append]
      split
      · exact hn
      · exact h

theorem Standard.append (h : t.Standard) (op : Operator) (y : Number) : (t.append op y).Standard := by
  induction t with
  | leaf x => simp [Tree.append, Standard, AtLeast]
  | node o left right _ ih =>
      rw [Tree.append]
      split
      · rename_i hle
        exact ⟨h, trivial, hle, trivial⟩
      · rename_i hlt
        obtain ⟨hleft, hright, hl, hr⟩ := h
        exact ⟨hleft, ih hright, hl, hr.append (by omega) y⟩

theorem Standard.build (h : t.Standard) (steps : List (Operator × Number)) : (t.build steps).Standard := by
  induction steps generalizing t with
  | nil => exact h
  | cons step steps ih => exact ih (h.append step.1 step.2)

/-! ## There is no other -/

def first : Tree → Number
  | leaf x => x
  | node _ left _ => left.first

/-- The operators from left to right, each with the operand behind it. -/
def steps : Tree → List (Operator × Number)
  | leaf _ => []
  | node op left right => left.steps ++ (op, right.first) :: right.steps

theorem tokens_eq (t : Tree) : t.tokens = alternating t.first t.steps := by
  induction t with
  | leaf x => rfl
  | node op left right hleft hright =>
      rw [tokens, hleft, hright, steps, first, alternating_append]

theorem Standard.precedence_le (h : t.Standard) (hn : t.AtLeast n) : ∀ step ∈ t.steps, n ≤ step.1.precedence := by
  induction t generalizing n with
  | leaf x => simp [steps]
  | node op left right hleft hright =>
      obtain ⟨hl, hr, hlop, hrop⟩ := h
      intro step hstep
      rcases List.mem_append.1 hstep with hstep | hstep
      · exact hleft hl (hlop.mono hn) step hstep
      rcases List.mem_cons.1 hstep with rfl | hstep
      · exact hn
      · exact hright hr (hrop.mono (Nat.le_succ_of_le hn)) step hstep

theorem append_of_atLeast (h : t.AtLeast op.precedence) (y : Number) : t.append op y = node op t (leaf y) := by
  cases t with
  | leaf x => rfl
  | node o left right => exact if_pos h

theorem build_node {left right : Tree} {steps : List (Operator × Number)}
    (h : ∀ step ∈ steps, op.precedence < step.1.precedence) :
    (node op left right).build steps = node op left (right.build steps) := by
  induction steps generalizing right with
  | nil => rfl
  | cons step steps ih =>
      obtain ⟨hstep, hsteps⟩ := List.forall_mem_cons.1 h
      have happend : (node op left right).append step.1 step.2 = node op left (right.append step.1 step.2) :=
        if_neg (by omega)
      simp only [build, List.foldl_cons, happend]
      exact ih hsteps

/-- A standard tree is built from its operands and operators, one after another. -/
theorem Standard.build_steps (h : t.Standard) : (leaf t.first).build t.steps = t := by
  induction t with
  | leaf x => rfl
  | node op left right hleft hright =>
      obtain ⟨hl, hr, hlop, hrop⟩ := h
      calc (leaf left.first).build (left.steps ++ (op, right.first) :: right.steps)
        _ = (((leaf left.first).build left.steps).append op right.first).build right.steps := by simp [Tree.build]
        _ = (node op left (leaf right.first)).build right.steps := by rw [hleft hl, append_of_atLeast hlop]
        _ = node op left ((leaf right.first).build right.steps) := build_node (hr.precedence_le hrop)
        _ = node op left right := by rw [hright hr]

theorem Standard.unique {t' : Tree} (h : t.Standard) (h' : t'.Standard) (htokens : t'.tokens = t.tokens) : t' = t := by
  rw [tokens_eq, tokens_eq] at htokens
  obtain ⟨hfirst, hsteps⟩ := alternating_inj htokens
  rw [← h.build_steps, ← h'.build_steps, hfirst, hsteps]

/-! ## Faults -/

theorem bind_eq_error {ε α β : Type} {x : Except ε α} {f : α → Except ε β} {e : ε} (h : x >>= f = .error e) :
    x = .error e ∨ ∃ a, x = .ok a ∧ f a = .error e := by
  cases x with
  | error e' =>
      cases h
      exact Or.inl rfl
  | ok a => exact Or.inr ⟨a, rfl, h⟩

theorem value_error {fault : Fault} (h : t.value = .error fault) : fault = .tooLarge ∨ fault = .divisionByZero := by
  induction t with
  | leaf x =>
      cases x with
      | int n =>
          rw [value, Number.ofInt] at h
          split at h
          · cases h
            exact Or.inl rfl
          · cases h
      | float x => cases h
  | node op left right hleft hright =>
      rw [value_node] at h
      rcases bind_eq_error h with hl | ⟨x, -, h⟩
      · exact hleft hl
      rcases bind_eq_error h with hr | ⟨y, -, h⟩
      · exact hright hr
      exact Or.inr (op.apply_error h)

end Tree

/-! ## Climbing -/

/-- No token follows, or an operator that binds less tight than `n`. -/
def Follows (n : Nat) (ts : List Token) : Prop :=
  ∀ t ∈ ts.head?, ∃ op : Operator, t = .text op.symbol ∧ op.precedence < n

theorem Follows.mono {m n : Nat} {ts : List Token} (h : Follows m ts) (hmn : m ≤ n) : Follows n ts := by
  intro t ht
  obtain ⟨op, hop, hlt⟩ := h t ht
  exact ⟨op, hop, Nat.lt_of_lt_of_le hlt hmn⟩

/-- What follows the tree binds no tighter than its outermost operator. -/
def Tree.EndsBefore : Tree → List Token → Prop
  | .leaf _, _ => True
  | .node op _ _, ts => Follows (op.precedence + 1) ts

theorem Tree.endsBefore_nil (t : Tree) : t.EndsBefore [] := by
  cases t with
  | leaf x => trivial
  | node op left right => exact nofun

variable {least fuel : Nat} {x : Float} {ts : List Token}

theorem extend_operator {op : Operator} (h : least ≤ op.precedence) :
    extend (fuel + 1) least x (.text op.symbol :: ts) = (do
      let (y, ts) ← climb fuel (op.precedence + 1) ts
      let z ← op.apply x y
      extend fuel least z ts) := by
  rw [extend, Token.operator_symbol]
  change (if op.precedence < least then _ else _) = _
  rw [if_neg (by omega)]

theorem extend_nil : extend fuel least x [] = .ok (x, []) := by
  cases fuel <;> rw [extend]

theorem extend_stop (hfuel : 0 < fuel) (h : Follows least ts) : extend fuel least x ts = .ok (x, ts) := by
  obtain ⟨fuel, rfl⟩ := Nat.exists_eq_succ_of_ne_zero (Nat.ne_of_gt hfuel)
  cases ts with
  | nil => exact extend_nil
  | cons t ts =>
      obtain ⟨op, rfl, hop⟩ := h t rfl
      rw [extend, Token.operator_symbol]
      exact if_pos hop

/-- Climbing over the tokens of a standard tree takes its value for the left operand of what follows. -/
theorem climb_tokens {t : Tree} (ht : t.Standard) (hleast : t.AtLeast least) {rest : List Token}
    (hrest : t.EndsBefore rest) (hfuel : 2 * t.tokens.length ≤ fuel) :
    ∃ k, fuel ≤ k + t.tokens.length ∧
      climb fuel least (t.tokens ++ rest) = t.value >>= fun x => extend k least x rest := by
  -- A tree of `n` tokens is left with `fuel - n` steps: enough to see what follows, whatever tree it is a part of.
  induction t generalizing fuel least rest with
  | leaf y =>
      obtain ⟨k, rfl⟩ : ∃ k, fuel = k + 1 := Nat.exists_eq_succ_of_ne_zero (by simp [Tree.tokens] at hfuel; omega)
      refine ⟨k, Nat.le_refl _, ?_⟩
      rw [climb, Tree.tokens, Tree.value_leaf, List.singleton_append, operand, bind_assoc]
      rfl
  | node op left right hleft hright =>
      obtain ⟨hl, hr, hlop, hrop⟩ := ht
      simp only [Tree.tokens, List.length_append, List.length_cons] at hfuel ⊢
      -- The operators of the left operand bind at least as tight as `op`, so it ends there.
      have hends : left.EndsBefore (.text op.symbol :: (right.tokens ++ rest)) := by
        cases left with
        | leaf y => trivial
        | node o _ _ =>
            intro t ht
            cases ht
            exact ⟨op, rfl, Nat.lt_succ_of_le hlop⟩
      have hfuel' : 2 * left.tokens.length ≤ fuel := by omega
      obtain ⟨k, hk, hclimb⟩ := hleft hl (hlop.mono hleast) hends hfuel'
      obtain ⟨k, rfl⟩ : ∃ k', k = k' + 1 := Nat.exists_eq_succ_of_ne_zero (by omega)
      -- Those of the right one bind tighter than `op`, and what follows does not.
      have hends' : right.EndsBefore rest := by
        cases right with
        | leaf y => trivial
        | node o _ _ => exact Follows.mono hrest (Nat.le_succ_of_le hrop)
      have hk' : 2 * right.tokens.length ≤ k := by omega
      obtain ⟨k', hk'', hclimb'⟩ := hright hr hrop hends' hk'
      have hstop : ∀ y, extend k' (op.precedence + 1) y rest = .ok (y, rest) := fun y =>
        extend_stop (by omega) hrest
      refine ⟨k, by omega, ?_⟩
      rw [List.append_assoc, List.cons_append, hclimb]
      simp only [Tree.value_node, bind_assoc, extend_operator hleast, hclimb', hstop]
      rfl

/-! ## The value of an expression -/

/-- Operands with operators between them have one tree that is a sum of terms. Evaluating them gives its value and
uses up all of them, and the only faults are those of an operand or a division in the tree. -/
theorem evaluate_standard (x : Number) (steps : List (Operator × Number)) :
    ∃ tree : Tree, tree.IsSum ∧ tree.tokens = alternating x steps ∧
      (∀ tree' : Tree, tree'.IsSum → tree'.tokens = alternating x steps → tree' = tree) ∧
      evaluate (alternating x steps) = tree.value ∧
      climb (2 * (alternating x steps).length + 1) 1 (alternating x steps) = tree.value.map (·, []) ∧
      ∀ fault, tree.value = .error fault → fault = .tooLarge ∨ fault = .divisionByZero := by
  have hstandard : ((Tree.leaf x).build steps).Standard := Tree.Standard.build (t := .leaf x) trivial steps
  have htokens : ((Tree.leaf x).build steps).tokens = alternating x steps := by
    have hleaf : (Tree.leaf x).tokens = [] ++ [.ofNumber x] := rfl
    exact Tree.tokens_build hleaf steps
  generalize (Tree.leaf x).build steps = tree at hstandard htokens
  have hclimb : climb (2 * (alternating x steps).length + 1) 1 (alternating x steps) = tree.value.map (·, []) := by
    rw [← htokens]
    have hfuel : 2 * tree.tokens.length ≤ 2 * tree.tokens.length + 1 := by omega
    obtain ⟨k, -, hclimb⟩ := climb_tokens hstandard tree.atLeast_one tree.endsBefore_nil hfuel
    rw [List.append_nil] at hclimb
    rw [hclimb]
    cases tree.value with
    | error fault => rfl
    | ok x => exact extend_nil
  refine ⟨tree, Tree.isSum_iff_standard.2 hstandard, htokens, ?_, ?_, hclimb, fun fault => Tree.value_error⟩
  · intro tree' h' htokens'
    exact hstandard.unique (Tree.isSum_iff_standard.1 h') (htokens'.trans htokens.symm)
  · rw [evaluate, hclimb]
    cases tree.value <;> rfl

/-- In `1 - 2 - 3 * 4 % 5`, the operators on the left come first, and those of the term before its subtraction. -/
theorem evaluate_standard_mixed :
    let tree : Tree := .node .sub (.node .sub (.leaf (.int 1)) (.leaf (.int 2)))
      (.node .rem (.node .mul (.leaf (.int 3)) (.leaf (.int 4))) (.leaf (.int 5)))
    let tokens : List Token :=
      [.int 1, .text "-", .int 2, .text "-", .int 3, .text "*", .int 4, .text "%", .int 5]
    tree.IsSum ∧ tree.tokens = tokens ∧ evaluate tokens = tree.value ∧
      climb 19 1 tokens = tree.value.map (·, []) := by
  intro tree tokens
  have hterm : (Tree.node .rem (.node .mul (.leaf (.int 3)) (.leaf (.int 4))) (.leaf (.int 5))).IsTerm :=
    .node _ (by simp) (.node _ (by simp) (.operand _))
  have htree : tree.IsSum :=
    .node (by simp) (.node (by simp) (.term (.operand _)) (.operand _)) hterm
  obtain ⟨_, -, -, hunique, hvalue, hclimb, -⟩ :=
    evaluate_standard (.int 1) [(.sub, .int 2), (.sub, .int 3), (.mul, .int 4), (.rem, .int 5)]
  rw [← hunique tree htree rfl] at hvalue hclimb
  exact ⟨htree, rfl, hvalue, hclimb⟩

end ParserAlgebra.Calculator
