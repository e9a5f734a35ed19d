import ParserAlgebra.Parser.Basic

/-!
# Statements about runs

`Returns` says what holds of the result, and whether there may be none, so one lemma speaks of runs that return
something right if they return, and of runs that do return. `Agrees` compares two runs.
-/

namespace ParserAlgebra

/-- The test never gives up. -/
def Test.Answers {α : Type} (test : Test α) : Prop :=
  ∀ a, ∃ b, test a = .ok b

theorem Test.answers_total {α : Type} (f : α → Bool) : (Test.total f).Answers :=
  fun a => ⟨f a, rfl⟩

theorem Test.Answers.not {α : Type} {test : Test α} (h : test.Answers) : test.not.Answers := by
  intro a
  obtain ⟨b, hb⟩ := h a
  exact ⟨!b, by rw [Test.not, hb]; rfl⟩

namespace Parse

variable {σ τ α β α' β' : Type} {F : Prop}

/-! ## What a run returns -/

/-- What the run returns has the property, and only if `F` holds, it may end with a fault instead. -/
def Returns (F : Prop) (m : Parse σ α) (Q : α → Prop) : Prop :=
  ∀ s, match m.run s with
    | .ok a _ => Q a
    | .error _ _ => F

theorem returns_pure {Q : α → Prop} {a : α} (h : Q a) : Returns F (pure a : Parse σ α) Q :=
  fun _ => h

theorem returns_throw (Q : α → Prop) (fault : Fault) (h : F) :
    Returns F (throw fault : Parse σ α) Q :=
  fun _ => h

theorem returns_lift {Q : α → Prop} {x : Except Fault α} (h : ∀ a, x = .ok a → Q a)
    (hF : ∀ fault, x = .error fault → F) : Returns F (liftM x : Parse σ α) Q := by
  cases x with
  | ok a => exact returns_pure (h a rfl)
  | error fault => exact returns_throw Q fault (hF fault rfl)

theorem returns_lift_ok {Q : α → Prop} {x : Except Fault α} {a : α} (hx : x = .ok a) (h : Q a) :
    Returns F (liftM x : Parse σ α) Q := by
  subst hx
  exact returns_pure h

theorem returns_test {test : Test α} (h : F ∨ test.Answers) (a : α) :
    Returns F (liftM (test a) : Parse σ Bool) fun _ => True := by
  rcases h with hF | h
  · exact returns_lift (fun _ _ => trivial) fun _ _ => hF
  · obtain ⟨b, hb⟩ := h a
    exact returns_lift_ok hb trivial

theorem returns_modify (f : σ → σ) : Returns F (modify f : Parse σ PUnit) fun _ => True :=
  fun _ => trivial

theorem returns_true (m : Parse σ α) : m.Returns True fun _ => True := by
  intro s
  cases m.run s with
  | ok _ _ => trivial
  | error _ _ => trivial

theorem Returns.bind {Q : α → Prop} {R : β → Prop} {m : Parse σ α} {f : α → Parse σ β}
    (hm : m.Returns F Q) (hf : ∀ a, Q a → (f a).Returns F R) : (m >>= f).Returns F R := by
  intro s
  have h := hm s
  rw [EStateM.run_bind]
  cases hr : m.run s with
  | ok a t =>
      rw [hr] at h
      exact hf a h t
  | error fault t =>
      rw [hr] at h
      exact h

theorem Returns.mono {F' : Prop} {Q R : α → Prop} {m : Parse σ α} (h : m.Returns F Q) (hF : F → F')
    (hQ : ∀ a, Q a → R a) : m.Returns F' R := by
  intro s
  have h' := h s
  cases hr : m.run s with
  | ok a t =>
      rw [hr] at h'
      exact hQ a h'
  | error fault t =>
      rw [hr] at h'
      exact hF h'

theorem Returns.imp {Q R : α → Prop} {m : Parse σ α} (h : m.Returns F Q) (hQ : ∀ a, Q a → R a) :
    m.Returns F R :=
  h.mono id hQ

theorem Returns.and {Q R : α → Prop} {m : Parse σ α} (h : m.Returns F Q) (h' : m.Returns True R) :
    m.Returns F fun a => Q a ∧ R a := by
  intro s
  have hs := h s
  have hs' := h' s
  cases hr : m.run s with
  | ok a t =>
      rw [hr] at hs hs'
      exact ⟨hs, hs'⟩
  | error fault t =>
      rw [hr] at hs
      exact hs

theorem Returns.of_run {Q : α → Prop} {m : Parse σ α} (h : m.Returns F Q) {s s' : σ} {a : α}
    (hr : m.run s = .ok a s') : Q a := by
  have hs := h s
  rw [hr] at hs
  exact hs

theorem returns_of_run {Q : α → Prop} {m : Parse σ α} (h : ∀ s a s', m.run s = .ok a s' → Q a) :
    m.Returns True Q := by
  intro s
  cases hr : m.run s with
  | ok a t => exact h s a t hr
  | error fault t => trivial

/-- A run that may not end with a fault returns something. -/
theorem Returns.ends {Q : α → Prop} {m : Parse σ α} (h : m.Returns False Q) (s : σ) :
    ∃ a s', m.run s = .ok a s' ∧ Q a := by
  have hs := h s
  cases hr : m.run s with
  | ok a t =>
      rw [hr] at hs
      exact ⟨a, t, rfl, hs⟩
  | error fault t =>
      rw [hr] at hs
      exact hs.elim

theorem returns_of_ends {Q : α → Prop} {m : Parse σ α} (h : ∀ s, ∃ a s', m.run s = .ok a s' ∧ Q a) :
    m.Returns F Q := by
  intro s
  obtain ⟨a, t, hr, ha⟩ := h s
  rw [hr]
  exact ha

/-! ## Runs whose result does not depend on the state -/

/-- From every state, the run ends with the value. -/
def Gives (m : Parse σ α) (a : α) : Prop :=
  ∀ s, ∃ s', m.run s = .ok a s'

theorem gives_pure (a : α) : (pure a : Parse σ α).Gives a :=
  fun s => ⟨s, rfl⟩

theorem gives_lift {x : Except Fault α} {a : α} (h : x = .ok a) : (liftM x : Parse σ α).Gives a := by
  subst h
  exact gives_pure a

theorem Gives.bind {m : Parse σ α} {f : α → Parse σ β} {a : α} {b : β} (hm : m.Gives a)
    (hf : (f a).Gives b) : (m >>= f).Gives b := by
  intro s
  obtain ⟨t, ht⟩ := hm s
  obtain ⟨u, hu⟩ := hf t
  exact ⟨u, by rw [EStateM.run_bind, ht]; exact hu⟩

theorem Gives.eq_of_run {m : Parse σ α} {a b : α} (h : m.Gives a) {s s' : σ} (hr : m.run s = .ok b s') : a = b := by
  obtain ⟨t, ht⟩ := h s
  exact (EStateM.Result.ok.inj (ht.symm.trans hr)).1

/-- The result of a run, without the state that it leaves. -/
def result (m : Parse σ α) (s : σ) : Except Fault α :=
  match m.run s with
  | .ok a _ => .ok a
  | .error fault _ => .error fault

/-- The run neither reads nor writes the state. -/
def Stateless (m : Parse σ α) : Prop :=
  ∃ x : Except Fault α, m = liftM x

theorem stateless_lift (x : Except Fault α) : (liftM x : Parse σ α).Stateless :=
  ⟨x, rfl⟩

theorem stateless_pure (a : α) : (pure a : Parse σ α).Stateless :=
  ⟨.ok a, rfl⟩

theorem Stateless.bind {m : Parse σ α} {f : α → Parse σ β} (hm : m.Stateless) (hf : ∀ a, (f a).Stateless) :
    (m >>= f).Stateless := by
  obtain ⟨x, rfl⟩ := hm
  cases x with
  | ok a => exact hf a
  | error fault => exact ⟨.error fault, rfl⟩

/-! ## Runs taken apart -/

theorem run_bind_eq_ok {m : Parse σ α} {f : α → Parse σ β} {s s' : σ} {b : β}
    (h : (m >>= f).run s = .ok b s') : ∃ a t, m.run s = .ok a t ∧ (f a).run t = .ok b s' := by
  rw [EStateM.run_bind] at h
  cases hr : m.run s with
  | ok a t =>
      rw [hr] at h
      exact ⟨a, t, rfl, h⟩
  | error fault t =>
      rw [hr] at h
      cases h

theorem run_bind_of_ok {m : Parse σ α} {s s' : σ} {a : α} (h : m.run s = .ok a s') (f : α → Parse σ β) :
    (m >>= f).run s = (f a).run s' := by
  rw [EStateM.run_bind, h]

theorem run_bind_congr {m n : Parse σ α} {s t : σ} (h : m.run s = n.run t) (f : α → Parse σ β) :
    (m >>= f).run s = (n >>= f).run t := by
  rw [EStateM.run_bind, EStateM.run_bind, h]

theorem run_lift_eq_ok {x : Except Fault α} {s s' : σ} {a : α}
    (h : (liftM x : Parse σ α).run s = .ok a s') : x = .ok a ∧ s' = s := by
  cases x with
  | ok b =>
      cases h
      exact ⟨rfl, rfl⟩
  | error fault => cases h

/-! ## Two runs -/

/-- Two results correspond: both have a value, or both have the same fault. -/
def AgreesOn (S : σ → τ → Prop) (R : α → β → Prop) :
    EStateM.Result Fault σ α → EStateM.Result Fault τ β → Prop
  | .ok a s, .ok b t => R a b ∧ S s t
  | .error fault s, .error fault' t => fault = fault' ∧ S s t
  | .ok _ _, .error _ _ | .error _ _, .ok _ _ => False

/-- From states that correspond, the two runs give results that correspond. -/
def Agrees (S : σ → τ → Prop) (R : α → β → Prop) (m : Parse σ α) (n : Parse τ β) : Prop :=
  ∀ s t, S s t → AgreesOn S R (m.run s) (n.run t)

variable {S : σ → τ → Prop} {R : α → β → Prop} {R' : α' → β' → Prop}

theorem agrees_pure {a : α} {b : β} (h : R a b) :
    Agrees S R (pure a : Parse σ α) (pure b : Parse τ β) :=
  fun _ _ hS => ⟨h, hS⟩

theorem agrees_throw (R : α → β → Prop) (fault : Fault) :
    Agrees S R (throw fault : Parse σ α) (throw fault : Parse τ β) :=
  fun _ _ hS => ⟨rfl, hS⟩

/-- Both have values that correspond, or both the same fault. -/
inductive EndsAlike (R : α → β → Prop) : Except Fault α → Except Fault β → Prop
  | ok {a : α} {b : β} : R a b → EndsAlike R (.ok a) (.ok b)
  | error (fault : Fault) : EndsAlike R (.error fault) (.error fault)

theorem agrees_lift {x : Except Fault α} {y : Except Fault β} (h : EndsAlike R x y) :
    Agrees S R (liftM x : Parse σ α) (liftM y : Parse τ β) := by
  cases h with
  | ok h => exact agrees_pure h
  | error fault => exact agrees_throw R fault

theorem Stateless.agrees {R : α → α → Prop} (hR : ∀ a, R a a) {m : Parse σ α} (hm : m.Stateless)
    {S : σ → σ → Prop} : Agrees S R m m := by
  obtain ⟨x, rfl⟩ := hm
  cases x with
  | ok a => exact agrees_pure (hR a)
  | error fault => exact agrees_throw R fault

theorem agrees_modify {f : σ → σ} {g : τ → τ} (h : ∀ s t, S s t → S (f s) (g t)) :
    Agrees S (fun _ _ => True) (modify f : Parse σ PUnit) (modify g : Parse τ PUnit) :=
  fun s t hS => ⟨trivial, h s t hS⟩

/-- Both runs return, or both end with the same fault. -/
theorem Agrees.run_cases {m : Parse σ α} {n : Parse τ β} (h : Agrees S R m n) {s : σ} {t : τ} (hst : S s t) :
    (∃ a s' b t', m.run s = .ok a s' ∧ n.run t = .ok b t' ∧ R a b ∧ S s' t') ∨
      ∃ fault s' t', m.run s = .error fault s' ∧ n.run t = .error fault t' ∧ S s' t' := by
  have hresults := h s t hst
  cases hm : m.run s with
  | ok a s' =>
      cases hn : n.run t with
      | ok b t' =>
          rw [hm, hn] at hresults
          exact Or.inl ⟨a, s', b, t', rfl, rfl, hresults⟩
      | error fault t' => rw [hm, hn] at hresults; exact hresults.elim
  | error fault s' =>
      cases hn : n.run t with
      | ok b t' => rw [hm, hn] at hresults; exact hresults.elim
      | error fault' t' =>
          rw [hm, hn] at hresults
          obtain ⟨rfl, hS⟩ := hresults
          exact Or.inr ⟨fault, s', t', rfl, rfl, hS⟩

theorem Agrees.imp {m : Parse σ α} {n : Parse τ β} {Q : α → β → Prop} (h : Agrees S R m n)
    (hQ : ∀ a b, R a b → Q a b) : Agrees S Q m n := by
  intro s t hst
  obtain ⟨a, s', b, t', hms, hnt, hR, hS⟩ | ⟨fault, s', t', hms, hnt, hS⟩ := h.run_cases hst
  · rw [hms, hnt]
    exact ⟨hQ a b hR, hS⟩
  · rw [hms, hnt]
    exact ⟨rfl, hS⟩

theorem Agrees.bind {m : Parse σ α} {n : Parse τ β} {f : α → Parse σ α'} {g : β → Parse τ β'}
    (hm : Agrees S R m n) (hf : ∀ a b, R a b → Agrees S R' (f a) (g b)) :
    Agrees S R' (m >>= f) (n >>= g) := by
  intro s t hst
  rw [EStateM.run_bind, EStateM.run_bind]
  obtain ⟨a, s', b, t', hms, hnt, hR, hS⟩ | ⟨fault, s', t', hms, hnt, hS⟩ := hm.run_cases hst
  · rw [hms, hnt]
    exact hf a b hR s' t' hS
  · rw [hms, hnt]
    exact ⟨rfl, hS⟩

/-- Both runs go on with what the same computation gives, or both stop at its fault. -/
theorem agrees_lift_bind (x : Except Fault α) {f : α → Parse σ α'} {g : α → Parse τ β'}
    (hf : ∀ a, Agrees S R' (f a) (g a)) : Agrees S R' (liftM x >>= f) (liftM x >>= g) := by
  cases x with
  | ok a => exact hf a
  | error fault => exact agrees_throw R' fault

theorem agrees_of_gives {m : Parse σ α} {n : Parse τ β} {a : α} {b : β} (hm : m.Gives a) (hn : n.Gives b)
    (h : R a b) : Agrees (fun _ _ => True) R m n := by
  intro s t _
  obtain ⟨s', hs⟩ := hm s
  obtain ⟨t', ht⟩ := hn t
  rw [hs, ht]
  exact ⟨h, trivial⟩

/-- Runs that correspond from any two states have the same result, as far as `f` and `g` show it. -/
theorem Agrees.result_eq {γ : Type} {m : Parse σ α} {n : Parse τ β} {f : α → γ} {g : β → γ}
    (h : Agrees (fun _ _ => True) R m n) (hR : ∀ a b, R a b → f a = g b) (s : σ) (t : τ) :
    (m.result s).map f = (n.result t).map g := by
  unfold result
  obtain ⟨a, s', b, t', hms, hnt, hab, -⟩ | ⟨fault, s', t', hms, hnt, -⟩ := h.run_cases (s := s) (t := t) trivial
  · rw [hms, hnt]
    exact congrArg Except.ok (hR a b hab)
  · rw [hms, hnt]
    rfl

/-- What the first of two runs returns may be used along with their correspondence. -/
theorem Agrees.and_returns {m : Parse σ α} {n : Parse τ β} {Q : α → Prop} (h : Agrees S R m n)
    (hm : m.Returns F Q) : Agrees S (fun a b => R a b ∧ Q a) m n := by
  intro s t hst
  obtain ⟨a, s', b, t', hms, hnt, hR, hS⟩ | ⟨fault, s', t', hms, hnt, hS⟩ := h.run_cases hst
  · rw [hms, hnt]
    exact ⟨⟨hR, hm.of_run hms⟩, hS⟩
  · rw [hms, hnt]
    exact ⟨rfl, hS⟩

end Parse

end ParserAlgebra
