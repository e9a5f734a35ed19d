import Mathlib.Data.List.Forall2
import ParserAlgebra.Proofs.Greedy

/-!
# The first match
-/

namespace ParserAlgebra

open Cursor Parse

variable {σ : Type} {outcome : Cursor → Outcome} {outcomes : List (Cursor → Outcome)} {c d e : Cursor}
  {found found' : Found} {v : Value} {j : Nat}

/-! ## Places -/

/-- A search that begins at `c` may come to `d`: a place of the same source, not before `c` and not at the end. -/
def Cursor.Scans (c d : Cursor) : Prop :=
  d.source = c.source ∧ c.pos ≤ d.pos ∧ d.pos < c.source.length

theorem Cursor.Scans.inSource (hc : c.InSource) (h : c.Scans d) : d.InSource := by
  obtain ⟨hs, hle, hlt⟩ := h
  exact ⟨Int.le_trans hc.1 hle, by rw [hs]; exact Int.le_of_lt hlt⟩

theorem Cursor.scans_self (h : ¬c.atEnd) : c.Scans c := by
  rw [atEnd_iff] at h
  exact ⟨rfl, Int.le_refl _, by omega⟩

theorem Cursor.not_scans_of_atEnd (h : c.atEnd) : ¬c.Scans d := by
  rintro ⟨-, hle, hlt⟩
  rw [atEnd_iff] at h
  omega

/-- Behind its first place, a search goes on like one that begins one place further. -/
theorem Cursor.scans_advance_iff (h : ¬c.atEnd) : (c.advance 1).Scans d ↔ c.Scans d ∧ d.pos ≠ c.pos := by
  rw [atEnd_iff] at h
  simp only [Scans, advance]
  constructor
  · rintro ⟨hs, hle, hlt⟩
    exact ⟨⟨hs, by omega, hlt⟩, by omega⟩
  · rintro ⟨⟨hs, hle, hlt⟩, hne⟩
    exact ⟨hs, by omega, hlt⟩

theorem Cursor.Scans.eq_of_pos (h : c.Scans d) (h' : c.Scans e) (hpos : d.pos = e.pos) : d = e := by
  obtain ⟨hs, -, -⟩ := h
  obtain ⟨hs', -, -⟩ := h'
  cases d
  cases e
  simp only at hs hs' hpos
  rw [hs, hs', hpos]

theorem Outcome.not_failed {o : Outcome} (h : o = .success v d) : o.succeeded ≠ false := by
  rw [h]
  exact Bool.noConfusion

/-! ## The first place -/

/-- The match is one at the first place where there is one. -/
structure FirstPlace (outcome : Cursor → Outcome) (c : Cursor) (found : Found) : Prop where
  scanned : c.Scans found.start
  matched : outcome found.start = .success found.value found.stop
  leftmost : ∀ d, c.Scans d → d.pos < found.start.pos → (outcome d).succeeded = false

theorem FirstPlace.unique (h : FirstPlace outcome c found) (h' : FirstPlace outcome c found') :
    found = found' := by
  have hle : ¬found'.start.pos < found.start.pos := fun hlt =>
    Outcome.not_failed h'.matched (h.leftmost _ h'.scanned hlt)
  have hge : ¬found.start.pos < found'.start.pos := fun hlt =>
    Outcome.not_failed h.matched (h'.leftmost _ h.scanned hlt)
  have hstart : found.start = found'.start := h.scanned.eq_of_pos h'.scanned (by omega)
  have hmatched := h.matched
  rw [hstart, h'.matched] at hmatched
  cases found
  cases found'
  cases hstart
  cases hmatched
  rfl

/-- What a search from `c` has to give: the match at the first place, and nothing if no place has one. -/
def SearchedBy (outcome : Cursor → Outcome) (c : Cursor) : Option Found → Prop
  | some found => FirstPlace outcome c found
  | none => ∀ d, c.Scans d → (outcome d).succeeded = false

theorem searchedBy_here (h : ¬c.atEnd) (ho : outcome c = .success v d) :
    SearchedBy outcome c (some { start := c, value := v, stop := d }) where
  scanned := scans_self h
  matched := ho
  leftmost e he hlt := by
    obtain ⟨-, hle, -⟩ := he
    dsimp only at hlt
    omega

theorem SearchedBy.further {r : Option Found} (h : ¬c.atEnd) (ho : (outcome c).succeeded = false)
    (hr : SearchedBy outcome (c.advance 1) r) : SearchedBy outcome c r := by
  have hfirst : ∀ d, c.Scans d → d.pos = c.pos → (outcome d).succeeded = false := by
    intro d hd hpos
    rw [hd.eq_of_pos (scans_self h) hpos]
    exact ho
  cases r with
  | none =>
      intro d hd
      by_cases hpos : d.pos = c.pos
      · exact hfirst d hd hpos
      · exact hr d ((scans_advance_iff h).2 ⟨hd, hpos⟩)
  | some found =>
      refine ⟨((scans_advance_iff h).1 hr.scanned).1, hr.matched, fun d hd hlt => ?_⟩
      by_cases hpos : d.pos = c.pos
      · exact hfirst d hd hpos
      · exact hr.leftmost d ((scans_advance_iff h).2 ⟨hd, hpos⟩) hlt

/-! ## The first alternative -/

/-- The alternative at index `j` matches at the cursor, and none in front of it does. -/
structure FirstAlternative (outcomes : List (Cursor → Outcome)) (c : Cursor) (j : Nat) (v : Value)
    (d : Cursor) : Prop where
  matched : ∃ outcome, outcomes[j]? = some outcome ∧ outcome c = .success v d
  least : ∀ i < j, ∀ outcome, outcomes[i]? = some outcome → (outcome c).succeeded = false

/-- The outcome of the first alternative that matches, and of the last one if none does. -/
def firstOutcome (outcome : Cursor → Outcome) : List (Cursor → Outcome) → Cursor → Outcome
  | [], c => outcome c
  | next :: outcomes, c =>
    match outcome c with
    | .success v d => .success v d
    | .failure _ => firstOutcome next outcomes c

theorem firstAlternative_here (h : outcome c = .success v d) :
    FirstAlternative (outcome :: outcomes) c 0 v d where
  matched := ⟨outcome, rfl, h⟩
  least i hi := by cases hi

theorem FirstAlternative.later (ho : (outcome c).succeeded = false) (h : FirstAlternative outcomes c j v d) :
    FirstAlternative (outcome :: outcomes) c (j + 1) v d where
  matched := h.matched
  least i hi other hother := by
    cases i with
    | zero =>
        cases hother
        exact ho
    | succ i => exact h.least i (by omega) other hother

/-- At one cursor, the first alternative that matches is the only one. -/
theorem FirstAlternative.unique {i : Nat} {w : Value} (h : FirstAlternative outcomes c j v d)
    (h' : FirstAlternative outcomes c i w e) : v = w ∧ d = e := by
  obtain ⟨outcome, hj, hv⟩ := h.matched
  obtain ⟨outcome', hi, hw⟩ := h'.matched
  have hle : ¬i < j := fun hlt => Outcome.not_failed hw (h.least i hlt outcome' hi)
  have hge : ¬j < i := fun hlt => Outcome.not_failed hv (h'.least j hlt outcome hj)
  have hindex : i = j := by omega
  rw [hindex, hj] at hi
  cases hi
  rw [hv] at hw
  cases hw
  exact ⟨rfl, rfl⟩

/-- Either no alternative matches, or the outcome is that of the first one. -/
theorem firstOutcome_cases (outcome : Cursor → Outcome) (outcomes : List (Cursor → Outcome)) (c : Cursor) :
    (∃ j v d, firstOutcome outcome outcomes c = .success v d ∧ FirstAlternative (outcome :: outcomes) c j v d) ∨
      (firstOutcome outcome outcomes c).succeeded = false ∧
        ∀ f ∈ outcome :: outcomes, (f c).succeeded = false := by
  induction outcomes generalizing outcome with
  | nil =>
      cases ho : outcome c with
      | success v d => exact Or.inl ⟨0, v, d, ho, firstAlternative_here ho⟩
      | failure m =>
          refine Or.inr ⟨by rw [firstOutcome, ho]; rfl, fun f hf => ?_⟩
          rw [List.mem_singleton.1 hf, ho]
          rfl
  | cons next outcomes ih =>
      cases ho : outcome c with
      | success v d => exact Or.inl ⟨0, v, d, by rw [firstOutcome, ho], firstAlternative_here ho⟩
      | failure m =>
          have hno : (outcome c).succeeded = false := by rw [ho]; rfl
          have heq : firstOutcome outcome (next :: outcomes) c = firstOutcome next outcomes c := by
            rw [firstOutcome, ho]
          rw [heq]
          rcases ih next with ⟨j, v, d, hfirst, h⟩ | ⟨hfirst, h⟩
          · exact Or.inl ⟨j + 1, v, d, hfirst, h.later hno⟩
          · exact Or.inr ⟨hfirst, List.forall_mem_cons.2 ⟨hno, h⟩⟩

theorem none_matches_iff :
    (firstOutcome outcome outcomes c).succeeded = false ↔ ∀ f ∈ outcome :: outcomes, (f c).succeeded = false := by
  rcases firstOutcome_cases outcome outcomes c with ⟨j, v, d, hfirst, h⟩ | ⟨hfirst, h⟩
  · obtain ⟨f, hf, hv⟩ := h.matched
    exact iff_of_false (Outcome.not_failed hfirst) fun hno => Outcome.not_failed hv (hno f (List.mem_of_getElem? hf))
  · exact iff_of_true hfirst h

/-! ## The first match -/

/-- The match is one of the alternative at index `j`. At an earlier place no alternative matches, and none in
front of this one at the place of the match. -/
structure FirstMatch (outcomes : List (Cursor → Outcome)) (c : Cursor) (found : Found) (j : Nat) : Prop where
  scanned : c.Scans found.start
  leftmost : ∀ d, c.Scans d → d.pos < found.start.pos → ∀ outcome ∈ outcomes, (outcome d).succeeded = false
  alternative : FirstAlternative outcomes found.start j found.value found.stop

theorem FirstPlace.firstMatch (h : FirstPlace (firstOutcome outcome outcomes) c found) :
    ∃ j, FirstMatch (outcome :: outcomes) c found j := by
  rcases firstOutcome_cases outcome outcomes found.start with ⟨j, v, d, hfirst, halternative⟩ | ⟨hno, -⟩
  · rw [h.matched] at hfirst
    cases hfirst
    exact ⟨j, h.scanned, fun d hd hlt => none_matches_iff.1 (h.leftmost d hd hlt), halternative⟩
  · exact absurd hno (Outcome.not_failed h.matched)

theorem FirstMatch.firstPlace (h : FirstMatch (outcome :: outcomes) c found j) :
    FirstPlace (firstOutcome outcome outcomes) c found := by
  refine ⟨h.scanned, ?_, fun d hd hlt => none_matches_iff.2 (h.leftmost d hd hlt)⟩
  rcases firstOutcome_cases outcome outcomes found.start with ⟨i, v, d, hfirst, halternative⟩ | ⟨-, hno⟩
  · obtain ⟨rfl, rfl⟩ := halternative.unique h.alternative
    exact hfirst
  · obtain ⟨f, hf, hv⟩ := h.alternative.matched
    exact absurd (hno f (List.mem_of_getElem? hf)) (Outcome.not_failed hv)

/-- On every cursor of a source, each match of an alternative yields a text. -/
def TextsOnly (outcomes : List (Cursor → Outcome)) : Prop :=
  ∀ outcome ∈ outcomes, ∀ c : Cursor, c.InSource → ∀ v d, outcome c = .success v d → ∃ t, v = .text t

/-! ## The parsers -/

namespace Parser

variable {p : Parser σ} {ps : List (Parser σ)}

theorem searchAmong_gives (hp : p.Computes outcome) {count : Nat} (hc : c.InSource) (hcount : count = c.remaining) :
    ∃ r, (searchAmong p count c).Gives r ∧ SearchedBy outcome c r := by
  induction count generalizing c with
  | zero =>
      have hend : c.atEnd := by
        rw [atEnd_iff]
        simp only [remaining] at hcount
        omega
      exact ⟨none, gives_pure _, fun d hd => absurd hd (not_scans_of_atEnd hend)⟩
  | succ count ih =>
      have hend : ¬c.atEnd := by
        rw [atEnd_iff]
        simp only [remaining] at hcount
        omega
      cases ho : outcome c with
      | success v d =>
          have hrun := hp c hc
          rw [ho] at hrun
          exact ⟨_, hrun.bind (gives_pure _), searchedBy_here hend ho⟩
      | failure m =>
          have hrun := hp c hc
          rw [ho] at hrun
          have hcount' : count = (c.advance 1).remaining := by
            simp only [remaining, advance] at hcount ⊢
            omega
          obtain ⟨r, hr, hsearched⟩ := ih (onward_inSource.reaches hc (reaches_advance c (by decide))) hcount'
          exact ⟨r, hrun.bind hr, hsearched.further hend (by rw [ho]; rfl)⟩

theorem search_gives (hp : p.Computes outcome) (hc : c.InSource) :
    ∃ r, (search p c).Gives r ∧ SearchedBy outcome c r :=
  searchAmong_gives hp hc rfl

theorem search_gives_found (hp : p.Computes outcome) (hc : c.InSource) (h : FirstPlace outcome c found) :
    (search p c).Gives (some found) := by
  obtain ⟨r, hr, hsearched⟩ := search_gives hp hc
  cases r with
  | none => exact absurd (hsearched _ h.scanned) (Outcome.not_failed h.matched)
  | some found' =>
      cases h.unique hsearched
      exact hr

theorem search_gives_none (hp : p.Computes outcome) (hc : c.InSource)
    (h : ∀ d, c.Scans d → (outcome d).succeeded = false) : (search p c).Gives none := by
  obtain ⟨r, hr, hsearched⟩ := search_gives hp hc
  cases r with
  | none => exact hr
  | some found => exact absurd (h _ hsearched.scanned) (Outcome.not_failed hsearched.matched)

theorem firstOf_computes {ps : List (Parser σ)} (hp : p.Computes outcome)
    (hps : List.Forall₂ Parser.Computes ps outcomes) : (firstOf p ps).Computes (firstOutcome outcome outcomes) := by
  induction hps generalizing p outcome with
  | nil => exact hp
  | cons hq _ ih =>
      intro c hc
      have hrun := hp c hc
      rw [firstOf, choice, firstOutcome]
      refine hrun.bind ?_
      cases outcome c with
      | success v d => exact gives_pure _
      | failure m => exact ih hq c hc

theorem until_gives_found (hp : p.Computes outcome) (hc : c.InSource) (h : FirstPlace outcome c found)
    {yield : Yield} (hv : yieldFound c found yield = .ok v) (stance : Stance) :
    ((Parser.until yield stance p).run c).Gives (.success v (stance.place c found.stop)) :=
  (search_gives_found hp hc h).bind ((gives_lift hv).bind (gives_pure _))

theorem until_gives_none (hp : p.Computes outcome) (hc : c.InSource)
    (h : ∀ d, c.Scans d → (outcome d).succeeded = false) (yield : Yield) (stance : Stance) :
    ((Parser.until yield stance p).run c).Gives (neverMatched c p) :=
  (search_gives_none hp hc h).bind (gives_pure _)

/-- A scan fails only if its parser matches nowhere. A value that is no text ends it with a fault. -/
theorem until_failure (hp : p.Computes outcome) (hc : c.InSource) {yield : Yield} {stance : Stance} {s s' : σ}
    {m : Mismatch} (h : ((Parser.until yield stance p).run c).run s = .ok (.failure m) s') :
    m.cursor = c ∧ ∀ d, c.Scans d → (outcome d).succeeded = false := by
  obtain ⟨r, hr, hsearched⟩ := search_gives hp hc
  obtain ⟨r', t, hr', hrest⟩ := run_bind_eq_ok h
  obtain ⟨t', ht'⟩ := hr s
  cases ht'.symm.trans hr'
  cases r with
  | none =>
      cases hrest
      exact ⟨rfl, hsearched⟩
  | some found =>
      obtain ⟨v, u, -, hsuccess⟩ := run_bind_eq_ok hrest
      cases hsuccess

/-- Where one of the parsers matches somewhere ahead, there is a first match, by its place and then by the order of
the parsers, and the four scans for several parsers find it. They fail where they began, and only if nothing
matches ahead. With one parser they are the scans for that parser. -/
theorem until_finds_first_match (hps : List.Forall₂ Parser.Computes ps outcomes) (hne : ps ≠ [])
    (hc : c.InSource) :
    ((∃ outcome ∈ outcomes, ∃ d, c.Scans d ∧ (outcome d).succeeded = true) →
      ∃ found j, FirstMatch outcomes c found j) ∧
    (∀ found j, FirstMatch outcomes c found j → ∀ stance,
      (∃ u, untilN .last stance ps = .ok u ∧
        (u.run c).Gives (.success found.value (stance.place c found.stop))) ∧
      (TextsOnly outcomes → ∃ u t, untilN .whole stance ps = .ok u ∧ found.value = .text t ∧
        (u.run c).Gives (.success (.text (found.start.since c ++ t)) (stance.place c found.stop)))) ∧
    ((∀ outcome ∈ outcomes, ∀ d, c.Scans d → (outcome d).succeeded = false) → ∀ yield stance,
      ∃ u m, untilN yield stance ps = .ok u ∧ (u.run c).Gives (.failure m) ∧ m.cursor = c) ∧
    (∀ yield stance u s m s', untilN yield stance ps = .ok u → (u.run c).run s = .ok (.failure m) s' →
      m.cursor = c ∧ ∀ outcome ∈ outcomes, ∀ d, c.Scans d → (outcome d).succeeded = false) ∧
    (∀ p yield stance, ps = [p] → untilN yield stance ps = .ok (Parser.until yield stance p)) := by
  match ps, outcomes, hps with
  | [], _, _ => exact absurd rfl hne
  | p :: ps, outcome :: outcomes, .cons hp hps =>
      have hfirst := firstOf_computes hp hps
      have huntil : ∀ yield stance,
          untilN yield stance (p :: ps) = .ok (Parser.until yield stance (firstOf p ps)) := fun _ _ => rfl
      refine ⟨?_, ?_, ?_, ?_, ?_⟩
      · rintro ⟨f, hf, d, hd, hmatch⟩
        obtain ⟨r, -, hsearched⟩ := search_gives hfirst hc
        cases r with
        | some found =>
            obtain ⟨j, h⟩ := hsearched.firstMatch
            exact ⟨found, j, h⟩
        | none =>
            have hno := none_matches_iff.1 (hsearched d hd) f hf
            rw [hmatch] at hno
            cases hno
      · intro found j h stance
        refine ⟨⟨_, huntil .last stance, until_gives_found hfirst hc h.firstPlace rfl stance⟩, fun htexts => ?_⟩
        obtain ⟨f, hf, hv⟩ := h.alternative.matched
        obtain ⟨t, ht⟩ := htexts f (List.mem_of_getElem? hf) _ (h.scanned.inSource hc) _ _ hv
        have hwhole : yieldFound c found .whole = .ok (.text (found.start.since c ++ t)) := by
          rw [yieldFound, ht]
        exact ⟨_, t, huntil .whole stance, ht, until_gives_found hfirst hc h.firstPlace hwhole stance⟩
      · intro hnone yield stance
        have hno : ∀ d, c.Scans d → (firstOutcome outcome outcomes d).succeeded = false :=
          fun d hd => none_matches_iff.2 fun f hf => hnone f hf d hd
        exact ⟨_, _, huntil yield stance, until_gives_none hfirst hc hno yield stance, rfl⟩
      · intro yield stance u s m s' hu hrun
        cases hu
        obtain ⟨hm, hno⟩ := until_failure hfirst hc hrun
        exact ⟨hm, fun f hf d hd => none_matches_iff.1 (hno d hd) f hf⟩
      · intro q yield stance hq
        cases hq
        rfl

/-- From the second letter of `xxab;`, a scan for `;` or `ab` stops behind the `ab`: the place counts before the
order of the two. -/
theorem until_finds_later_alternative :
    let outcome (t : Text) (c : Cursor) : Outcome :=
      if c.startsWith t then .success (.text t) (c.advance t.length) else .fail c (Wording.expected t.quote) [t]
    let ps : List (Parser Unit) := [text ";", text "ab"]
    let c : Cursor := { source := "xxab;", pos := 1 }
    let found : Found := { start := { c with pos := 2 }, value := .text "ab", stop := { c with pos := 4 } }
    List.Forall₂ Parser.Computes ps [outcome ";", outcome "ab"] ∧ ps ≠ [] ∧ c.InSource ∧
      FirstMatch [outcome ";", outcome "ab"] c found 1 ∧ TextsOnly [outcome ";", outcome "ab"] ∧
      ∃ u, untilN .whole .consuming ps = .ok u ∧ (u.run c).Gives (.success (.text "xab") { c with pos := 4 }) := by
  intro outcome ps c found
  have hps : List.Forall₂ Parser.Computes ps [outcome ";", outcome "ab"] :=
    .cons (fun _ _ => gives_pure _) (.cons (fun _ _ => gives_pure _) .nil)
  have hc : c.InSource := ⟨by decide, by decide⟩
  have hfirst : FirstMatch [outcome ";", outcome "ab"] c found 1 := by
    refine ⟨⟨rfl, by decide, by decide⟩, ?_, ⟨_, rfl, by decide⟩, ?_⟩
    · rintro ⟨source, pos⟩ ⟨hs, hle, -⟩ hlt f hf
      have hpos : pos = 1 := Int.le_antisymm (Int.lt_add_one_iff.1 hlt) hle
      cases hs
      subst hpos
      exact (by decide : ∀ f ∈ [outcome ";", outcome "ab"], (f c).succeeded = false) f hf
    · intro i hi f hf
      cases Nat.lt_one_iff.1 hi
      cases hf
      decide
  have htexts : TextsOnly [outcome ";", outcome "ab"] := by
    have htext : ∀ t c v d, outcome t c = .success v d → ∃ t, v = .text t := by
      intro t c v d h
      simp only [outcome] at h
      split at h
      · cases h
        exact ⟨t, rfl⟩
      · cases h
    intro f hf c _ v d h
    rcases List.mem_pair.1 hf with rfl | rfl
    · exact htext _ c v d h
    · exact htext _ c v d h
  obtain ⟨u, t, hu, ht, hrun⟩ :=
    ((until_finds_first_match hps (by decide) hc).2.1 found 1 hfirst .consuming).2 htexts
  cases ht
  exact ⟨hps, by decide, hc, hfirst, htexts, u, hu, hrun⟩

end Parser

end ParserAlgebra
