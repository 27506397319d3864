/-
**Whose turn it is.**

Names are resolved in order up to the first one that fails, and candidates are tried in order up to
the first one that can be made.  So the turn of each comes in a certain state of the search, if it
comes at all.

* `resolveAll_append`, `tryCandidates_append` — lists in two parts.
* `Resolver.Turn`, `CandidateTurn` — the turn of a name or of a candidate comes.
* `Resolver.exists_turn`, `exists_candidateTurn` — if not all of some names are made, or none of
  some candidates, it is because of one whose turn comes.
* `Resolver.Turn.ends`, `CandidateTurn.cycle` — a failure that ends the list.
* `resolveAll_keeps_turn`, `tryCandidates_keeps_turn` — what every turn keeps, the list keeps.
-/

import BuildSystem.Proofs.Graph.Termination

namespace BuildSystem

/-! ### Names in order -/

/-- Names in order: the second part is resolved if the first one is made. -/
theorem resolveAll_append (resolver : Resolver) (first second : List String) (search : Search) :
    resolveAll resolver (first ++ second) search =
      match resolveAll resolver first search with
      | (.made, search) => resolveAll resolver second search
      | failed => failed := by
  induction first generalizing search with
  | nil => rfl
  | cons name rest ih =>
    rw [List.cons_append, resolveAll, resolveAll]
    generalize resolver name search = result
    obtain ⟨outcome, after⟩ := result
    cases outcome with
    | made => exact ih after
    | unmade => rfl
    | cycle names => rfl

/-- **The turn of a name comes** while names are resolved in order: those before it are made. -/
def Resolver.Turn (resolver : Resolver) (names : List String) (search : Search) (name : String)
    (reached : Search) : Prop :=
  ∃ front back, names = front ++ name :: back ∧ resolveAll resolver front search = (.made, reached)

namespace Resolver

variable {resolver : Resolver} {names rest : List String} {search after reached : Search}
  {name other : String}

theorem Turn.first (resolver : Resolver) (name : String) (rest : List String) (search : Search) :
    resolver.Turn (name :: rest) search name search :=
  ⟨[], rest, rfl, rfl⟩

theorem Turn.later (made : resolver name search = (.made, after))
    (turn : resolver.Turn rest after other reached) :
    resolver.Turn (name :: rest) search other reached := by
  obtain ⟨front, back, rfl, resolved⟩ := turn
  refine ⟨name :: front, back, rfl, ?_⟩
  rw [resolveAll, made]
  exact resolved

theorem Turn.mem (turn : resolver.Turn names search name reached) : name ∈ names := by
  obtain ⟨front, back, rfl, -⟩ := turn
  exact List.mem_append_right front List.mem_cons_self

/-- If not all of some names are made, the turn of one comes that is not. -/
theorem exists_turn (stops : (resolveAll resolver names search).1 ≠ .made) :
    ∃ name reached, resolver.Turn names search name reached ∧
      resolver name reached = resolveAll resolver names search := by
  induction names generalizing search with
  | nil => exact absurd rfl stops
  | cons name rest ih =>
    rcases result : resolver name search with ⟨outcome, after⟩
    by_cases made : outcome = .made
    · subst made
      have whole : resolveAll resolver (name :: rest) search = resolveAll resolver rest after := by
        rw [resolveAll, result]
      rw [whole] at stops ⊢
      obtain ⟨other, reached, turn, ended⟩ := ih stops
      exact ⟨other, reached, turn.later result, ended⟩
    · have whole : resolveAll resolver (name :: rest) search = (outcome, after) := by
        rw [resolveAll, result]
        cases outcome with
        | made => exact absurd rfl made
        | unmade => rfl
        | cycle names => rfl
      exact ⟨name, search, .first resolver name rest search, by rw [result, whole]⟩

/-- A name that is not made when its turn comes is the last one. -/
theorem Turn.ends (turn : resolver.Turn names search name reached)
    (failed : (resolver name reached).1 ≠ .made) :
    resolveAll resolver names search = resolver name reached := by
  obtain ⟨front, back, rfl, resolved⟩ := turn
  rw [resolveAll_append, resolved]
  dsimp only
  rw [resolveAll]
  split
  · next result => exact absurd (congrArg Prod.fst result) failed
  · rfl

end Resolver

/-! ### Candidates in order -/

/-- The decision to try a candidate. -/
def Candidate.trial (candidate : Candidate) (name : String) (extra : List String) : Decision :=
  .trying name candidate.rule.target candidate.rule.body.location (candidate.prereqs extra)

/-- Candidates in order: the second part is tried if nothing comes of the first one. -/
theorem tryCandidates_append (resolver : Nat → Resolver) (name : String) (extra : List String)
    (attributes : Attributes) (first second : List Candidate) (search : Search) :
    tryCandidates resolver name extra attributes (first ++ second) search =
      match tryCandidates resolver name extra attributes first search with
      | (.missing, search) => tryCandidates resolver name extra attributes second search
      | ended => ended := by
  induction first generalizing search with
  | nil => rfl
  | cons candidate rest ih =>
    rw [List.cons_append, tryCandidates, tryCandidates]
    generalize resolveAll _ _ _ = result
    obtain ⟨outcome, after⟩ := result
    cases outcome with
    | made => rfl
    | unmade => exact ih _
    | cycle names => rfl

/-- **The turn of a candidate comes** while candidates are tried in order: nothing has come of those
before it. -/
def CandidateTurn (resolver : Nat → Resolver) (name : String) (extra : List String)
    (attributes : Attributes) (found : List Candidate) (search : Search) (candidate : Candidate)
    (start : Search) : Prop :=
  ∃ before rest, found = before ++ candidate :: rest ∧
    tryCandidates resolver name extra attributes before search = (.missing, start)

section Candidates

variable {resolver : Nat → Resolver} {name : String} {extra : List String}
  {attributes : Attributes} {found rest : List Candidate} {candidate other : Candidate}
  {search start after : Search}

theorem CandidateTurn.first (candidate : Candidate) (rest : List Candidate) (search : Search) :
    CandidateTurn resolver name extra attributes (candidate :: rest) search candidate search :=
  ⟨[], rest, rfl, rfl⟩

theorem CandidateTurn.later
    (unmade : resolveAll (resolver candidate.index) (candidate.prereqs extra)
      (search.note (candidate.trial name extra)) = (.unmade, after))
    (turn : CandidateTurn resolver name extra attributes rest
      (after.note (.rejected name candidate.rule.target)) other start) :
    CandidateTurn resolver name extra attributes (candidate :: rest) search other start := by
  obtain ⟨before, later, rfl, missing⟩ := turn
  refine ⟨candidate :: before, later, rfl, ?_⟩
  unfold Candidate.trial at unmade
  simp only [tryCandidates, unmade]
  exact missing

theorem CandidateTurn.mem
    (turn : CandidateTurn resolver name extra attributes found search candidate start) :
    candidate ∈ found := by
  obtain ⟨before, rest, rfl, -⟩ := turn
  exact List.mem_append_right before List.mem_cons_self

/-- How the search for a name ends if its attempt ends in a way. -/
def Attempt.outcome : Attempt → Outcome
  | .node _ => .made
  | .missing => .unmade
  | .cycle names => .cycle names

theorem Attempt.outcome_eq_unmade {attempt : Attempt} :
    attempt.outcome = .unmade ↔ attempt = .missing := by
  cases attempt <;> simp [Attempt.outcome]

/-- **If no candidate is chosen, there is none, or the last one that is tried fails at a
prerequisite**; the reason for its failure is kept. -/
theorem exists_candidateTurn {attempt : Attempt}
    (tried : tryCandidates resolver name extra attributes found search = (attempt, after))
    (unmade : attempt.outcome ≠ .made) :
    (found = [] ∧ attempt = .missing ∧ after = search) ∨
      ∃ candidate start prereq reached last,
        CandidateTurn resolver name extra attributes found search candidate start ∧
        (resolver candidate.index).Turn (candidate.prereqs extra)
          (start.note (candidate.trial name extra)) prereq reached ∧
        resolver candidate.index prereq reached = (attempt.outcome, last) ∧
        after.failure = last.failure := by
  induction found generalizing search with
  | nil =>
    obtain ⟨rfl, rfl⟩ := Prod.mk.inj tried
    exact Or.inl ⟨rfl, rfl, rfl⟩
  | cons candidate rest ih =>
    rcases result : resolveAll (resolver candidate.index) (candidate.prereqs extra)
      (search.note (candidate.trial name extra)) with ⟨outcome, middle⟩
    have here : outcome ≠ .made → ∃ prereq reached,
        (resolver candidate.index).Turn (candidate.prereqs extra)
          (search.note (candidate.trial name extra)) prereq reached ∧
        resolver candidate.index prereq reached = (outcome, middle) := by
      intro failed
      rw [← result]
      exact Resolver.exists_turn (by rw [result]; exact failed)
    have unfolded := tried
    have trial := result
    unfold Candidate.trial at trial
    simp only [tryCandidates, trial] at unfolded
    cases outcome with
    | made =>
      obtain ⟨rfl, -⟩ := Prod.mk.inj unfolded
      exact absurd rfl unmade
    | cycle names =>
      obtain ⟨rfl, rfl⟩ := Prod.mk.inj unfolded
      obtain ⟨prereq, reached, turn, ended⟩ := here (by simp)
      exact Or.inr
        ⟨candidate, search, prereq, reached, _, .first candidate rest search, turn, ended, rfl⟩
    | unmade =>
      rcases ih unfolded with ⟨rfl, rfl, rfl⟩ | ⟨other, start, prereq, reached, last, turn, further⟩
      · obtain ⟨prereq, reached, turn, ended⟩ := here (by simp)
        exact Or.inr
          ⟨candidate, search, prereq, reached, _, .first candidate [] search, turn, ended, rfl⟩
      · exact Or.inr ⟨other, start, prereq, reached, last, turn.later result, further⟩

/-- A cycle that ends the search for a prerequisite of a candidate ends the attempt. -/
theorem CandidateTurn.cycle {reached : Search} {prereq : String} {names : List String}
    (turn : CandidateTurn resolver name extra attributes found search candidate start)
    (prereqTurn : (resolver candidate.index).Turn (candidate.prereqs extra)
      (start.note (candidate.trial name extra)) prereq reached)
    (ended : resolver candidate.index prereq reached = (.cycle names, after)) :
    tryCandidates resolver name extra attributes found search = (.cycle names, after) := by
  have resolved := prereqTurn.ends (by simp [ended])
  rw [ended] at resolved
  obtain ⟨before, rest, rfl, tried⟩ := turn
  rw [tryCandidates_append, tried]
  unfold Candidate.trial at resolved
  simp only [tryCandidates, resolved]

end Candidates

/-! ### What turns keep -/

section Keeps

variable {holds : Search → Prop} {search : Search}

/-- What every turn keeps, resolving names keeps. -/
theorem resolveAll_keeps_turn {resolver : Resolver} {names : List String}
    (keeps : ∀ name reached, resolver.Turn names search name reached → holds reached →
      holds (resolver name reached).2) (begun : holds search) :
    holds (resolveAll resolver names search).2 := by
  induction names generalizing search with
  | nil => exact begun
  | cons name rest ih =>
    have first := keeps name search (.first resolver name rest search) begun
    unfold resolveAll
    split
    · next after result =>
      rw [result] at first
      exact ih (fun other reached turn => keeps other reached (turn.later result)) first
    · exact first

/-- What every turn keeps and every decision keeps by which no cycle is given up, trying candidates
keeps. -/
theorem tryCandidates_keeps_turn {resolver : Nat → Resolver} {name : String} {extra : List String}
    {attributes : Attributes} {found : List Candidate}
    (noted : ∀ {search : Search} (decision : Decision),
      (∀ name cycle, decision ≠ .cycleRejected name cycle) → holds search →
        holds (search.note decision))
    (keeps : ∀ candidate start,
      CandidateTurn resolver name extra attributes found search candidate start →
      ∀ prereq reached, (resolver candidate.index).Turn (candidate.prereqs extra)
        (start.note (candidate.trial name extra)) prereq reached → holds reached →
        holds (resolver candidate.index prereq reached).2) (begun : holds search) :
    holds (tryCandidates resolver name extra attributes found search).2 := by
  induction found generalizing search with
  | nil => exact begun
  | cons candidate rest ih =>
    have resolved := resolveAll_keeps_turn (keeps candidate search (.first candidate rest search))
      (noted (candidate.trial name extra) (by simp [Candidate.trial]) begun)
    rcases result : resolveAll (resolver candidate.index) (candidate.prereqs extra)
      (search.note (candidate.trial name extra)) with ⟨outcome, after⟩
    rw [result] at resolved
    have trial := result
    unfold Candidate.trial at trial
    simp only [tryCandidates, trial]
    cases outcome with
    | made => exact noted _ (by simp) resolved
    | unmade =>
      exact ih (fun other start turn => keeps other start (turn.later result))
        (noted _ (by simp) resolved)
    | cycle names => exact resolved

end Keeps

end BuildSystem
