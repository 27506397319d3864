/-
**What holds all along a search.**

An attempt at a name first tries the candidates, if the name may borrow a recipe, and then what the
name has of its own: its explicit rules, or the file.

* `attemptOwn`, `attemptName_eq` — the two halves of an attempt.
* `Asks` — while a name is looked for, another one is asked for, in a state of the search.
* `tryCandidates_node`, `tryCandidates_missing` — no candidate before the one that is chosen can be
  made, and none at all if none is chosen.
* `attemptName_keeps_asks`, `attemptName_keeps` — what the searches keep that an attempt asks for,
  or what all searches for such names keep, the attempt keeps.
* `Keeping` — a property of searches that adding the nodes of attempts keeps, on all ways that
  satisfy a condition.
* `Keeping.resolve`, `Keeping.resolveRoots` — then the whole search keeps it.
* `trace_keeping` — decisions are only added to the trace.
-/

import BuildSystem.Proofs.Graph.Turns

namespace BuildSystem

/-! ### The halves of an attempt -/

/-- What a name has of its own: its explicit rules, or the file. -/
def attemptOwn (rules : RuleSet) (available : String → Bool) (resolver : Resolver) (name : String)
    (search : Search) : Attempt × Search :=
  match rules.rulesFor name with
  | [] =>
    if available name then (.node { name := name, origin := .source }, search.note (.source name))
    else (.missing, search)
  | first :: _ => applyExplicit resolver name first (rules.merged name) search

/-- The candidates for a name, if it may borrow a recipe. -/
def attemptBorrowed (rules : RuleSet) (resolver : List Nat → Resolver) (chain : List Nat)
    (name : String) (search : Search) : Attempt × Search :=
  if (rules.merged name).mayBorrow then
    tryCandidates (fun index => resolver (chain ++ [index])) name (rules.merged name).prereqs
      (rules.merged name).attributes (candidates rules.patterns name chain) search
  else (.missing, search)

section Attempts

variable {rules : RuleSet} {available : String → Bool} {resolver : List Nat → Resolver}
  {chain : List Nat} {name : String} {search : Search}

/-- **An attempt tries the candidates, and then what the name has of its own.** -/
theorem attemptName_eq :
    attemptName rules available resolver chain name search =
      match attemptBorrowed rules resolver chain name search with
      | (.missing, search) => attemptOwn rules available (resolver chain) name search
      | ended => ended := by
  unfold attemptName attemptBorrowed attemptOwn RuleSet.merged
  split
  · next unruled =>
    rw [unruled]
    rfl
  · next first others ruled =>
    rw [ruled]
    unfold attemptExplicit
    split
    · rfl
    · rfl

/-- A node that an attempt gives is that of a candidate, or the name's own one when there is no
candidate that can be made. -/
theorem attemptName_node {node : Node} {after : Search}
    (attempted : attemptName rules available resolver chain name search = (.node node, after)) :
    attemptBorrowed rules resolver chain name search = (.node node, after) ∨
      ∃ middle, attemptBorrowed rules resolver chain name search = (.missing, middle) ∧
        attemptOwn rules available (resolver chain) name middle = (.node node, after) := by
  rw [attemptName_eq] at attempted
  split at attempted
  · next middle borrowed => exact Or.inr ⟨middle, borrowed, attempted⟩
  · exact Or.inl attempted

end Attempts

/-! ### What an attempt asks for -/

/-- **While a name is looked for, another one is asked for**, in a state that the search has
reached. -/
inductive Asks (rules : RuleSet) (deeper : List Nat → Resolver) (chain : List Nat) (name : String)
    (search : Search) : Option Nat → String → Search → Prop
  /-- A candidate needs it. -/
  | candidate {candidate : Candidate} {start reached : Search} {prereq : String} :
      (rules.merged name).mayBorrow = true →
      CandidateTurn (fun index => deeper (chain ++ [index])) name (rules.merged name).prereqs
        (rules.merged name).attributes (candidates rules.patterns name chain) search candidate
        start →
      (deeper (chain ++ [candidate.index])).Turn (candidate.prereqs (rules.merged name).prereqs)
        (start.note (candidate.trial name (rules.merged name).prereqs)) prereq reached →
      Asks rules deeper chain name search (some candidate.index) prereq reached
  /-- The explicit rules need it, and nothing has come of the candidates. -/
  | own {middle reached : Search} {prereq : String} : rules.rulesFor name ≠ [] →
      attemptBorrowed rules deeper chain name search = (.missing, middle) →
      (deeper chain).Turn (rules.merged name).prereqs middle prereq reached →
      Asks rules deeper chain name search none prereq reached

theorem Asks.calls {rules : RuleSet} {deeper : List Nat → Resolver} {chain : List Nat}
    {name prereq : String} {search reached : Search} {rule : Option Nat}
    (asks : Asks rules deeper chain name search rule prereq reached) :
    Calls rules chain name (chain ++ rule.toList) prereq := by
  cases asks with
  | candidate borrows turn prereqTurn => exact .pattern borrows turn.mem prereqTurn.mem
  | own ruled _ turn =>
    rw [Option.toList_none, List.append_nil]
    exact .explicit ruled turn.mem

/-! ### Names that are not made -/

/-- If not all of some names are made, one of them is not made by every search. -/
theorem exists_not_makes {resolver : Resolver} {names : List String} {search after : Search}
    (resolved : resolveAll resolver names search = (.unmade, after)) :
    ∃ name ∈ names, ¬ resolver.Makes name := by
  by_contra all
  push Not at all
  obtain ⟨made, result⟩ := resolveAll_made all search
  rw [resolved] at result
  cases result

/-- The candidates before the chosen one cannot be made: not all of their prerequisites are. -/
def PassedOver (resolver : Nat → Resolver) (extra : List String) (candidate : Candidate) : Prop :=
  ∃ prereq ∈ candidate.prereqs extra, ¬ (resolver candidate.index).Makes prereq

/-- **What has been done when a candidate is chosen**: those before it were passed over, and then
its prerequisites were all resolved, from a search of which a property holds. -/
inductive Chosen (holds : Search → Prop) (resolver : Nat → Resolver) (name : String)
    (extra : List String) (attributes : Attributes) (found : List Candidate) :
    Node → Search → Prop
  | intro {before rest : List Candidate} {candidate : Candidate} {middle last : Search}
      (place : found = before ++ candidate :: rest)
      (passed : ∀ earlier ∈ before, PassedOver resolver extra earlier)
      (held : holds middle)
      (resolved : resolveAll (resolver candidate.index) (candidate.prereqs extra)
        (middle.note (candidate.trial name extra)) = (.made, last)) :
      Chosen holds resolver name extra attributes found (candidate.node name extra attributes)
        (last.note (.chosen name candidate.rule.target candidate.found.stem))

/-- If no candidate is chosen, all have been passed over. -/
theorem tryCandidates_missing {resolver : Nat → Resolver} {name : String} {extra : List String}
    {attributes : Attributes} {found : List Candidate} {search after : Search}
    (tried : tryCandidates resolver name extra attributes found search = (.missing, after)) :
    ∀ candidate ∈ found, PassedOver resolver extra candidate := by
  induction found generalizing search with
  | nil => exact fun candidate member => by cases member
  | cons first rest ih =>
    unfold tryCandidates at tried
    dsimp only at tried
    split at tried
    · cases tried
    · next middle resolved =>
      intro candidate member
      rcases List.mem_cons.mp member with rfl | later
      · exact exists_not_makes resolved
      · exact ih tried candidate later
    · cases tried

/-! ### What resolving names keeps -/

/-- A search for a name keeps a property of searches. -/
def Resolver.Keeps (holds : Search → Prop) (resolver : Resolver) (name : String) : Prop :=
  ∀ search, holds search → holds (resolver name search).2

section Keeps

variable {holds : Search → Prop}

theorem resolveAll_keeps {resolver : Resolver} {names : List String}
    (keeps : ∀ name ∈ names, resolver.Keeps holds name) {search : Search}
    (begun : holds search) : holds (resolveAll resolver names search).2 :=
  resolveAll_keeps_turn (fun name reached turn => keeps name turn.mem reached) begun

variable (noted : ∀ {search : Search} (decision : Decision), holds search →
  holds (search.note decision))

include noted

/-- **What has been done when a candidate is chosen**, if a property is kept until then. -/
theorem tryCandidates_node {resolver : Nat → Resolver} {extra : List String}
    {found : List Candidate}
    (keeps : ∀ candidate ∈ found, ∀ prereq ∈ candidate.prereqs extra,
      (resolver candidate.index).Keeps holds prereq)
    {name : String} {attributes : Attributes} {search after : Search} {node : Node}
    (begun : holds search)
    (tried : tryCandidates resolver name extra attributes found search = (.node node, after)) :
    Chosen holds resolver name extra attributes found node after := by
  induction found generalizing search with
  | nil => cases tried
  | cons candidate rest ih =>
    unfold tryCandidates at tried
    dsimp only at tried
    split at tried
    · next last resolved =>
      obtain ⟨chosen, rfl⟩ := Prod.mk.inj tried
      obtain rfl := Attempt.node.inj chosen
      exact .intro (List.nil_append _).symm (fun earlier none => by cases none) begun resolved
    · next last resolved =>
      have kept : holds last := by
        have resolves := resolveAll_keeps (keeps candidate List.mem_cons_self)
          (noted (.trying name candidate.rule.target candidate.rule.body.location
            (candidate.prereqs extra)) begun)
        rwa [resolved] at resolves
      obtain @⟨before, later, chosen, middle, last, place, passed, held, chosenResolved⟩ :=
        ih (fun other later => keeps other (List.mem_cons_of_mem candidate later))
          (noted _ kept) tried
      have shifted : candidate :: rest = (candidate :: before) ++ chosen :: later := by
        rw [place]
        rfl
      refine .intro shifted ?_ held chosenResolved
      intro earlier member
      rcases List.mem_cons.mp member with rfl | later
      · exact exists_not_makes resolved
      · exact passed earlier later
    · cases tried

end Keeps

/-! ### What attempts keep -/

section Search

variable {rules : RuleSet} {available : String → Bool} {holds : Search → Prop}

section Attempt

variable {resolver : List Nat → Resolver} {chain : List Nat} {name : String} {search : Search}

section Asked

variable
  (noted : ∀ {search : Search} (decision : Decision),
    (∀ name cycle, decision ≠ .cycleRejected name cycle) → holds search →
      holds (search.note decision))
  (keeps : ∀ rule prereq reached, Asks rules resolver chain name search rule prereq reached →
    holds reached → holds (resolver (chain ++ rule.toList) prereq reached).2)

include noted keeps

theorem attemptBorrowed_keeps (begun : holds search) :
    holds (attemptBorrowed rules resolver chain name search).2 := by
  unfold attemptBorrowed
  split
  · next borrows =>
    exact tryCandidates_keeps_turn noted (fun candidate start turn prereq reached prereqTurn =>
      keeps _ prereq reached (.candidate borrows turn prereqTurn)) begun
  · exact begun

theorem attemptOwn_keeps {middle : Search}
    (missing : attemptBorrowed rules resolver chain name search = (.missing, middle))
    (begun : holds middle) : holds (attemptOwn rules available (resolver chain) name middle).2 := by
  unfold attemptOwn
  split
  · split
    · exact noted _ (by simp) begun
    · exact begun
  · next first others ruled =>
    have ruled' : rules.rulesFor name ≠ [] := by
      rw [ruled]
      exact List.cons_ne_nil first others
    have resolved : holds (resolveAll (resolver chain) (rules.merged name).prereqs middle).2 := by
      refine resolveAll_keeps_turn (fun prereq reached turn held => ?_) begun
      have kept := keeps none prereq reached (.own ruled' missing turn) held
      rwa [Option.toList_none, List.append_nil] at kept
    unfold applyExplicit
    generalize resolveAll (resolver chain) (rules.merged name).prereqs middle = result at resolved
    obtain ⟨outcome, after⟩ := result
    cases outcome with
    | made => exact noted _ (by simp) resolved
    | unmade => exact resolved
    | cycle names => exact resolved

variable (available) in
/-- **What the searches keep that an attempt asks for, and every decision by which no cycle is given
up, the attempt keeps.** -/
theorem attemptName_keeps_asks (begun : holds search) :
    holds (attemptName rules available resolver chain name search).2 := by
  have borrowed := attemptBorrowed_keeps noted keeps begun
  rw [attemptName_eq]
  split
  · next middle missing =>
    rw [missing] at borrowed
    exact attemptOwn_keeps noted keeps missing borrowed
  · exact borrowed

end Asked

variable (noted : ∀ {search : Search} (decision : Decision), holds search →
    holds (search.note decision))
  (keeps : ∀ inner prereq, Calls rules chain name inner prereq →
    (resolver inner).Keeps holds prereq)

include noted keeps

variable (available) in
/-- **What resolving names and noting decisions keeps, an attempt keeps.** -/
theorem attemptName_keeps (begun : holds search) :
    holds (attemptName rules available resolver chain name search).2 :=
  attemptName_keeps_asks available (fun decision _ => noted decision)
    (fun _ prereq reached asks => keeps _ prereq asks.calls reached) begun

/-- **What has been done when an attempt gives a node with a rule for targets of a common form.** -/
theorem attemptName_chosen {after : Search} {node : Node} {index : Nat}
    (begun : holds search)
    (attempted : attemptName rules available resolver chain name search = (.node node, after))
    (origin : node.origin = .pattern index) :
    (rules.merged name).mayBorrow = true ∧
      Chosen holds (fun index => resolver (chain ++ [index])) name (rules.merged name).prereqs
        (rules.merged name).attributes (candidates rules.patterns name chain) node after := by
  rcases attemptName_node attempted with borrowed | ⟨middle, -, own⟩
  · unfold attemptBorrowed at borrowed
    split at borrowed
    · next borrows =>
      exact ⟨borrows, tryCandidates_node noted
        (fun candidate member prereq needed => keeps _ prereq (.pattern borrows member needed))
        begun borrowed⟩
    · cases borrowed
  · -- What a name has of its own is a file, or its explicit rules.
    unfold attemptOwn at own
    split at own
    · split at own
      · obtain ⟨found, -⟩ := Prod.mk.inj own
        obtain rfl := Attempt.node.inj found
        cases origin
      · cases own
    · unfold applyExplicit at own
      split at own
      · obtain ⟨found, -⟩ := Prod.mk.inj own
        obtain rfl := Attempt.node.inj found
        cases origin
      · cases own
      · cases own

end Attempt

/-- A rule that is in use on the way makes no node. -/
theorem attemptName_unused {resolver : List Nat → Resolver} {chain : List Nat} {name : String}
    {search after : Search} {node : Node} {index : Nat}
    (attempted : attemptName rules available resolver chain name search = (.node node, after))
    (origin : node.origin = .pattern index) : index ∉ chain := by
  have chosen : Chosen (fun _ => True) (fun index => resolver (chain ++ [index])) name
      (rules.merged name).prereqs (rules.merged name).attributes
      (candidates rules.patterns name chain) node after :=
    (attemptName_chosen (fun _ _ => trivial) (fun _ _ _ _ _ => trivial) trivial attempted origin).2
  cases chosen with
  | @intro before rest candidate _ _ place =>
    obtain rfl : candidate.index = index := Origin.pattern.inj origin
    have member : candidate ∈ candidates rules.patterns name chain :=
      place ▸ List.mem_append_right before List.mem_cons_self
    exact (of_mem_candidates member).2.2.1

/-! ### The whole search -/

variable {way : List String → List Nat → String → Prop}

/-- **A property of searches that adding the nodes of attempts keeps**, on all ways that satisfy a
condition; a way is given by the names that are being resolved, the places of the rules in use, and
the name that is resolved next. -/
structure Keeping (rules : RuleSet) (available : String → Bool)
    (way : List String → List Nat → String → Prop) (holds : Search → Prop) : Prop where
  noted : ∀ {search : Search} (decision : Decision), holds search → holds (search.note decision)
  failing : ∀ {search : Search} (failure : Option BuildError), holds search →
    holds { search with failure := failure }
  called : ∀ {stack : List String} {chain inner : List Nat} {name prereq : String},
    way stack chain name → name ∉ stack → Calls rules chain name inner prereq →
      way (stack ++ [name]) inner prereq
  added : ∀ {depth : Nat} {stack : List String} {chain : List Nat} {name : String}
    {search after : Search} {node : Node}, way stack chain name → name ∉ stack →
      room rules stack chain ≤ depth →
      (∀ inner prereq, Calls rules chain name inner prereq →
        (resolve rules available depth (stack ++ [name]) inner).Keeps holds prereq) →
      holds search →
      attemptName rules available (resolve rules available depth (stack ++ [name])) chain name
        search = (.node node, after) →
      holds after → holds (after.add node)

/-- **The search for one name keeps such a property.** -/
theorem Keeping.resolve (keeping : Keeping rules available way holds) {depth : Nat}
    {stack : List String} {chain : List Nat} {name : String} (onWay : way stack chain name)
    (enough : room rules stack chain < depth) :
    (resolve rules available depth stack chain).Keeps holds name := by
  induction depth generalizing stack chain name with
  | zero => omega
  | succ depth ih =>
    intro search begun
    unfold BuildSystem.resolve
    split
    · exact begun
    · split
      · dsimp only
        split
        · exact begun
        · exact keeping.failing _ (keeping.noted _ begun)
      · next unrepeated =>
        have fresh : name ∉ stack := mt List.contains_iff_mem.mpr unrepeated
        have deeper : ∀ inner prereq, Calls rules chain name inner prereq →
            (BuildSystem.resolve rules available depth (stack ++ [name]) inner).Keeps holds
              prereq := fun inner prereq calls =>
          ih (keeping.called onWay fresh calls)
            (Nat.lt_of_lt_of_le (calls.room_lt fresh) (Nat.le_of_lt_succ enough))
        have attempted := attemptName_keeps available keeping.noted deeper
          (keeping.failing none begun)
        dsimp only
        generalize attempts : attemptName rules available _ chain name _ = result at attempted
        obtain ⟨attempt, after⟩ := result
        cases attempt with
        | node node =>
          exact keeping.added onWay fresh (Nat.le_of_lt_succ enough) deeper
            (keeping.failing none begun) attempts attempted
        | cycle names => exact attempted
        | missing =>
          unfold conclude
          dsimp only
          split
          · exact attempted
          · exact keeping.failing _ (keeping.noted _ attempted)

/-- The search for several names in turn keeps it too. -/
theorem Keeping.resolveAll (keeping : Keeping rules available way holds) {depth : Nat}
    {stack : List String} {chain : List Nat} {names : List String}
    (onWay : ∀ name ∈ names, way stack chain name) (enough : room rules stack chain < depth)
    {search after : Search} {outcome : Outcome}
    (resolved : BuildSystem.resolveAll (BuildSystem.resolve rules available depth stack chain) names
      search = (outcome, after)) (begun : holds search) : holds after := by
  have kept :=
    resolveAll_keeps (fun name needed => keeping.resolve (onWay name needed) enough) begun
  rwa [resolved] at kept

/-- The search for a request keeps it too. -/
theorem Keeping.resolveRoots (keeping : Keeping rules available way holds) {roots : List String}
    (onWay : ∀ root ∈ roots, way [] [] root) {search : Search} (begun : holds search) :
    holds (resolveRoots rules available roots search).2 := by
  induction roots generalizing search with
  | nil => exact begun
  | cons root rest ih =>
    have first := keeping.resolve (onWay root List.mem_cons_self)
      (room_lt_resolutionDepth rules [] []) _ (keeping.failing none begun)
    unfold BuildSystem.resolveRoots
    dsimp only
    split
    · next after result =>
      rw [result] at first
      exact ih (fun other later => onWay other (List.mem_cons_of_mem root later)) first
    · next after result =>
      rw [result] at first
      exact first
    · next names after result =>
      rw [result] at first
      exact first

variable (available) in
/-- Decisions are only added to the trace. -/
theorem trace_keeping (start : List Decision) :
    Keeping rules available (fun _ _ _ => True) fun search => start <+: search.trace where
  noted := fun _ held => held.trans (List.prefix_append _ _)
  failing := fun _ held => held
  called := fun _ _ _ => trivial
  added := fun _ _ _ _ _ _ held => held

end Search

end BuildSystem
