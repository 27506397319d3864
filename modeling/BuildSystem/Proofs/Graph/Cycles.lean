/-
**Cycles that are raised, and cycles that are given up.**

Where a way leads back to one of its names, the search for that name is either given up or ends the
whole request with an error.  A rule for targets of a common form that is in use anywhere on the way
decides it, also one that leads to the cycle and is no part of it.

* `Asks.traced`, `Visits.traced` — what is decided while a name is looked for stays on record.
* `Search.Accounted`, `Visits.accounted`, `resolveRoots_accounted` — each cycle that is given up on
  record is that of a name which the way to it leads back to.
* `Visits.raises` — a cycle that ends the search for one name ends the request.
* `build_rejects_or_raises` — a cycle is given up exactly if a rule for targets of a common form is
  in use on the way, and otherwise it is the error of the request.
* `not_raisesExplicitCycles` — so a cycle of explicit rules may be given up.
-/

import BuildSystem.Proofs.Graph.Errors

namespace BuildSystem

/-! ### What stays on record -/

/-- A search for single names only adds to the trace. -/
def Resolver.Records (resolver : Resolver) : Prop :=
  ∀ name search, search.trace <+: (resolver name search).2.trace

section Record

variable {rules : RuleSet} {available : String → Bool} {search reached start : Search}

theorem lookUp_records (rules : RuleSet) (available : String → Bool) (stack : List String)
    (chain : List Nat) : (lookUp rules available stack chain).Records := fun _ search =>
  (trace_keeping available search.trace).resolve trivial
    (room_lt_resolutionDepth rules stack chain) search List.prefix_rfl

theorem resolveAll_records {resolver : Resolver} (records : resolver.Records)
    (names : List String) (search : Search) :
    search.trace <+: (resolveAll resolver names search).2.trace :=
  @resolveAll_keeps (fun found => search.trace <+: found.trace) resolver names
    (fun name _ _ held => held.trans (records name _)) search List.prefix_rfl

theorem tryCandidates_records {resolver : Nat → Resolver}
    (records : ∀ index, (resolver index).Records) (name : String) (extra : List String)
    (attributes : Attributes) (found : List Candidate) (search : Search) :
    search.trace <+: (tryCandidates resolver name extra attributes found search).2.trace :=
  @tryCandidates_keeps_turn (fun found => search.trace <+: found.trace) search resolver name extra
    attributes found (fun _ _ held => held.trans (List.prefix_append _ _))
    (fun candidate _ _ prereq _ _ held => held.trans (records candidate.index prereq _))
    List.prefix_rfl

/-- What is on record when the turn of a name is over stays there. -/
theorem Resolver.Turn.traced {resolver : Resolver} {names : List String} {name : String}
    (records : resolver.Records) (turn : resolver.Turn names search name reached) :
    (resolver name reached).2.trace <+: (resolveAll resolver names search).2.trace := by
  by_cases made : (resolver name reached).1 = .made
  · obtain ⟨front, back, rfl, resolved⟩ := turn
    rw [resolveAll_append, resolved]
    dsimp only
    rw [resolveAll]
    rcases ended : resolver name reached with ⟨outcome, after⟩
    rw [ended] at made
    obtain rfl : outcome = .made := made
    exact resolveAll_records records back after
  · exact turn.ends made ▸ List.prefix_rfl

/-- What is on record when the prerequisites of a candidate are resolved stays there. -/
theorem CandidateTurn.traced {resolver : Nat → Resolver} {name : String} {extra : List String}
    {attributes : Attributes} {found : List Candidate} {candidate : Candidate}
    (records : ∀ index, (resolver index).Records)
    (turn : CandidateTurn resolver name extra attributes found search candidate start) :
    (resolveAll (resolver candidate.index) (candidate.prereqs extra)
      (start.note (candidate.trial name extra))).2.trace <+:
        (tryCandidates resolver name extra attributes found search).2.trace := by
  obtain ⟨before, rest, rfl, missing⟩ := turn
  rw [tryCandidates_append, missing]
  dsimp only
  rcases resolved : resolveAll (resolver candidate.index) (candidate.prereqs extra)
    (start.note (candidate.trial name extra)) with ⟨outcome, after⟩
  unfold Candidate.trial at resolved
  simp only [tryCandidates, resolved]
  cases outcome with
  | made => exact List.prefix_append _ _
  | unmade =>
    exact (List.prefix_append after.trace _).trans
      (tryCandidates_records records name extra attributes rest
        (after.note (.rejected name candidate.rule.target)))
  | cycle names => exact List.prefix_rfl

section Asks

variable {deeper : List Nat → Resolver} {chain : List Nat} {name prereq : String}
  {rule : Option Nat}

theorem attemptBorrowed_traced (rules : RuleSet) (available : String → Bool)
    (records : ∀ chain, (deeper chain).Records) (chain : List Nat) (name : String)
    (search : Search) :
    (attemptBorrowed rules deeper chain name search).2.trace <+:
      (attemptName rules available deeper chain name search).2.trace := by
  rw [attemptName_eq]
  split
  · next middle missing =>
    rw [missing]
    exact @attemptOwn_keeps rules available (fun found => middle.trace <+: found.trace) deeper chain
      name search (fun _ _ held => held.trans (List.prefix_append _ _))
      (fun _ prereq _ _ held => held.trans (records _ prereq _)) middle missing List.prefix_rfl
  · exact List.prefix_rfl

/-- **What is decided while a name is asked for stays on record.** -/
theorem Asks.traced (records : ∀ chain, (deeper chain).Records)
    (asks : Asks rules deeper chain name search rule prereq reached) :
    (deeper (chain ++ rule.toList) prereq reached).2.trace <+:
      (attemptName rules available deeper chain name search).2.trace := by
  cases asks with
  | candidate borrows turn prereqTurn =>
    have borrowed := attemptBorrowed_traced rules available records chain name search
    unfold attemptBorrowed at borrowed
    rw [if_pos borrows] at borrowed
    exact (prereqTurn.traced (records _)).trans
      ((turn.traced fun index => records (chain ++ [index])).trans borrowed)
  | @own middle _ _ ruled borrowed turn =>
    have applied : (resolveAll (deeper chain) (rules.merged name).prereqs middle).2.trace <+:
        (attemptOwn rules available (deeper chain) name middle).2.trace := by
      obtain ⟨first, others, own⟩ := List.exists_cons_of_ne_nil ruled
      unfold attemptOwn applyExplicit
      simp only [own]
      rcases resolveAll (deeper chain) (rules.merged name).prereqs middle with ⟨outcome, after⟩
      cases outcome with
      | made => exact List.prefix_append _ _
      | unmade => exact List.prefix_rfl
      | cycle names => exact List.prefix_rfl
    rw [Option.toList_none, List.append_nil, attemptName_eq, borrowed]
    exact (turn.traced (records chain)).trans applied

end Asks

theorem conclude_traced (stack : List String) (name : String) (result : Attempt × Search) :
    result.2.trace <+: (conclude stack name result).2.trace := by
  obtain ⟨attempt, after⟩ := result
  cases attempt with
  | node node => exact List.prefix_rfl
  | cycle names => exact List.prefix_rfl
  | missing =>
    unfold conclude
    dsimp only
    split
    · exact List.prefix_rfl
    · exact List.prefix_append _ _

theorem resolveRoots_traced {before after : List String} {root : String}
    (resolved : resolveRoots rules available before search = (.ok (), reached)) :
    (Way.lookUp rules available [] root { reached with failure := none }).2.trace <+:
      (resolveRoots rules available (before ++ root :: after) search).2.trace := by
  rw [resolveRoots_append, resolved]
  dsimp only
  rw [resolveRoots_cons]
  rcases Way.lookUp rules available [] root { reached with failure := none } with ⟨outcome, last⟩
  cases outcome with
  | made =>
    exact (trace_keeping available last.trace).resolveRoots (fun _ _ => trivial) List.prefix_rfl
  | unmade => exact List.prefix_rfl
  | cycle names => exact List.prefix_rfl

theorem build_traced (rules : RuleSet) (available : String → Bool) (targets : List String) :
    (resolveRoots rules available (rules.requested targets) {}).2.trace <+:
      (Graph.build rules available targets).2 := by
  by_cases asked : rules.requested targets = []
  · rw [asked]
    exact List.nil_prefix
  · rw [build_of_asked available asked]
    rcases resolveRoots rules available (rules.requested targets) {} with ⟨outcome, after⟩
    cases outcome with
    | error error => exact List.prefix_rfl
    | ok => exact List.prefix_append _ _

/-- **What is decided while a name is looked for stays on record.** -/
theorem Visits.traced {targets : List String} {way : List Step} {name : String}
    (visits : Visits rules available (rules.requested targets) way name search) :
    (Way.lookUp rules available way name search).2.trace <+:
      (Graph.build rules available targets).2 := by
  induction visits with
  | @root before after root reached split resolved =>
    have rooted := @resolveRoots_traced rules available {} reached before after root resolved
    rw [← split] at rooted
    exact rooted.trans (build_traced rules available targets)
  | @prereq way name prereq search reached rule _ unknown fresh asks ih =>
    rw [Way.lookUp, lookUp_entered unknown fresh] at ih
    rw [Way.lookUp_concat]
    have asked := @Asks.traced rules available { search with failure := none } reached
      (lookUp rules available (Way.names way ++ [name])) (Way.used way) name prereq rule
      (lookUp_records rules available (Way.names way ++ [name])) asks
    exact asked.trans ((conclude_traced _ _ _).trans ih)

end Record

/-! ### Cycles that are given up -/

/-- **A name is given up for a cycle**: the way to it leads back to it, and a rule for targets of a
common form is in use on the way. -/
def GivenUp (rules : RuleSet) (available : String → Bool) (roots : List String) (name : String)
    (cycle : List String) : Prop :=
  ∃ way search, Visits rules available roots way name search ∧ name ∈ Way.names way ∧
    cycle = cycleFrom (Way.names way) name ∧ ∃ step ∈ way, step.rule ≠ none

/-- Every cycle that is given up on record is accounted for. -/
def Search.Accounted (rules : RuleSet) (available : String → Bool) (roots : List String)
    (search : Search) : Prop :=
  ∀ name cycle, .cycleRejected name cycle ∈ search.trace →
    GivenUp rules available roots name cycle

section Accounted

variable {rules : RuleSet} {available : String → Bool} {roots : List String} {search : Search}

theorem Search.Accounted.note (held : search.Accounted rules available roots)
    {decision : Decision}
    (accounted : ∀ name cycle, decision = .cycleRejected name cycle →
      GivenUp rules available roots name cycle) :
    (search.note decision).Accounted rules available roots := by
  intro name cycle member
  rcases List.mem_append.mp member with old | new
  · exact held name cycle old
  · exact accounted name cycle (List.mem_singleton.mp new).symm

theorem Search.Accounted.conclude {stack : List String} {name : String}
    {result : Attempt × Search} (held : result.2.Accounted rules available roots) :
    (conclude stack name result).2.Accounted rules available roots := by
  obtain ⟨attempt, after⟩ := result
  cases attempt with
  | node node => exact held
  | cycle names => exact held
  | missing =>
    unfold BuildSystem.conclude
    dsimp only
    split
    · exact held
    · exact held.note (by simp)

/-- The search for a name gives up no other cycles. -/
theorem Visits.accounted {way : List Step} {name : String}
    (visits : Visits rules available roots way name search)
    (held : search.Accounted rules available roots) :
    (Way.lookUp rules available way name search).2.Accounted rules available roots := by
  induction visits using Visits.rec_room with
  | @step way name search visits ih =>
    cases unknown : search.knows name with
    | true =>
      rw [Way.lookUp, lookUp_known unknown]
      exact held
    | false =>
      by_cases onWay : name ∈ Way.names way
      · by_cases explicit : ∀ step ∈ way, step.rule = none
        · rw [Way.lookUp_cycle unknown onWay explicit]
          exact held
        · push Not at explicit
          rw [Way.lookUp_rejected unknown onWay explicit]
          refine Search.Accounted.note held fun other cycle rejected => ?_
          obtain ⟨rfl, rfl⟩ := Decision.cycleRejected.inj rejected
          exact ⟨way, search, visits, onWay, rfl, explicit⟩
      · rw [Way.lookUp, lookUp_entered unknown onWay]
        refine Search.Accounted.conclude (attemptName_keeps_asks available ?_ ?_ ?_)
        · exact fun decision ordinary held =>
            held.note fun name cycle same => absurd same (ordinary name cycle)
        · intro rule prereq reached asks held
          have accounted := ih (visits.prereq unknown onWay asks) onWay asks held
          rwa [Way.lookUp_concat] at accounted
        · exact held

theorem resolveRoots_accounted {before rest : List String} {reached : Search}
    (split : roots = before ++ rest)
    (resolved : resolveRoots rules available before {} = (.ok (), reached))
    (held : reached.Accounted rules available roots) :
    (resolveRoots rules available rest reached).2.Accounted rules available roots := by
  induction rest generalizing before reached with
  | nil => exact held
  | cons root rest ih =>
    have visits : Visits rules available roots [] root { reached with failure := none } :=
      .root split resolved
    have accounted := visits.accounted held
    rw [resolveRoots_cons]
    rcases result : Way.lookUp rules available [] root { reached with failure := none } with
      ⟨outcome, after⟩
    rw [result] at accounted
    cases outcome with
    | made =>
      have split' : roots = (before ++ [root]) ++ rest := by
        rw [split, List.append_assoc]
        rfl
      refine ih split' ?_ accounted
      rw [resolveRoots_append, resolved]
      dsimp only
      rw [resolveRoots_cons, result]
      rfl
    | unmade => exact accounted
    | cycle names => exact accounted

end Accounted

/-! ### Cycles that are raised -/

section Raised

variable {rules : RuleSet} {available : String → Bool} {targets cycle : List String}

/-- A cycle that ends the search for a requested name ends the request. -/
theorem build_cycle_of_root {before after : List String} {root : String} {reached last : Search}
    (split : rules.requested targets = before ++ root :: after)
    (resolved : resolveRoots rules available before {} = (.ok (), reached))
    (ended : Way.lookUp rules available [] root { reached with failure := none } =
      (.cycle cycle, last)) :
    (Graph.build rules available targets).1 = .error (.cycle cycle) := by
  have asked : rules.requested targets ≠ [] := by
    rw [split]
    simp
  rw [build_of_asked available asked, split, resolveRoots_append, resolved]
  dsimp only
  rw [resolveRoots_cons, ended]

/-- **A cycle that ends the search for a name ends the request.** -/
theorem Visits.raises {way : List Step} {name : String} {search last : Search}
    (visits : Visits rules available (rules.requested targets) way name search)
    (ended : Way.lookUp rules available way name search = (.cycle cycle, last)) :
    (Graph.build rules available targets).1 = .error (.cycle cycle) := by
  induction visits generalizing last with
  | root split resolved => exact build_cycle_of_root split resolved ended
  | @prereq way name prereq search reached rule _ unknown fresh asks ih =>
    rw [Way.lookUp_concat] at ended
    have concluded : Way.lookUp rules available way name search = (.cycle cycle, last) := by
      rw [Way.lookUp, lookUp_entered unknown fresh, asks.cycle ended]
      rfl
    exact ih concluded

end Raised

/-- Every cycle that a request gives up is accounted for. -/
theorem givenUp_of_rejected {rules : RuleSet} {available : String → Bool}
    {targets cycle : List String} {name : String}
    (rejected : .cycleRejected name cycle ∈ (Graph.build rules available targets).2) :
    GivenUp rules available (rules.requested targets) name cycle := by
  by_cases asked : rules.requested targets = []
  · rw [build_of_not_asked available asked] at rejected
    cases rejected
  · have begun : Search.Accounted rules available (rules.requested targets) {} :=
      fun name cycle member => by cases member
    have accounted := resolveRoots_accounted (List.nil_append _).symm rfl begun
    rw [build_of_asked available asked] at rejected
    rcases resolved : resolveRoots rules available (rules.requested targets) {} with
      ⟨outcome, after⟩
    rw [resolved] at accounted rejected
    cases outcome with
    | error error => exact accounted name cycle rejected
    | ok =>
      rcases List.mem_append.mp rejected with before | complete
      · exact accounted name cycle before
      · cases List.mem_singleton.mp complete

/-- **A cycle is given up exactly if a rule for targets of a common form is in use on the way**, and
otherwise it is the error of the request. -/
theorem build_rejects_or_raises (rules : RuleSet) (available : String → Bool)
    (targets : List String) :
    (∀ name cycle, .cycleRejected name cycle ∈ (Graph.build rules available targets).2 ↔
      GivenUp rules available (rules.requested targets) name cycle) ∧
    ∀ way name search, Visits rules available (rules.requested targets) way name search →
      name ∈ Way.names way → (∀ step ∈ way, step.rule = none) →
      (Graph.build rules available targets).1 =
        .error (.cycle (cycleFrom (Way.names way) name)) := by
  refine ⟨fun name cycle => ⟨givenUp_of_rejected, ?_⟩, ?_⟩
  · rintro ⟨way, search, visits, onWay, rfl, inUse⟩
    have traced := visits.traced
    rw [Way.lookUp_rejected (visits.unknown name onWay) onWay inUse] at traced
    exact traced.subset (List.mem_append_right _ (List.mem_singleton_self _))
  · intro way name search visits onWay explicit
    exact visits.raises (Way.lookUp_cycle (visits.unknown name onWay) onWay explicit)

/-- If the source is requested, only explicit rules lead back to it; if the object file is, the rule
for object files is in use too. -/
theorem build_rejects_or_raises_knotted :
    (Graph.build knottedRules (· = "main.o") ["main.c"]).1 =
        .error (.cycle ["main.c", "main.y", "main.c"]) ∧
      GivenUp knottedRules (· = "main.o") ["main.o"] "main.c" ["main.c", "main.y", "main.c"] := by
  have source : Visits knottedRules (· = "main.o") ["main.c"] [] "main.c" {} :=
    @Visits.root knottedRules (· = "main.o") ["main.c"] [] [] "main.c" {} rfl rfl
  have grammar := source.prereq rfl (by simp)
    (.own (by decide) rfl (.first _ "main.y" [] _))
  have again := grammar.prereq rfl (by simp [Way.names])
    (.own (by decide) rfl (.first _ "main.c" [] _))
  constructor
  · exact (build_rejects_or_raises knottedRules (· = "main.o") ["main.c"]).2 _ "main.c" _ again
      (by decide) (by decide)
  · exact ((build_rejects_or_raises knottedRules (· = "main.o") ["main.o"]).1 "main.c" _).mp
      (by decide)

/-! ### Cycles of explicit rules -/

/-- **Every cycle of explicit rules is raised**: if a way leads back to a name, and explicit rules
take all steps from there on, that cycle is the error of the request. -/
def RaisesExplicitCycles (rules : RuleSet) (available : String → Bool) (targets : List String) :
    Prop :=
  ∀ way name search, Visits rules available (rules.requested targets) way name search →
    name ∈ Way.names way → (∀ step ∈ way.dropWhile (·.name != name), step.rule = none) →
    (Graph.build rules available targets).1 = .error (.cycle (cycleFrom (Way.names way) name))

/-- The object file is taken as it is, since the rule for object files leads into the knot. -/
theorem build_knotted :
    (Graph.build knottedRules (· = "main.o") ["main.o"]).1 =
      .ok ⟨[{ name := "main.o", origin := .source }], ["main.o"]⟩ := by
  rfl

/-- **A cycle of explicit rules may be given up**, because of a rule that leads to it and is no part
of it. -/
theorem not_raisesExplicitCycles :
    ¬ RaisesExplicitCycles knottedRules (· = "main.o") ["main.o"] ∧
    ∃ way search,
      Visits knottedRules (· = "main.o") (knottedRules.requested ["main.o"]) way "main.c" search ∧
      "main.c" ∈ Way.names way ∧
      (∀ step ∈ way.dropWhile (·.name != "main.c"), step.rule = none) ∧
      .cycleRejected "main.c" (cycleFrom (Way.names way) "main.c") ∈
        (Graph.build knottedRules (· = "main.o") ["main.o"]).2 := by
  have object : Visits knottedRules (· = "main.o") ["main.o"] [] "main.o" {} :=
    @Visits.root knottedRules (· = "main.o") ["main.o"] [] [] "main.o" {} rfl rfl
  have source := object.prereq rfl (by simp)
    (.candidate rfl (.first _ [] _) (.first _ "main.c" [] _))
  have grammar := source.prereq rfl (by simp [Way.names])
    (.own (by decide) rfl (.first _ "main.y" [] _))
  have again := grammar.prereq rfl (by simp [Way.names])
    (.own (by decide) rfl (.first _ "main.c" [] _))
  refine ⟨fun raises => ?_, _, _, again, by decide, by decide, by decide⟩
  have raised := raises _ "main.c" _ again (by decide) (by decide)
  rw [build_knotted] at raised
  cases raised

end BuildSystem
