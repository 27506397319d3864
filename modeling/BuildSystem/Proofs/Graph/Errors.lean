/-
**Why a request has no graph.**

An error of a request is that of the last name on one of the ways that are followed.  So it is a
true report: nothing could have made the name that it gives, or the names of the cycle do need each
other.

* `errorOf`, `Stopped` — the error of a name that is not made, and the two ways in which a search
  stops.
* `StopsOn`, `Visits.stops` — a name that is not made leads on to one where the search stops.
* `resolveRoots_cons`, `resolveRoots_append`, `exists_failed_root` — requested names in order, up to the one that fails.
* `build_stops` — what an error of a request comes from.
* `build_noRule` — a name that nothing makes is needed by a requested one, and every rule that fits
  it is in use on the way there.
* `MayNeed`, `cycleFrom_eq`, `build_cycle` — a cycle that is reported is one.
-/

import BuildSystem.Proofs.Graph.Visits
import Mathlib.Data.List.Chain

namespace BuildSystem

/-! ### Where a search stops -/

/-- The error of a name that is not made. -/
def errorOf : Outcome × Search → Option BuildError
  | (.made, _) => none
  | (.unmade, search) => search.failure
  | (.cycle names, _) => some (.cycle names)

theorem errorOf_congr (outcome : Outcome) {first second : Search}
    (same : first.failure = second.failure) :
    errorOf (outcome, first) = errorOf (outcome, second) := by
  cases outcome <;> simp [errorOf, same]

/-- **A search stops at a name**: nothing at all could make it, or it is met again on the way. -/
inductive Stopped (rules : RuleSet) (available : String → Bool) (way : List Step)
    (target : String) : BuildError → Prop
  | noRule : target ∉ Way.names way → rules.rulesFor target = [] →
      candidates rules.patterns target (Way.used way) = [] → available target = false →
      Stopped rules available way target (.noRule target (Way.names way).getLast?)
  | cycle : target ∈ Way.names way →
      Stopped rules available way target (.cycle (cycleFrom (Way.names way) target))

section Stops

variable {rules : RuleSet} {available : String → Bool} {roots : List String}

/-- An attempt that has met its reason is concluded as it ended. -/
theorem conclude_of_failure {stack : List String} {name : String} {result : Attempt × Search}
    (unmade : result.1.outcome ≠ .made)
    (met : result.1 = .missing → result.2.failure.isSome = true) :
    conclude stack name result = (result.1.outcome, result.2) := by
  obtain ⟨attempt, after⟩ := result
  cases attempt with
  | node node => exact absurd rfl unmade
  | missing =>
    unfold conclude
    dsimp only
    rw [if_pos (met rfl)]
    rfl
  | cycle names => rfl

/-- **A search has stopped on a way, or further on**, and that is the reason which is reported.  If
no cycle of explicit rules has ended the search, only names without explicit rules are left by a rule
for targets of a common form on the rest of the way there. -/
def StopsOn (rules : RuleSet) (available : String → Bool) (roots : List String) (way : List Step)
    (result : Outcome × Search) : Prop :=
  ∃ more target reached error, Visits rules available roots (way ++ more) target reached ∧
    errorOf result = some error ∧ Stopped rules available (way ++ more) target error ∧
    (result.1 = .unmade → ∀ step ∈ more, step.rule ≠ none → rules.rulesFor step.name = [])

theorem StopsOn.here {way : List Step} {name : String} {search : Search} {error : BuildError}
    {result : Outcome × Search} (visits : Visits rules available roots way name search)
    (reported : errorOf result = some error) (stopped : Stopped rules available way name error) :
    StopsOn rules available roots way result := by
  refine ⟨[], name, search, error, ?_, reported, ?_, by simp⟩
  · rwa [List.append_nil]
  · rwa [List.append_nil]

theorem StopsOn.further {way : List Step} {step : Step} {outcome : Outcome} {after last : Search}
    (stops : StopsOn rules available roots (way ++ [step]) (outcome, last))
    (kept : after.failure = last.failure)
    (bare : outcome = .unmade → step.rule ≠ none → rules.rulesFor step.name = []) :
    StopsOn rules available roots way (outcome, after) := by
  obtain ⟨more, target, reached, error, visits, reported, stopped, later⟩ := stops
  rw [List.append_assoc] at visits stopped
  refine ⟨_, target, reached, error, visits, (errorOf_congr outcome kept).trans reported, stopped,
    fun unmade other member => ?_⟩
  rcases List.mem_cons.mp member with rfl | rest
  · exact bare unmade
  · exact later unmade other rest

/-- **A name that is not made leads on to one where the search stops.** -/
theorem Visits.stops {way : List Step} {name : String} {search : Search}
    (visits : Visits rules available roots way name search)
    (unmade : (Way.lookUp rules available way name search).1 ≠ .made) :
    StopsOn rules available roots way (Way.lookUp rules available way name search) := by
  induction visits using Visits.rec_room with
  | @step way name search visits ih =>
    cases unknown : search.knows name with
    | true =>
      rw [Way.lookUp, lookUp_known unknown] at unmade
      exact absurd rfl unmade
    | false =>
      by_cases onWay : name ∈ Way.names way
      · refine .here visits ?_ (.cycle onWay)
        by_cases explicit : ∀ step ∈ way, step.rule = none
        · rw [Way.lookUp_cycle unknown onWay explicit]
          rfl
        · push Not at explicit
          rw [Way.lookUp_rejected unknown onWay explicit]
          rfl
      · rw [Way.lookUp, lookUp_entered unknown onWay] at unmade ⊢
        generalize attempted : attemptName rules available _ _ _ _ = result at unmade ⊢
        have failed : result.1.outcome ≠ .made := by
          intro made
          obtain ⟨attempt, after⟩ := result
          cases attempt with
          | node node => exact unmade rfl
          | missing => cases made
          | cycle names => cases made
        rcases attemptName_stops attempted failed with
          ⟨rule, ⟨prereq, reached, last, asks, ended, kept⟩, bare⟩ | ⟨rfl, unruled, none, absent⟩
        · -- The reason is met further on, and kept.
          have stops := ih (visits.prereq unknown onWay asks) onWay asks
          rw [Way.lookUp_concat, ended] at stops
          have going := (stops failed).further kept fun unmade =>
            bare (Attempt.outcome_eq_unmade.mp unmade)
          rwa [conclude_of_failure failed fun missing => ?_]
          obtain ⟨_, _, _, error, -, reported, -⟩ := going
          rw [missing] at reported
          exact Option.isSome_iff_exists.mpr ⟨error, reported⟩
        · exact .here visits rfl (.noRule onWay unruled none absent)

end Stops

/-! ### Requested names -/

/-- What is asked for, or else the default target. -/
def RuleSet.requested (rules : RuleSet) (targets : List String) : List String :=
  if targets.isEmpty then rules.defaultTargets else targets

section Requests

variable {rules : RuleSet} {available : String → Bool} {roots targets : List String}
  {error : BuildError}

/-- Requested names in order: each is looked for on a way of its own. -/
theorem resolveRoots_cons (rules : RuleSet) (available : String → Bool) (root : String)
    (rest : List String) (search : Search) :
    resolveRoots rules available (root :: rest) search =
      match Way.lookUp rules available [] root { search with failure := none } with
      | (.made, search) => resolveRoots rules available rest search
      | (.unmade, search) => (.error (search.failure.getD (.noRule root none)), search)
      | (.cycle names, search) => (.error (.cycle names), search) :=
  rfl

/-- Requested names in order: the second part is resolved if the first one is made. -/
theorem resolveRoots_append (rules : RuleSet) (available : String → Bool)
    (first second : List String) (search : Search) :
    resolveRoots rules available (first ++ second) search =
      match resolveRoots rules available first search with
      | (.ok (), search) => resolveRoots rules available second search
      | failed => failed := by
  induction first generalizing search with
  | nil => rfl
  | cons root rest ih =>
    rw [List.cons_append, resolveRoots_cons, resolveRoots_cons]
    generalize Way.lookUp _ _ _ _ _ = result
    obtain ⟨outcome, after⟩ := result
    cases outcome with
    | made => exact ih after
    | unmade => rfl
    | cycle names => rfl

/-- **If a request fails, one of the names is not made**, and those before it are. -/
theorem exists_failed_root {search after : Search}
    (failed : resolveRoots rules available roots search = (.error error, after)) :
    ∃ before root rest reached, roots = before ++ root :: rest ∧
      resolveRoots rules available before search = (.ok (), reached) ∧
      (Way.lookUp rules available [] root { reached with failure := none }).1 ≠ .made ∧
      error = (errorOf (Way.lookUp rules available [] root { reached with failure := none })).getD
        (.noRule root none) := by
  induction roots generalizing search with
  | nil => cases failed
  | cons root rest ih =>
    have unfolded := failed
    rw [resolveRoots_cons] at unfolded
    rcases result : Way.lookUp rules available [] root { search with failure := none } with
      ⟨outcome, middle⟩
    rw [result] at unfolded
    have here : outcome ≠ .made → error = (errorOf (outcome, middle)).getD (.noRule root none) →
        ∃ before root' rest' reached, root :: rest = before ++ root' :: rest' ∧
          resolveRoots rules available before search = (.ok (), reached) ∧
          (Way.lookUp rules available [] root' { reached with failure := none }).1 ≠ .made ∧
          error = (errorOf (Way.lookUp rules available [] root'
            { reached with failure := none })).getD (.noRule root' none) := by
      intro unmade reported
      refine ⟨[], root, rest, search, rfl, rfl, ?_⟩
      rw [result]
      exact ⟨unmade, reported⟩
    cases outcome with
    | made =>
      obtain ⟨before, other, later, reached, rfl, resolved, further⟩ := ih unfolded
      refine ⟨root :: before, other, later, reached, rfl, ?_, further⟩
      rw [resolveRoots_cons, result]
      exact resolved
    | unmade =>
      obtain ⟨reported, -⟩ := Prod.mk.inj unfolded
      exact here (by simp) (Except.error.inj reported).symm
    | cycle names =>
      obtain ⟨reported, -⟩ := Prod.mk.inj unfolded
      exact here (by simp) (Except.error.inj reported).symm

/-- A request for nothing, where there is no default target either. -/
theorem build_of_not_asked (available : String → Bool) (nothing : rules.requested targets = []) :
    Graph.build rules available targets = (.error (.noRule "<default>" none), []) := by
  unfold Graph.build
  exact if_pos (List.isEmpty_iff.mpr nothing)

/-- A request for some names is the search for them, and what is kept of it. -/
theorem build_of_asked (available : String → Bool) (asked : rules.requested targets ≠ []) :
    Graph.build rules available targets =
      match resolveRoots rules available (rules.requested targets) {} with
      | (.error error, search) => (.error error, search.trace)
      | (.ok (), search) =>
        let nodes := (reachableNodes (rules.requested targets) search.nodes).map
          (·.markIntermediate rules (rules.requested targets))
        (.ok ⟨nodes, rules.requested targets⟩,
          search.trace ++ [.complete nodes.length (rules.requested targets)]) := by
  unfold Graph.build
  exact if_neg (mt List.isEmpty_iff.mp asked)

/-- **What an error comes from**: a requested name leads to one where the search stops. -/
theorem build_stops (asked : rules.requested targets ≠ [])
    (failed : (Graph.build rules available targets).1 = .error error) :
    ∃ way target reached,
      Visits rules available (rules.requested targets) way target reached ∧
      Stopped rules available way target error ∧
      ((∀ cycle, error ≠ .cycle cycle) →
        ∀ step ∈ way, step.rule ≠ none → rules.rulesFor step.name = []) := by
  have unresolved : ∃ after, resolveRoots rules available (rules.requested targets) {} =
      (.error error, after) := by
    rw [build_of_asked available asked] at failed
    rcases resolved : resolveRoots rules available (rules.requested targets) {} with
      ⟨outcome, after⟩
    rw [resolved] at failed
    cases outcome with
    | error other =>
      obtain rfl := Except.error.inj failed
      exact ⟨after, rfl⟩
    | ok => cases failed
  obtain ⟨after, unresolved⟩ := unresolved
  obtain ⟨before, root, rest, reached, split, resolved, unmade, reported⟩ :=
    exists_failed_root unresolved
  have visits : Visits rules available (rules.requested targets) [] root
      { reached with failure := none } := .root split resolved
  obtain ⟨way, target, there, met, visited, errs, stopped, bare⟩ := visits.stops unmade
  rw [errs, Option.getD_some] at reported
  subst reported
  refine ⟨way, target, there, visited, stopped, fun acyclic => bare ?_⟩
  -- Explicit rules that lead in a cycle are reported as such.
  rcases ended : Way.lookUp rules available [] root { reached with failure := none } with
    ⟨outcome, last⟩
  rw [ended] at errs unmade
  cases outcome with
  | made => exact absurd rfl unmade
  | unmade => rfl
  | cycle names => exact absurd (Option.some.inj errs).symm (acyclic names)

end Requests

/-! ### Names that nothing makes -/

section NoRule

variable {rules : RuleSet}

/-- A way begins at the name that it leads from. -/
theorem Way.Leads.head {root name : String} {way : List Step}
    (leads : Way.Leads rules root way name) : (Way.names way ++ [name]).head? = some root := by
  induction leads with
  | here => rfl
  | @on way step prereq _ _ ih =>
    rw [Way.names_append, Way.names_single, List.head?_append, ih]
    rfl

/-- If there are no candidates, every rule that fits is in use. -/
theorem mem_of_candidates_eq_nil {target : String} {used : List Nat} {index : Nat}
    {rule : PatternRule} (none : candidates rules.patterns target used = [])
    (declared : rules.patterns[index]? = some rule)
    (usable : rule.body.recipe.isSome = true ∨ rule.body.attributes.forceUpdate = true)
    (fits : (rule.instance? target).isSome = true) : index ∈ used := by
  obtain ⟨found, fits⟩ := Option.isSome_iff_exists.mp fits
  by_contra unused
  have candidate := mem_candidates declared ((Bool.or_eq_true _ _).mpr usable) unused fits
  rw [none] at candidate
  cases candidate

end NoRule

/-- **A name that nothing makes is a true witness.**  It has no explicit rule and is no file, and a
way leads to it from a requested name on which every usable rule that fits it is in use.  A rule for
targets of a common form leads on only from names without explicit rules, no name occurs twice, and
the name is said to be needed by the one before it, if it is not the requested one itself. -/
theorem build_noRule (rules : RuleSet) (available : String → Bool) (targets : List String)
    (target : String) (neededBy : Option String) (asked : rules.requested targets ≠ [])
    (failed : (Graph.build rules available targets).1 = .error (.noRule target neededBy)) :
    rules.rulesFor target = [] ∧ available target = false ∧
    ∃ root ∈ rules.requested targets, ∃ way, Way.Leads rules root way target ∧
      (∀ step ∈ way, step.rule ≠ none → rules.rulesFor step.name = []) ∧
      (Way.names way ++ [target]).Nodup ∧
      (∀ index rule, rules.patterns[index]? = some rule →
        (rule.body.recipe.isSome = true ∨ rule.body.attributes.forceUpdate = true) →
        (rule.instance? target).isSome = true → index ∈ Way.used way) ∧
      neededBy = (Way.names way).getLast? ∧ (neededBy = none ↔ target = root) := by
  obtain ⟨way, last, reached, visits, stopped, bare⟩ := build_stops asked failed
  cases stopped with
  | noRule fresh unruled none absent =>
    obtain ⟨root, requested, leads⟩ := visits.leads
    have distinct : (Way.names way ++ [target]).Nodup :=
      List.nodup_append_comm.mp (List.nodup_cons.mpr ⟨fresh, visits.nodup⟩)
    refine ⟨unruled, absent, root, requested, way, leads, bare (by simp), distinct,
      fun index rule => mem_of_candidates_eq_nil none, rfl, ?_⟩
    rw [List.getLast?_eq_none_iff]
    have head := leads.head
    constructor
    · intro direct
      rw [direct] at head
      exact Option.some.inj head
    · rintro rfl
      by_contra further
      obtain ⟨first, others, names⟩ := List.exists_cons_of_ne_nil further
      rw [names] at head fresh
      obtain rfl := Option.some.inj head
      exact fresh List.mem_cons_self

/-- Only the rule that is in use already could unpack the packed file. -/
theorem build_noRule_unpack :
    unpackRules.requested ["text"] ≠ [] ∧
      (Graph.build unpackRules (fun _ => false) ["text"]).1 =
        .error (.noRule "text.gz" (some "text")) ∧
      ∃ way, Way.Leads unpackRules "text" way "text.gz" ∧ 0 ∈ Way.used way ∧
        (Way.names way).getLast? = some "text" := by
  have asked : unpackRules.requested ["text"] ≠ [] := by decide
  have failed : (Graph.build unpackRules (fun _ => false) ["text"]).1 =
      .error (.noRule "text.gz" (some "text")) := rfl
  obtain ⟨-, -, root, requested, way, leads, -, -, inUse, needed, -⟩ :=
    build_noRule _ _ _ _ _ asked failed
  obtain rfl : root = "text" := List.mem_singleton.mp requested
  exact ⟨asked, failed, way, leads, inUse 0 _ rfl (Or.inl rfl) rfl, needed.symm⟩

/-! ### Names that need each other -/

/-- **A name may need another one**: an explicit rule of it does, or a usable rule that fits it. -/
inductive MayNeed (rules : RuleSet) (name prereq : String) : Prop
  | explicit {own : ExplicitRule} : own ∈ rules.rulesFor name → prereq ∈ own.prereqs →
      MayNeed rules name prereq
  | pattern {index : Nat} {rule : PatternRule} {found : Instance} :
      rules.patterns[index]? = some rule →
      (rule.body.recipe.isSome = true ∨ rule.body.attributes.forceUpdate = true) →
      rule.instance? name = some found → prereq ∈ found.prereqs → MayNeed rules name prereq

section Cycles

variable {rules : RuleSet}

theorem Step.LeadsTo.mayNeed {step : Step} {prereq : String} (leads : step.LeadsTo rules prereq) :
    MayNeed rules step.name prereq := by
  cases leads with
  | explicit own needed => exact .explicit own needed
  | pattern declared usable fits needed =>
    rcases needed with found | ⟨own, member, needed⟩
    · exact .pattern declared usable fits found
    · exact .explicit member needed

/-- Every name on a way may need the next one. -/
theorem Way.Leads.isChain {root name : String} {way : List Step}
    (leads : Way.Leads rules root way name) :
    (Way.names way ++ [name]).IsChain (MayNeed rules) := by
  induction leads with
  | here => exact List.isChain_singleton _
  | @on way step prereq _ leadsTo ih =>
    rw [Way.names_append, Way.names_single]
    refine List.isChain_append.mpr ⟨ih, List.isChain_singleton _, fun last atEnd next first => ?_⟩
    rw [List.getLast?_concat] at atEnd
    obtain rfl := Option.some.inj atEnd
    obtain rfl := Option.some.inj first
    exact leadsTo.mayNeed

/-- A cycle is the end of the stack from a name on, and that name again. -/
theorem cycleFrom_eq {stack : List String} {name : String} (onStack : name ∈ stack) :
    ∃ front back, stack = front ++ name :: back ∧
      cycleFrom stack name = name :: (back ++ [name]) := by
  obtain ⟨front, back, rfl, fresh⟩ := List.eq_append_cons_of_mem onStack
  refine ⟨front, back, rfl, ?_⟩
  have passed : ∀ other ∈ front, (other != name) = true := by
    intro other member
    exact bne_iff_ne.mpr fun same => fresh (same ▸ member)
  unfold cycleFrom
  rw [List.dropWhile_append_of_pos passed, List.dropWhile_cons_of_neg (by simp)]
  rfl

end Cycles

/-- **A cycle that is reported is one.**  It ends with the name it begins with, no other name occurs
twice, and every name may need the next one. -/
theorem build_cycle (rules : RuleSet) (available : String → Bool) (targets cycle : List String)
    (failed : (Graph.build rules available targets).1 = .error (.cycle cycle)) :
    2 ≤ cycle.length ∧ cycle.head? = cycle.getLast? ∧ cycle.dropLast.Nodup ∧
      cycle.IsChain (MayNeed rules) := by
  have asked : rules.requested targets ≠ [] := by
    intro nothing
    rw [build_of_not_asked available nothing] at failed
    cases failed
  obtain ⟨way, last, reached, visits, stopped, -⟩ := build_stops asked failed
  cases stopped with
  | cycle onWay =>
    obtain ⟨root, -, leads⟩ := visits.leads
    obtain ⟨front, back, names, cycle⟩ := cycleFrom_eq onWay
    have whole := leads.isChain
    have distinct := visits.nodup
    rw [names, List.append_assoc] at whole
    rw [names] at distinct
    rw [cycle]
    rw [← List.cons_append]
    refine ⟨by simp, ?_, ?_, whole.right_of_append⟩
    · rw [List.getLast?_concat]
      rfl
    · rw [List.dropLast_concat]
      exact (List.nodup_append.mp distinct).2.1

/-- A rule for object files, and a source that is written from a grammar which is taken from the
source. -/
def knottedRules : RuleSet where
  rules := [
    .pattern (compileRule ".c" 1),
    .explicit {
      prereqs := ["main.y"]
      recipe := some "yacc"
      attributes := {}
      comparator := none
      location := ⟨"mkfile", 4⟩
      targets := ["main.c"] },
    .explicit {
      prereqs := ["main.c"]
      recipe := some "extract"
      attributes := {}
      comparator := none
      location := ⟨"mkfile", 7⟩
      targets := ["main.y"] }]
  values := []

/-- The rule for object files is given up for the cycle, which is reported when nothing is left. -/
theorem build_cycle_knotted :
    (Graph.build knottedRules (fun _ => false) ["main.o"]).1 =
        .error (.cycle ["main.c", "main.y", "main.c"]) ∧
      ["main.c", "main.y", "main.c"].IsChain (MayNeed knottedRules) := by
  have failed : (Graph.build knottedRules (fun _ => false) ["main.o"]).1 =
      .error (.cycle ["main.c", "main.y", "main.c"]) := rfl
  exact ⟨failed, (build_cycle _ _ _ _ failed).2.2.2⟩

end BuildSystem
