/-
**When a rule feeds itself.**

A rule for targets of a common form is left out while it is in use on the way to a name.  So the
nodes that are found meanwhile are not made by it; but a node that is there already is taken as it
is, whatever has made it.

* `Graph.NeverFeedsItself` — on no path of a graph two nodes are made by the same rule.
* `fresh_keeping` — while a rule is in use, no node is added that it makes.
* `InTurn`, `Search.Sequential` — two nodes that one rule makes are made in turn: the rule is chosen
  for the first one before it is tried for the second one.
* `build_inTurn` — so where a rule feeds itself, the lower node was there before the rule was tried
  for the upper one.
* `not_neverFeedsItself` — such graphs are built.
-/

import BuildSystem.Proofs.Graph.Attempts
import BuildSystem.Proofs.Graph.Shape

namespace BuildSystem

/-- **On no path of the graph two nodes are made by the same rule for targets of a common form.** -/
def Graph.NeverFeedsItself (graph : Graph) : Prop :=
  ∀ upper ∈ graph.nodes, ∀ lower ∈ graph.nodes,
    Relation.TransGen graph.Leads upper.name lower.name →
      ∀ index, upper.origin = .pattern index → lower.origin ≠ .pattern index

section Search

variable {rules : RuleSet} {available : String → Bool}

/-! ### While a rule is in use -/

variable (available) in
/-- **While a rule is in use, no node is added that it makes.** -/
theorem fresh_keeping (index : Nat) (known : List Node) :
    Keeping rules available (fun _ chain _ => index ∈ chain) fun search =>
      ∀ node ∈ search.nodes, node.origin = .pattern index → node ∈ known where
  noted := fun _ held => held
  failing := fun _ held => held
  called := by
    intro stack chain inner name prereq inUse _ calls
    cases calls with
    | explicit => exact inUse
    | pattern => exact List.mem_append_left _ inUse
  added := by
    intro depth stack chain name search after node inUse _ _ _ _ attempted held other member origin
    rcases List.mem_append.mp member with old | new
    · exact held other old origin
    · obtain rfl := List.mem_singleton.mp new
      exact absurd inUse (attemptName_unused attempted origin)

/-! ### Nodes that one rule makes -/

/-- **A rule makes two nodes in turn**: it is chosen for the first one, then it is tried for the
second one, and then chosen for that one too. -/
def InTurn (trace : List Decision) (rule : PatternRule) (first second : Node) : Prop :=
  [.chosen first.name rule.target first.stem,
    .trying second.name rule.target rule.body.location second.prereqs,
    .chosen second.name rule.target second.stem].Sublist trace

/-- **All nodes that one rule makes are made in turn**, and all choices are on record. -/
structure Search.Sequential (rules : RuleSet) (search : Search) : Prop where
  chosen : ∀ node ∈ search.nodes, ∀ index rule, node.origin = .pattern index →
    rules.patterns[index]? = some rule → .chosen node.name rule.target node.stem ∈ search.trace
  inTurn : search.nodes.Pairwise fun first second => ∀ index rule,
    first.origin = .pattern index → second.origin = .pattern index →
      rules.patterns[index]? = some rule → InTurn search.trace rule first second

namespace Search.Sequential

variable {search : Search}

theorem empty : Search.Sequential rules {} where
  chosen := fun node member => by cases member
  inTurn := List.Pairwise.nil

/-- Further decisions change nothing. -/
theorem extend (sequential : search.Sequential rules) {longer : Search}
    (same : longer.nodes = search.nodes) (traced : search.trace <+: longer.trace) :
    longer.Sequential rules where
  chosen := fun node member index rule origin declared =>
    traced.subset (sequential.chosen node (same ▸ member) index rule origin declared)
  inTurn := same ▸ sequential.inTurn.imp fun inTurn index rule one two declared =>
    (inTurn index rule one two declared).trans traced.sublist

/-- A node may be added if it is made in turn with the nodes before it. -/
theorem add (sequential : search.Sequential rules) {node : Node}
    (chosen : ∀ index rule, node.origin = .pattern index → rules.patterns[index]? = some rule →
      .chosen node.name rule.target node.stem ∈ search.trace ∧
        ∀ first ∈ search.nodes, first.origin = .pattern index →
          InTurn search.trace rule first node) :
    (search.add node).Sequential rules where
  chosen := by
    intro other member index rule origin declared
    rcases List.mem_append.mp member with old | new
    · exact sequential.chosen other old index rule origin declared
    · obtain rfl := List.mem_singleton.mp new
      exact (chosen index rule origin declared).1
  inTurn := by
    refine List.pairwise_append.mpr
      ⟨sequential.inTurn, List.pairwise_singleton _ _, fun first member second new => ?_⟩
    obtain rfl := List.mem_singleton.mp new
    exact fun index rule one two declared => (chosen index rule two declared).2 first member one

end Search.Sequential

/-- **The nodes that one rule makes are made in turn**: while its candidate is tried for a name, no
other node is added that it makes. -/
theorem sequential_keeping :
    Keeping rules available (fun _ _ _ => True) (Search.Sequential rules) where
  noted := fun _ held => held.extend rfl (List.prefix_append _ _)
  failing := fun _ held => held.extend rfl List.prefix_rfl
  called := fun _ _ _ => trivial
  added := by
    intro depth stack chain name search after node _ fresh enough keeps begun attempted held
    refine held.add fun index rule origin declared => ?_
    obtain ⟨borrows, chosen⟩ := attemptName_chosen
      (fun _ held => held.extend rfl (List.prefix_append _ _)) keeps begun attempted origin
    cases chosen with
    | @intro before rest candidate middle last place _ begun resolved =>
      obtain rfl : candidate.index = index := Origin.pattern.inj origin
      have member : candidate ∈ candidates rules.patterns name chain :=
        place ▸ List.mem_append_right before List.mem_cons_self
      obtain rfl : candidate.rule = rule :=
        Option.some.inj ((of_mem_candidates member).1.symm.trans declared)
      have calls : ∀ prereq ∈ candidate.prereqs (rules.merged name).prereqs,
          Calls rules chain name (chain ++ [candidate.index]) prereq :=
        fun prereq needed => .pattern borrows member needed
      have enough' : room rules (stack ++ [name]) (chain ++ [candidate.index]) < depth :=
        Nat.lt_of_lt_of_le
          (room_pattern (List.getElem?_eq_some_iff.mp declared).1 (of_mem_candidates member).2.2.1
            stack name) enough
      -- What has been added since the candidate was tried was not made by its rule.
      have unmade : ∀ other ∈ last.nodes, other.origin = .pattern candidate.index →
          other ∈ middle.nodes :=
        (fresh_keeping available candidate.index middle.nodes).resolveAll
          (fun _ _ => List.mem_append_right chain (List.mem_singleton_self _)) enough'
          resolved (fun other known _ => known)
      have traced : middle.trace ++ [candidate.trial name (rules.merged name).prereqs] <+:
          last.trace :=
        (trace_keeping available _).resolveAll (fun _ _ => trivial) enough' resolved List.prefix_rfl
      refine ⟨List.mem_append_right _ (List.mem_singleton_self _), fun first member made => ?_⟩
      have early : .chosen first.name candidate.rule.target first.stem ∈ middle.trace :=
        begun.chosen first (unmade first member made) _ _ made declared
      have tried : [.chosen first.name candidate.rule.target first.stem,
          candidate.trial name (rules.merged name).prereqs].Sublist last.trace :=
        ((List.singleton_sublist.mpr early).append (List.Sublist.refl _)).trans traced.sublist
      exact tried.append (List.Sublist.refl _)

/-! ### Graphs that are built -/

variable {targets : List String} {graph : Graph}

/-- The nodes of a graph that one rule makes are made in turn. -/
theorem build_pairwise_inTurn (built : (Graph.build rules available targets).1 = .ok graph) :
    graph.nodes.Pairwise fun first second => ∀ index rule,
      first.origin = .pattern index → second.origin = .pattern index →
        rules.patterns[index]? = some rule →
          InTurn (Graph.build rules available targets).2 rule first second := by
  obtain ⟨search, resolved, -, nodes, trace⟩ := build_resolved built
  have sequential : (resolveRoots rules available graph.roots {}).2.Sequential rules :=
    sequential_keeping.resolveRoots (fun _ _ => trivial) .empty
  rw [resolved] at sequential
  rw [nodes, List.pairwise_map]
  refine (sequential.inTurn.sublist (reachableNodes_sublist _ _)).imp ?_
  intro first second inTurn index rule one two declared
  obtain ⟨mark, firstMarked⟩ := first.markIntermediate_eq rules graph.roots
  obtain ⟨otherMark, secondMarked⟩ := second.markIntermediate_eq rules graph.roots
  rw [firstMarked] at one ⊢
  rw [secondMarked] at two ⊢
  rw [trace]
  exact (inTurn index rule one two declared).trans (List.sublist_append_left _ _)

/-- **Where a rule feeds itself, the lower node was there before the rule was tried for the upper
one**: it is chosen for the lower node, and only then it is tried and chosen for the upper one. -/
theorem build_inTurn (built : (Graph.build rules available targets).1 = .ok graph) :
    ∀ upper ∈ graph.nodes, ∀ lower ∈ graph.nodes,
      Relation.TransGen graph.Leads upper.name lower.name →
        ∀ index, upper.origin = .pattern index → lower.origin = .pattern index →
          ∃ rule, rules.patterns[index]? = some rule ∧
            InTurn (Graph.build rules available targets).2 rule lower upper := by
  intro upper upperMember lower lowerMember leads index one two
  have arranged := build_arranged built
  obtain ⟨before, node, after, split, named, early⟩ := arranged.before_of_leads leads
  obtain rfl : node = upper := arranged.eq_of_name
    (split ▸ List.mem_append_right before List.mem_cons_self) upperMember named
  obtain ⟨found, foundEarly, foundNamed⟩ := mem_nodeNames.mp early
  obtain rfl : found = lower := arranged.eq_of_name
    (split ▸ List.mem_append_left _ foundEarly) lowerMember foundNamed
  obtain ⟨place, rule, -, origin, declared, -⟩ :=
    (build_justified built _ upperMember).ofPattern one
  obtain rfl : place = index := Origin.pattern.inj (origin.symm.trans one)
  have pairwise := build_pairwise_inTurn built
  rw [split] at pairwise
  exact ⟨rule, declared, (List.pairwise_append.mp pairwise).2.2 found foundEarly _
    List.mem_cons_self place rule two one declared⟩

/-- **Where every rule for targets of a common form makes one name only, none feeds itself.** -/
theorem Graph.neverFeedsItself_of_madeOnce
    (built : (Graph.build rules available targets).1 = .ok graph)
    (once : ∀ first ∈ graph.nodes, ∀ second ∈ graph.nodes, ∀ index,
      first.origin = .pattern index → second.origin = .pattern index →
        first.name = second.name) : graph.NeverFeedsItself := by
  intro upper upperMember lower lowerMember leads index one two
  rw [once upper upperMember lower lowerMember index one two] at leads
  exact (build_arranged built).acyclic _ leads

end Search

/-! ### An object file of a generated source -/

/-- A source is generated by a program of which there is an object file, and the same rule makes the
object file of the source. -/
def generatorRules : RuleSet where
  rules := [
    .explicit {
      prereqs := ["tool.o"]
      recipe := some "generate"
      attributes := {}
      comparator := none
      location := ⟨"mkfile", 1⟩
      targets := ["gen.c"] },
    .pattern (compileRule ".c" 4)]
  values := []

/-- The node of an object file. -/
def objectNode (stem : String) : Node where
  name := stem ++ ".o"
  prereqs := [stem ++ ".c"]
  recipe := some "compile"
  stem := stem
  groups := [stem]
  allTargets := [stem ++ ".o"]
  location := some ⟨"mkfile", 4⟩
  origin := .pattern 0

/-- The graph of both object files. -/
def generatorGraph : Graph where
  nodes := [
    { name := "tool.c", origin := .source },
    objectNode "tool",
    { name := "gen.c"
      prereqs := ["tool.o"]
      recipe := some "generate"
      allTargets := ["gen.c"]
      location := some ⟨"mkfile", 1⟩
      origin := .explicit },
    objectNode "gen"]
  roots := ["tool.o", "gen.o"]

theorem build_generatorRules :
    (Graph.build generatorRules (· = "tool.c") ["tool.o", "gen.o"]).1 = .ok generatorGraph := by
  rfl

theorem leads_generatorGraph : Relation.TransGen generatorGraph.Leads "gen.o" "tool.o" := by
  have first : generatorGraph.Leads "gen.o" "gen.c" := ⟨objectNode "gen", by decide, rfl, by decide⟩
  have second : generatorGraph.Leads "gen.c" "tool.o" := by
    refine ⟨_, List.mem_cons_of_mem _ (List.mem_cons_of_mem _ List.mem_cons_self), rfl, by decide⟩
  exact .tail (.single first) second

/-- The one rule for object files makes the first one, and then the second one from the first. -/
theorem build_inTurn_generatorRules :
    (Graph.build generatorRules (· = "tool.c") ["tool.o", "gen.o"]).1 = .ok generatorGraph ∧
      objectNode "gen" ∈ generatorGraph.nodes ∧ objectNode "tool" ∈ generatorGraph.nodes ∧
      Relation.TransGen generatorGraph.Leads (objectNode "gen").name (objectNode "tool").name ∧
      ∃ rule, generatorRules.patterns[0]? = some rule ∧
        InTurn (Graph.build generatorRules (· = "tool.c") ["tool.o", "gen.o"]).2 rule
          (objectNode "tool") (objectNode "gen") :=
  have upper : objectNode "gen" ∈ generatorGraph.nodes := by decide
  have lower : objectNode "tool" ∈ generatorGraph.nodes := by decide
  ⟨build_generatorRules, upper, lower, leads_generatorGraph,
    build_inTurn build_generatorRules _ upper _ lower leads_generatorGraph 0 rfl rfl⟩

/-- **A rule may feed itself.** -/
theorem not_neverFeedsItself : ∃ rules available targets graph,
    (Graph.build rules available targets).1 = .ok graph ∧ ¬ graph.NeverFeedsItself := by
  refine ⟨generatorRules, (· = "tool.c"), ["tool.o", "gen.o"], generatorGraph,
    build_generatorRules, fun never => ?_⟩
  exact never (objectNode "gen") (by decide) (objectNode "tool") (by decide) leads_generatorGraph 0
    rfl rfl

end BuildSystem
