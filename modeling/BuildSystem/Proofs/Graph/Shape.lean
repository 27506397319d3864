/-
**The shape of a graph.**

* `Graph.Leads`, `Arranged.before_of_leads` — the edges between names; whatever a name leads to
  stands before its node, so that no name leads back to itself.
* `build_reached` — the nodes are the names that the requested names lead to.
* `Node.OfPattern`, `build_intermediate` — which nodes are marked as intermediate.
* `build_shape` — all of this together, for every graph that is built.
-/

import BuildSystem.Proofs.Graph.Justification
import Mathlib.Logic.Relation

namespace BuildSystem

/-- An edge between names: the first one has a node, and the second one is a prerequisite of it. -/
def Graph.Leads (graph : Graph) (name prereq : String) : Prop :=
  ∃ node ∈ graph.nodes, node.name = name ∧ prereq ∈ node.prereqs

/-- A node that was made by a rule for targets of a common form: the rule is declared and fits the
name, and the recipe is the one that it gives. -/
def Node.OfPattern (rules : RuleSet) (node : Node) : Prop :=
  ∃ index rule found, node.origin = .pattern index ∧ rules.patterns[index]? = some rule ∧
    rule.instance? node.name = some found ∧ node.recipe = found.recipe

/-- **The shape of a graph.** -/
structure Graph.Shaped (rules : RuleSet) (graph : Graph) : Prop where
  distinct : (nodeNames graph.nodes).Nodup
  /-- Everything that was asked for has a node. -/
  roots : ∀ root ∈ graph.roots, root ∈ nodeNames graph.nodes
  /-- The nodes are exactly the names that lead on from what was asked for. -/
  reached : ∀ name, name ∈ nodeNames graph.nodes ↔
    ∃ root ∈ graph.roots, Relation.ReflTransGen graph.Leads root name
  /-- Every node stands behind its prerequisites. -/
  behind : ∀ before node after, graph.nodes = before ++ node :: after →
    ∀ prereq ∈ node.prereqs, prereq ∈ nodeNames before
  acyclic : ∀ name, ¬ Relation.TransGen graph.Leads name name
  intermediate : ∀ node ∈ graph.nodes, node.intermediate = true ↔
    node.OfPattern rules ∧ rules.rulesFor node.name = [] ∧ node.name ∉ graph.roots

/-! ### Paths -/

/-- Whatever a name leads to stands before its node. -/
theorem Arranged.before_of_leads {graph : Graph} (arranged : Arranged graph.nodes)
    {name other : String} (leads : Relation.TransGen graph.Leads name other) :
    ∃ before node after, graph.nodes = before ++ node :: after ∧ node.name = name ∧
      other ∈ nodeNames before := by
  induction leads with
  | single edge =>
    obtain ⟨node, member, named, needed⟩ := edge
    obtain ⟨before, after, split⟩ := List.append_of_mem member
    exact ⟨before, node, after, split, named, arranged.behind before node after split _ needed⟩
  | tail _ edge ih =>
    obtain ⟨before, node, after, split, named, early⟩ := ih
    obtain ⟨middle, middleMember, middleNamed, needed⟩ := edge
    -- The middle node is the one of its name that stands before the first node.
    obtain ⟨found, foundEarly, foundNamed⟩ := mem_nodeNames.mp early
    obtain rfl : found = middle := arranged.eq_of_name
      (split ▸ List.mem_append_left _ foundEarly) middleMember (foundNamed.trans middleNamed.symm)
    obtain ⟨first, second, rfl⟩ := List.append_of_mem foundEarly
    have place : graph.nodes = first ++ found :: (second ++ node :: after) := by simp [split]
    have earlier := arranged.behind first found _ place _ needed
    refine ⟨first ++ found :: second, node, after, split, named, ?_⟩
    rw [nodeNames_append]
    exact List.mem_append_left _ earlier

/-- No name leads back to itself, as it has one node only. -/
theorem Arranged.acyclic {graph : Graph} (arranged : Arranged graph.nodes) (name : String) :
    ¬ Relation.TransGen graph.Leads name name := by
  intro cycle
  obtain ⟨before, node, after, split, rfl, early⟩ := arranged.before_of_leads cycle
  have distinct := arranged.nodup
  rw [split, nodeNames_append, List.nodup_append] at distinct
  exact distinct.2.2 _ early _ List.mem_cons_self rfl

/-- What a node leads to has a node too. -/
theorem Arranged.known_of_leads {graph : Graph} (arranged : Arranged graph.nodes)
    {name other : String} (leads : Relation.ReflTransGen graph.Leads name other)
    (known : name ∈ nodeNames graph.nodes) : other ∈ nodeNames graph.nodes := by
  induction leads with
  | refl => exact known
  | tail _ edge _ =>
    obtain ⟨node, member, _, needed⟩ := edge
    exact mem_nodeNames.mpr (arranged.closed member needed)

/-! ### Graphs that are built -/

section Build

variable {rules : RuleSet} {available : String → Bool} {targets : List String} {graph : Graph}

/-- What was asked for, or else the default target. -/
theorem build_requested (built : (Graph.build rules available targets).1 = .ok graph) :
    graph.roots = if targets.isEmpty then rules.defaultTargets else targets := by
  obtain ⟨_, _, requested, _⟩ := build_resolved built
  exact requested

/-- **The nodes are exactly the names that lead on from what was asked for.** -/
theorem build_reached (built : (Graph.build rules available targets).1 = .ok graph)
    (name : String) : name ∈ nodeNames graph.nodes ↔
      ∃ root ∈ graph.roots, Relation.ReflTransGen graph.Leads root name := by
  have arranged := build_arranged built
  constructor
  · -- From the last node back: what was not asked for is needed by a node behind it.
    have reached : ∀ node ∈ graph.nodes, ∃ root ∈ graph.roots,
        Relation.ReflTransGen graph.Leads root node.name := by
      refine arranged.rec_back fun node member above => ?_
      rcases build_needed built node member with asked | ⟨other, otherMember, needs⟩
      · exact ⟨node.name, asked, .refl⟩
      · obtain ⟨root, asked, leads⟩ := above other otherMember needs
        exact ⟨root, asked, leads.tail ⟨other, otherMember, rfl, needs⟩⟩
    intro known
    obtain ⟨node, member, rfl⟩ := mem_nodeNames.mp known
    exact reached node member
  · rintro ⟨root, asked, leads⟩
    exact arranged.known_of_leads leads (mem_nodeNames.mpr (build_roots built root asked))

/-- No rule marks a node as intermediate. -/
theorem Made.unmarked {node : Node} (made : Made rules available node) :
    node.intermediate = false := by
  cases made with
  | source => rfl
  | explicit => rfl
  | pattern => rfl

/-- The mark of a node that is made. -/
theorem Made.intermediate_markIntermediate {node : Node} (made : Made rules available node)
    (roots : List String) : (node.markIntermediate rules roots).intermediate = true ↔
      (∃ index, node.origin = .pattern index) ∧ rules.rulesFor node.name = [] ∧
        node.name ∉ roots := by
  unfold Node.markIntermediate
  split
  · next index origin => simp [origin]
  · next other =>
    refine iff_of_false (by simp [made.unmarked]) ?_
    rintro ⟨⟨index, origin⟩, _⟩
    exact other index origin

theorem Node.origin_markIntermediate (rules : RuleSet) (roots : List String) (node : Node) :
    (node.markIntermediate rules roots).origin = node.origin := by
  obtain ⟨flag, marked⟩ := node.markIntermediate_eq rules roots
  rw [marked]

/-- A justified node whose origin is a rule for targets of a common form was made by it. -/
theorem Justified.ofPattern {node : Node} (justified : Justified rules available node)
    {index : Nat} (origin : node.origin = .pattern index) : node.OfPattern rules := by
  cases justified with
  | source own => cases own.symm.trans origin
  | explicit own => cases own.symm.trans origin
  | pattern place rule found own declared usable fits recipe =>
    exact ⟨place, rule, found, own, declared, fits, recipe⟩

/-- **The intermediate nodes** were made by rules for targets of a common form; they were not asked
for, and no explicit rule names them. -/
theorem build_intermediate (built : (Graph.build rules available targets).1 = .ok graph) :
    ∀ node ∈ graph.nodes, node.intermediate = true ↔
      node.OfPattern rules ∧ rules.rulesFor node.name = [] ∧ node.name ∉ graph.roots := by
  intro node member
  have justified := build_justified built node member
  obtain ⟨search, sound, -, nodes⟩ := build_cases built
  rw [nodes] at member
  obtain ⟨made, kept, rfl⟩ := List.mem_map.mp member
  have isMade := sound.made made ((reachableNodes_sublist _ _).subset kept)
  rw [isMade.intermediate_markIntermediate, Node.name_markIntermediate]
  refine and_congr_left fun _ => ⟨?_, ?_⟩
  · rintro ⟨index, origin⟩
    exact justified.ofPattern ((made.origin_markIntermediate rules _).trans origin)
  · rintro ⟨index, rule, found, origin, _⟩
    exact ⟨index, (made.origin_markIntermediate rules _).symm.trans origin⟩

/-- **Every graph that is built has the shape of a graph**, and its roots are what was asked for. -/
theorem build_shape (built : (Graph.build rules available targets).1 = .ok graph) :
    graph.roots = (if targets.isEmpty then rules.defaultTargets else targets) ∧
      graph.Shaped rules := by
  have arranged := build_arranged built
  exact ⟨build_requested built, {
    distinct := arranged.nodup
    roots := fun root asked => mem_nodeNames.mpr (build_roots built root asked)
    reached := build_reached built
    behind := arranged.behind
    acyclic := arranged.acyclic
    intermediate := build_intermediate built }⟩

end Build

/-! ### Two programs with a generated source -/

/-- A rule for a program with the given name, which needs the file of the parser. -/
def parserProgram (name : String) (line : Nat) : Rule :=
  .explicit {
    prereqs := ["parser.c"]
    recipe := some "link"
    attributes := {}
    comparator := none
    location := ⟨"mkfile", line⟩
    targets := [name] }

/-- Two programs that need one file, which is generated from a grammar. -/
def parserRules : RuleSet where
  rules := [
    parserProgram "check" 1,
    parserProgram "print" 3,
    .pattern (.stem {
      prereqs := ["%.y"]
      recipe := some "yacc"
      attributes := {}
      comparator := none
      location := ⟨"mkfile", 5⟩
      target := "%.c"
      start := ""
      finish := ".c"
      marker := '%'
      allowEmptyStem := false
      allTargets := ["%.c"] })]
  values := []

/-- The node of one of the programs. -/
def parserNode (name : String) (line : Nat) : Node where
  name := name
  prereqs := ["parser.c"]
  recipe := some "link"
  allTargets := [name]
  location := some ⟨"mkfile", line⟩
  origin := .explicit

/-- The graph of both programs. -/
def parserGraph : Graph where
  nodes := [
    { name := "parser.y", origin := .source },
    { name := "parser.c"
      prereqs := ["parser.y"]
      recipe := some "yacc"
      stem := "parser"
      groups := ["parser"]
      allTargets := ["parser.c"]
      location := some ⟨"mkfile", 5⟩
      origin := .pattern 0
      intermediate := true },
    parserNode "check" 1,
    parserNode "print" 3]
  roots := ["check", "print"]

theorem build_parserRules :
    (Graph.build parserRules (· = "parser.y") ["check", "print"]).1 = .ok parserGraph := by
  rfl

theorem build_shape_parserRules :
    (Graph.build parserRules (· = "parser.y") ["check", "print"]).1 = .ok parserGraph ∧
      parserGraph.roots = ["check", "print"] ∧ parserGraph.Shaped parserRules :=
  ⟨build_parserRules, build_shape build_parserRules⟩

end BuildSystem
