/-
**Comparators from the rule file to the graph.**

A header that gives the attribute `P` gives a command with it.  From there on both travel
separately: the rules of one target are taken together, and a target may borrow the recipe of a rule
for targets of a common form.

* `Attributes.GoWith` — the attribute `P` and its command are given together.
* `RuleFile.goWith_of_mem_rules` — so they are in every rule of a text.
* `Node.KeepsComparator`, `Node.DropsComparator` — a node that has kept what its explicit rules
  declare, and one that has borrowed from a rule without a comparator although they declare one.
* `Made.keepsOrDrops` — a node that is made does one or the other.
* `comparators_kept_iff` — so does every node of every graph that is built from a text.
* `not_comparatorsKept` — comparators are dropped: a target that borrows keeps the attributes of its
  explicit rules, but not their comparator.
-/

import BuildSystem.Proofs.Graph.Justification
import BuildSystem.Proofs.RuleFile.Declarations
import BuildSystem.Proofs.RuleFile.Inclusion

namespace BuildSystem

/-! ### The attribute and its command -/

/-- **The attribute `P` goes with a command**: both are given or none is, and the command is not
empty. -/
structure Attributes.GoWith (attributes : Attributes) (comparator : Option String) : Prop where
  both : attributes.comparator = comparator.isSome
  nonempty : comparator ≠ some ""

namespace Attributes.GoWith

theorem nothing : GoWith {} none :=
  ⟨rfl, nofun⟩

variable {attributes : Attributes} {comparator : Option String}

theorem given_iff (goes : attributes.GoWith comparator) :
    attributes.comparator = true ↔ ∃ command, comparator = some command ∧ command ≠ "" := by
  rw [goes.both, Option.isSome_iff_exists]
  exact exists_congr fun command =>
    ⟨fun given => ⟨given, fun none => goes.nonempty (none ▸ given)⟩, And.left⟩

/-- No command is passed over for being empty. -/
theorem filter_eq (goes : attributes.GoWith comparator) :
    comparator.filter (!·.isEmpty) = comparator := by
  cases comparator with
  | none => rfl
  | some command =>
    have nonempty : command ≠ "" := fun none => goes.nonempty (none ▸ rfl)
    simp [Option.filter, nonempty]

end Attributes.GoWith

namespace RuleFile

/-- The letters of a header give the attribute and its command together. -/
theorem readTraits_goWith {location : Location} {traits found : Traits} {letters : List Char}
    (before : traits.attributes.GoWith traits.comparator)
    (read : readTraits location traits letters = .ok found) :
    found.attributes.GoWith found.comparator := by
  fun_induction readTraits location traits letters with
  | case1 => exact Except.ok.inj read ▸ before
  | case2 => cases read
  | case3 traits rest command given =>
    obtain rfl := Except.ok.inj read
    refine ⟨rfl, fun none => given ?_⟩
    have empty : command = [] := by simpa using none
    rw [empty]
    rfl
  | case11 => cases read
  -- Every other letter leaves both as they are.
  | _ => next readOn => exact readOn ⟨before.both, before.nonempty⟩ read

variable {σ : Type} {source : Source σ}

/-- **In every rule of a text the attribute `P` goes with a command.** -/
theorem goWith_of_mem_rules {bindings : Bindings} {file text : String} {state after : σ}
    {ruleSet : RuleSet} (read : ofText source bindings file text state = .ok ruleSet after) :
    ∀ rule ∈ ruleSet.rules, rule.body.attributes.GoWith rule.body.comparator := by
  intro rule member
  obtain ⟨declarations, rules⟩ := ofText_declares read
  rw [rules] at member
  obtain ⟨declaration, -, among⟩ := List.mem_flatMap.mp member
  obtain ⟨location, letters, traits⟩ := declaration.wellRead.traits
  rw [Header.body_of_mem_rules declaration.declares among]
  exact readTraits_goWith .nothing traits

end RuleFile

/-! ### Rules of one target, taken together -/

namespace MergedRule

variable {rules : List ExplicitRule}
  (given : ∀ rule ∈ rules, rule.attributes.GoWith rule.comparator)

include given

/-- Rules of one target have a comparator together if one of them has. -/
theorem isSome_comparator_ofRules :
    (ofRules rules).comparator.isSome = true ↔ ∃ rule ∈ rules, rule.comparator.isSome = true := by
  unfold ofRules
  rw [List.findSome?_isSome_iff]
  refine exists_congr fun rule => ?_
  rw [List.mem_reverse]
  exact and_congr_right fun member => by rw [(given rule member).filter_eq]

/-- Taking rules together keeps the attribute and its command together. -/
theorem goWith_ofRules : (ofRules rules).attributes.GoWith (ofRules rules).comparator where
  both := by
    have marked : (ofRules rules).attributes.comparator = rules.any (·.attributes.comparator) := by
      rw [attributes_ofRules]
      exact List.any_map
    rw [Bool.eq_iff_iff, isSome_comparator_ofRules given, marked, List.any_eq_true]
    exact exists_congr fun rule => and_congr_right fun member => by rw [(given rule member).both]
  nonempty := by
    intro none
    obtain ⟨rule, -, declared⟩ := List.exists_of_findSome?_eq_some none
    exact absurd (Option.filter_eq_some_iff.mp declared).2 (by decide)

end MergedRule

/-! ### Nodes -/

/-- **A node keeps its comparator**: it has the attribute `P` exactly if it has a command, and it
has one if an explicit rule of its name declares one. -/
structure Node.KeepsComparator (rules : RuleSet) (node : Node) : Prop where
  marked : node.attributes.comparator = true ↔
    ∃ command, node.comparator = some command ∧ command ≠ ""
  declared : (∃ own ∈ rules.rulesFor node.name, own.comparator.isSome = true) →
    node.comparator.isSome = true

/-- **A node drops a comparator**: it borrows from a rule that has none, and an explicit rule of its
name declares one. -/
def Node.DropsComparator (rules : RuleSet) (node : Node) : Prop :=
  ∃ index rule, node.origin = .pattern index ∧ rules.patterns[index]? = some rule ∧
    rule.body.comparator = none ∧ ∃ own ∈ rules.rulesFor node.name, own.comparator.isSome = true

/-- A node keeps its comparator, or it drops one and only the attribute is left. -/
def Node.KeepsOrDrops (rules : RuleSet) (node : Node) : Prop :=
  node.KeepsComparator rules ∧ ¬ node.DropsComparator rules ∨
    node.DropsComparator rules ∧ node.attributes.comparator = true ∧ node.comparator = none

namespace RuleSet

variable {rules : RuleSet}

theorem explicit_mem_rules {name : String} {rule : ExplicitRule}
    (member : rule ∈ rules.rulesFor name) : Rule.explicit rule ∈ rules.rules := by
  obtain ⟨declared, among, same⟩ := List.mem_filterMap.mp (List.mem_filter.mp member).1
  cases declared with
  | explicit rule' => exact Option.some.inj same ▸ among
  | pattern rule' => cases same

theorem pattern_mem_rules {rule : PatternRule} (member : rule ∈ rules.patterns) :
    Rule.pattern rule ∈ rules.rules := by
  obtain ⟨declared, among, same⟩ := List.mem_filterMap.mp member
  cases declared with
  | explicit rule' => cases same
  | pattern rule' => exact Option.some.inj same ▸ among

end RuleSet

variable {rules : RuleSet} {available : String → Bool}

/-- **A node that borrows keeps its comparator or drops it**, whether the rule that it borrows from
has one or not. -/
theorem Candidate.keepsOrDrops_node {name : String} {candidate : Candidate}
    (given : ∀ rule ∈ rules.rules, rule.body.attributes.GoWith rule.body.comparator)
    (declared : rules.patterns[candidate.index]? = some candidate.rule) :
    (candidate.node name (rules.merged name).prereqs
      (rules.merged name).attributes).KeepsOrDrops rules := by
  have lent : candidate.rule.body.attributes.GoWith candidate.rule.body.comparator :=
    given _ (RuleSet.pattern_mem_rules (List.mem_of_getElem? declared))
  have own : ∀ rule ∈ rules.rulesFor name, rule.attributes.GoWith rule.comparator :=
    fun rule member => given _ (RuleSet.explicit_mem_rules member)
  have marked : (rules.merged name).attributes.comparator = true ↔
      ∃ rule ∈ rules.rulesFor name, rule.comparator.isSome = true := by
    rw [← MergedRule.isSome_comparator_ofRules own, ← (MergedRule.goWith_ofRules own).both]
    rfl
  unfold Candidate.node
  cases command : candidate.rule.body.comparator with
  | some command' =>
    refine .inl ⟨⟨Attributes.GoWith.given_iff ⟨?_, command ▸ lent.nonempty⟩, fun _ => rfl⟩, ?_⟩
    · have both : candidate.rule.body.attributes.comparator = true := by
        rw [lent.both, command]
        rfl
      simp [Attributes.union, both]
    · rintro ⟨index, rule, origin, stands, none, -⟩
      cases origin
      rw [declared] at stands
      cases stands
      rw [command] at none
      cases none
  | none =>
    have both : candidate.rule.body.attributes.comparator = false := by
      rw [lent.both, command]
      rfl
    by_cases some : ∃ rule ∈ rules.rulesFor name, rule.comparator.isSome = true
    · refine .inr ⟨⟨candidate.index, candidate.rule, rfl, declared, command, some⟩, ?_, rfl⟩
      simp [Attributes.union, marked.mpr some]
    · refine .inl ⟨⟨Attributes.GoWith.given_iff ⟨?_, Attributes.GoWith.nothing.nonempty⟩,
        fun some' => absurd some' some⟩, ?_⟩
      · simpa [Attributes.union, both] using fun given' => some (marked.mp given')
      · rintro ⟨index, rule, -, -, -, some'⟩
        exact some some'

/-- **A node that is made keeps its comparator or drops it.** -/
theorem Made.keepsOrDrops
    (given : ∀ rule ∈ rules.rules, rule.body.attributes.GoWith rule.body.comparator) {node : Node}
    (made : Made rules available node) : node.KeepsOrDrops rules := by
  cases made with
  | @source name unruled there =>
    refine .inl ⟨⟨Attributes.GoWith.nothing.given_iff, ?_⟩, ?_⟩
    · rintro ⟨rule, member, -⟩
      rw [unruled] at member
      cases member
    · rintro ⟨index, rule, origin, -⟩
      cases origin
  | @explicit name first others ruled =>
    have own : ∀ rule ∈ rules.rulesFor name, rule.attributes.GoWith rule.comparator :=
      fun rule member => given _ (RuleSet.explicit_mem_rules member)
    refine .inl ⟨⟨(MergedRule.goWith_ofRules own).given_iff,
      (MergedRule.isSome_comparator_ofRules own).mpr⟩, ?_⟩
    rintro ⟨index, rule, origin, -⟩
    cases origin
  | @pattern name candidate borrows member =>
    exact Candidate.keepsOrDrops_node given (of_mem_candidates member).1

/-- **In every graph of a text the nodes keep their comparators, unless they borrow from a rule that
has none**: a node has the attribute `P` exactly if it has a command, and it has one if an explicit
rule of its name declares one.  A node that borrows from a rule without a comparator while an
explicit rule declares one has the attribute and no command. -/
theorem comparators_kept_iff {σ : Type} {source : RuleFile.Source σ} {bindings : Bindings}
    {file text : String} {state after : σ} {targets : List String} {graph : Graph}
    (read : RuleFile.ofText source bindings file text state = .ok rules after)
    (built : (Graph.build rules available targets).1 = .ok graph) :
    ∀ node ∈ graph.nodes, (node.KeepsComparator rules ↔ ¬ node.DropsComparator rules) ∧
      (node.DropsComparator rules →
        node.attributes.comparator = true ∧ node.comparator = none) := by
  intro node member
  obtain ⟨made, flag, isMade, rfl⟩ := build_made built node member
  have settled : Node.KeepsOrDrops rules { made with intermediate := flag } := by
    -- The mark as an intermediate target changes nothing of this.
    rcases isMade.keepsOrDrops (RuleFile.goWith_of_mem_rules read) with ⟨keeps, drops⟩ | dropped
    · exact .inl ⟨⟨keeps.marked, keeps.declared⟩, drops⟩
    · exact .inr dropped
  rcases settled with ⟨keeps, drops⟩ | ⟨drops, given, none⟩
  · exact ⟨⟨fun _ => drops, fun _ => keeps⟩, fun dropped => absurd dropped drops⟩
  · refine ⟨⟨fun keeps => ?_, fun kept => absurd drops kept⟩, fun _ => ⟨given, none⟩⟩
    obtain ⟨command, some, -⟩ := keeps.marked.mp given
    rw [none] at some
    cases some

/-- An object file that is compared with a header of its own, and a rule for object files without a
comparator. -/
def comparedRules : RuleSet where
  rules := [
    .explicit {
      prereqs := ["main.h"]
      recipe := none
      attributes := { comparator := true }
      comparator := some "cmp -s"
      location := ⟨"mkfile", 1⟩
      targets := ["main.o"] },
    .pattern (compileRule ".c" 3)]
  values := []

/-- The object file has the attribute of its own rule, and no command. -/
def comparedObject : Node where
  name := "main.o"
  prereqs := ["main.h", "main.c"]
  recipe := some "compile"
  attributes := { comparator := true }
  stem := "main"
  groups := ["main"]
  allTargets := ["main.o"]
  location := some ⟨"mkfile", 3⟩
  origin := .pattern 0

/-- The graph of the object file. -/
def comparedGraph : Graph where
  nodes := [{ name := "main.h", origin := .source }, { name := "main.c", origin := .source },
    comparedObject]
  roots := ["main.o"]

theorem ofText_compared : RuleFile.ofText RuleFile.definitionsSource ⟨[], []⟩ "mkfile"
    "main.o:Pcmp -s: main.h\n\n%.o: %.c\n\tcompile\n" () = .ok comparedRules () := by
  rfl

theorem build_compared :
    (Graph.build comparedRules programFiles ["main.o"]).1 = .ok comparedGraph := by
  rfl

theorem comparators_kept_iff_compared :
    (Graph.build comparedRules programFiles ["main.o"]).1 = .ok comparedGraph ∧
      ∀ node ∈ comparedGraph.nodes,
        (node.KeepsComparator comparedRules ↔ ¬ node.DropsComparator comparedRules) ∧
        (node.DropsComparator comparedRules →
          node.attributes.comparator = true ∧ node.comparator = none) :=
  ⟨build_compared, comparators_kept_iff ofText_compared build_compared⟩

/-- **Comparators are kept**, in every node of every graph of a text. -/
def ComparatorsKept {σ : Type} (source : RuleFile.Source σ) : Prop :=
  ∀ bindings file text state rules after available targets graph,
    RuleFile.ofText source bindings file text state = .ok rules after →
    (Graph.build rules available targets).1 = .ok graph →
    ∀ node ∈ graph.nodes, node.KeepsComparator rules

/-- The object file has the attribute `P` and no command: what its own rule declares is dropped. -/
theorem not_comparatorsKept : ¬ ComparatorsKept RuleFile.definitionsSource := by
  intro kept
  have keeps := kept _ _ _ _ _ _ _ _ _ ofText_compared build_compared comparedObject (by decide)
  obtain ⟨command, some, -⟩ := keeps.marked.mp rfl
  cases some

end BuildSystem
