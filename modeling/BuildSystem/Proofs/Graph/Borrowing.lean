/-
**A target without a recipe borrows one.**

A target whose explicit rules have no recipe is made by a rule for targets of a common form, if one
can be used.  What the explicit rules need is looked for while that rule is in use, and so without
it.

* `Recipeless`, `Lends` — a target that may borrow a recipe, and a rule that has one for it and
  needs nothing but plain files.
* `AlwaysBorrows` — such a rule is used as soon as everything that the explicit rules need has a
  graph of its own without the target.
* `not_alwaysBorrows` — this is too much: a prerequisite may need the very rule that is to be used,
  and an earlier rule may be usable without having a recipe.
* `build_borrows` — if what the explicit rules need can be made without the target and without the
  rule, that rule or an earlier one makes the target.
-/

import BuildSystem.Proofs.Graph.Completeness

namespace BuildSystem

/-! ### Borrowing -/

/-- A file that no rule makes. -/
structure PlainFile (rules : RuleSet) (available : String → Bool) (name : String) : Prop where
  there : available name = true
  unruled : rules.rulesFor name = []
  unfit : ∀ rule ∈ rules.patterns, rule.instance? name = none

/-- A target with explicit rules that neither have a recipe nor say that it is no file. -/
structure Recipeless (rules : RuleSet) (target : String) : Prop where
  ruled : rules.rulesFor target ≠ []
  borrows : ∀ own ∈ rules.rulesFor target, own.recipe = none ∧ own.attributes.virtual = false

/-- A rule for targets of a common form has a recipe for a target and needs plain files only. -/
structure Lends (rules : RuleSet) (available : String → Bool) (target : String) (index : Nat)
    (rule : PatternRule) (found : Instance) : Prop where
  declared : rules.patterns[index]? = some rule
  recipe : rule.body.recipe.isSome = true
  fits : rule.instance? target = some found
  plain : ∀ prereq ∈ found.prereqs, PlainFile rules available prereq

/-- Every target without a recipe borrows one from a rule that lends it, provided that each of its
explicit prerequisites has a graph, when it is asked for alone, that does without the target. -/
def AlwaysBorrows (rules : RuleSet) (available : String → Bool) : Prop :=
  ∀ (target : String) (index : Nat) (rule : PatternRule) (found : Instance),
    Recipeless rules target → Lends rules available target index rule found →
    (∀ own ∈ rules.rulesFor target, ∀ prereq ∈ own.prereqs,
      ∃ graph, (Graph.build rules available [prereq]).1 = .ok graph ∧
        graph.contains target = false) →
    ∃ graph node place, (Graph.build rules available [target]).1 = .ok graph ∧
      graph.node? target = some node ∧ node.origin = .pattern place ∧ node.recipe.isSome = true

/-! ### When nothing is borrowed -/

/-- An object file without a recipe that needs another object file; one rule makes both. -/
def tableRules : RuleSet where
  rules := [
    .explicit {
      prereqs := ["table.o"]
      recipe := none
      attributes := {}
      comparator := none
      location := ⟨"mkfile", 1⟩
      targets := ["main.o"] },
    .pattern (compileRule ".c" 3)]
  values := []

/-- The sources of both object files. -/
def tableFiles (name : String) : Bool :=
  ["main.c", "table.c"].contains name

/-- An object file without a recipe, and before the rule that compiles it another one that only
says that object files are always updated. -/
def forcedRules : RuleSet where
  rules := [
    .explicit {
      prereqs := []
      recipe := none
      attributes := {}
      comparator := none
      location := ⟨"mkfile", 1⟩
      targets := ["main.o"] },
    .pattern (.stem {
      prereqs := []
      recipe := none
      attributes := { forceUpdate := true }
      comparator := none
      location := ⟨"mkfile", 3⟩
      target := "%.o"
      start := ""
      finish := ".o"
      marker := '%'
      allowEmptyStem := false
      allTargets := ["%.o"] }),
    .pattern (compileRule ".c" 5)]
  values := []

/-- **A lender is not always used.**  The other object file cannot be made while the rule for object
files is in use, so the first target keeps its own rule; and the rule that is always usable comes
first, so the second target gets no recipe. -/
theorem not_alwaysBorrows :
    ¬ AlwaysBorrows tableRules tableFiles ∧ ¬ AlwaysBorrows forcedRules tableFiles := by
  have plainSource : ∀ rules : RuleSet, rules.rulesFor "main.c" = [] →
      (∀ rule ∈ rules.patterns, rule.instance? "main.c" = none) →
      ∀ prereq ∈ ["main.c"], PlainFile rules tableFiles prereq := by
    intro rules unruled unfit prereq needed
    obtain rfl := List.mem_singleton.mp needed
    exact ⟨rfl, unruled, unfit⟩
  constructor
  · intro always
    have lends : Lends tableRules tableFiles "main.o" 0 (compileRule ".c" 3)
        ⟨"main", ["main"], ["main.c"], ["main.o"], some "compile"⟩ :=
      ⟨rfl, rfl, rfl, plainSource tableRules rfl (by decide)⟩
    obtain ⟨graph, node, place, built, known, origin, -⟩ := always "main.o" 0 _ _
      ⟨by decide, by decide⟩ lends (by
        intro own ownMember prereq needed
        obtain rfl := List.mem_singleton.mp ownMember
        obtain rfl := List.mem_singleton.mp needed
        exact ⟨_, rfl, rfl⟩)
    obtain rfl := Except.ok.inj built
    obtain rfl := Option.some.inj known
    cases origin
  · intro always
    have lends : Lends forcedRules tableFiles "main.o" 1 (compileRule ".c" 5)
        ⟨"main", ["main"], ["main.c"], ["main.o"], some "compile"⟩ :=
      ⟨rfl, rfl, rfl, plainSource forcedRules rfl (by decide)⟩
    obtain ⟨graph, node, place, built, known, -, recipe⟩ := always "main.o" 1 _ _
      ⟨by decide, by decide⟩ lends (by
        intro own ownMember prereq needed
        obtain rfl := List.mem_singleton.mp ownMember
        cases needed)
    obtain rfl := Except.ok.inj built
    obtain rfl := Option.some.inj known
    cases recipe

/-! ### When something is borrowed -/

section Borrows

variable {rules : RuleSet} {available : String → Bool}

/-- What a rule says about a name has a recipe if and only if the rule has one. -/
theorem PatternRule.isSome_recipe {rule : PatternRule} {name : String} {found : Instance}
    (fits : rule.instance? name = some found) :
    found.recipe.isSome = rule.body.recipe.isSome := by
  cases rule with
  | stem rule =>
    unfold PatternRule.instance? StemRule.instance? at fits
    dsimp only at fits
    split at fits
    · cases fits
    · obtain rfl := Option.some.inj fits
      exact Option.isSome_map
  | regex rule =>
    unfold PatternRule.instance? RegexRule.instance? at fits
    dsimp only at fits
    split at fits
    · cases fits
    · obtain rfl := Option.some.inj fits
      exact Option.isSome_map

/-- A plain file can be made on every path that it is not on. -/
theorem PlainFile.derivable {name : String} (plain : PlainFile rules available name)
    {path : Set String} (fresh : name ∉ path) (used : Set Nat) :
    Derivable rules available name path used :=
  .source fresh plain.unruled plain.there

/-- A lender needs nothing that leads back to a target with explicit rules. -/
theorem Lends.below {target : String} {index : Nat} {rule : PatternRule} {found : Instance}
    (lends : Lends rules available target index rule found)
    (ruled : rules.rulesFor target ≠ []) (used : Set Nat) :
    ∀ prereq ∈ found.prereqs, Derivable rules available prereq {target} used := by
  intro prereq needed
  have plain := lends.plain prereq needed
  refine plain.derivable (fun same => ruled ?_) used
  obtain rfl := Set.mem_singleton_iff.mp same
  exact plain.unruled

/-- The node that the search for a single target records is, up to its mark, the node of the target
in the graph. -/
theorem build_node? {target : String} {search : Search}
    (resolved : resolveRoots rules available [target] {} = (.ok (), search)) {node : Node}
    (member : node ∈ search.nodes) (named : node.name = target) :
    ∃ graph flag, (Graph.build rules available [target]).1 = .ok graph ∧
      graph.node? target = some { node with intermediate := flag } := by
  have built := build_eq_ok (List.cons_ne_nil target []) resolved
  have sound := (resolveRoots_sound Search.Sound.empty resolved).1
  have known : target ∈ nodeNames search.nodes := mem_nodeNames.mpr ⟨node, member, named⟩
  obtain ⟨kept, keptMember, keptNamed⟩ := mem_nodeNames.mp
    (mem_nodeNames_reachableNodes (List.mem_singleton_self target) known)
  obtain rfl : kept = node := sound.arranged.eq_of_name
    ((reachableNodes_sublist _ _).subset keptMember) member (keptNamed.trans named.symm)
  obtain ⟨flag, marked⟩ := kept.markIntermediate_eq rules [target]
  have listed := List.mem_map_of_mem (f := (·.markIntermediate rules [target])) keptMember
  rw [marked] at listed
  subst named
  exact ⟨_, flag, built, (build_arranged built).node?_eq listed⟩

/-- A node that a rule for targets of a common form makes has a recipe, or the rule has none and
always updates. -/
theorem recipe_of_pattern {node : Node} (justified : Justified rules available node) {place : Nat}
    (origin : node.origin = .pattern place) :
    ∃ maker, rules.patterns[place]? = some maker ∧
      (node.recipe.isSome = true ∨
        maker.body.recipe = none ∧ maker.body.attributes.forceUpdate = true) := by
  cases justified with
  | source other => rw [other] at origin; cases origin
  | explicit other => rw [other] at origin; cases origin
  | pattern index rule found made declared usable fits recipe =>
    obtain rfl : index = place := Origin.pattern.inj (made.symm.trans origin)
    refine ⟨rule, declared, ?_⟩
    rw [recipe, PatternRule.isSome_recipe fits]
    cases given : rule.body.recipe with
    | some text => exact Or.inl rfl
    | none =>
      rw [given] at usable
      exact Or.inr ⟨rfl, usable.resolve_left Bool.false_ne_true⟩

/-- **A target without a recipe borrows one.**  If a rule with a recipe fits the target and needs
plain files only, and everything that the explicit rules of the target need can be made without the
target and without that rule, then a request for the target has a graph in which that rule or an
earlier one makes it; the target has a recipe, unless the rule that makes it has none and always
updates. -/
theorem build_borrows {target : String} {index : Nat} {rule : PatternRule} {found : Instance}
    (recipeless : Recipeless rules target) (lends : Lends rules available target index rule found)
    (apart : ∀ own ∈ rules.rulesFor target, ∀ prereq ∈ own.prereqs,
      Derivable rules available prereq {target} {index}) :
    ∃ graph node, (Graph.build rules available [target]).1 = .ok graph ∧
      graph.node? target = some node ∧
      ∃ place ≤ index, node.origin = .pattern place ∧
        ∃ maker, rules.patterns[place]? = some maker ∧
          (node.recipe.isSome = true ∨
            maker.body.recipe = none ∧ maker.body.attributes.forceUpdate = true) := by
  have usable : rule.isUsable = true := by
    unfold PatternRule.isUsable
    rw [lends.recipe, Bool.true_or]
  obtain ⟨search, resolved, node, member, named, place, noLater, origin⟩ :=
    resolveRoots_borrowed lends.declared usable lends.fits recipeless.borrows apart
      (lends.below recipeless.ruled {index})
  obtain ⟨graph, flag, built, known⟩ := build_node? resolved member named
  have justified := build_justified built _ (List.mem_of_find?_eq_some known)
  exact ⟨graph, _, built, known, place, noLater, origin, recipe_of_pattern justified origin⟩

theorem build_borrows_program :
    Recipeless programRules "main.o" ∧
    Lends programRules programFiles "main.o" 1 (compileRule ".c" 6)
      ⟨"main", ["main"], ["main.c"], ["main.o"], some "compile"⟩ ∧
    (∀ own ∈ programRules.rulesFor "main.o", ∀ prereq ∈ own.prereqs,
      Derivable programRules programFiles prereq {"main.o"} {1}) ∧
    ∃ graph node, (Graph.build programRules programFiles ["main.o"]).1 = .ok graph ∧
      graph.node? "main.o" = some node ∧
      ∃ place ≤ 1, node.origin = .pattern place ∧
        ∃ maker, programRules.patterns[place]? = some maker ∧
          (node.recipe.isSome = true ∨
            maker.body.recipe = none ∧ maker.body.attributes.forceUpdate = true) := by
  have recipeless : Recipeless programRules "main.o" := ⟨by decide, by decide⟩
  have lends : Lends programRules programFiles "main.o" 1 (compileRule ".c" 6)
      ⟨"main", ["main"], ["main.c"], ["main.o"], some "compile"⟩ := by
    refine ⟨rfl, rfl, rfl, fun prereq needed => ?_⟩
    obtain rfl := List.mem_singleton.mp needed
    exact ⟨rfl, rfl, by decide⟩
  have apart : ∀ own ∈ programRules.rulesFor "main.o", ∀ prereq ∈ own.prereqs,
      Derivable programRules programFiles prereq {"main.o"} {1} := by
    intro own ownMember prereq needed
    obtain rfl := List.mem_singleton.mp ownMember
    obtain rfl := List.mem_singleton.mp needed
    exact .source (by simp) rfl rfl
  exact ⟨recipeless, lends, apart, build_borrows recipeless lends apart⟩

end Borrows

end BuildSystem
