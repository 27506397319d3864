/-
**Every node of a graph is justified.**

* `Justified` — the three ways in which a node can be justified, said by the rules that name its
  target and by what is available, and not by a search.
* `build_justified` — every node of a graph that is built is justified: what a search has tried and
  given up on the way leaves no trace in a node.
-/

import BuildSystem.Proofs.Graph.Search

namespace BuildSystem

/-! ### Explicit rules of one target, taken together -/

/-- The attributes that one of several rules gives. -/
def Attributes.anyOf (given : List Attributes) : Attributes where
  virtual := given.any (·.virtual)
  quiet := given.any (·.quiet)
  deleteOnFailure := given.any (·.deleteOnFailure)
  continueOnError := given.any (·.continueOnError)
  forceUpdate := given.any (·.forceUpdate)
  comparator := given.any (·.comparator)

/-- Adding attributes up from the first rule on gives all that one of the rules gives. -/
theorem Attributes.foldl_union (first : Attributes) (rules : List ExplicitRule) :
    rules.foldl (fun found rule => found.union rule.attributes) first =
      .anyOf (first :: rules.map (·.attributes)) := by
  induction rules generalizing first with
  | nil => simp [Attributes.anyOf]
  | cons rule rest ih =>
    rw [List.foldl_cons, ih]
    simp [Attributes.anyOf, Attributes.union, Bool.or_assoc]

theorem find?_bind_eq {α β : Type} (given : α → Option β) (list : List α) :
    (list.find? fun item => (given item).isSome).bind given = list.findSome? given := by
  induction list with
  | nil => rfl
  | cons item rest ih =>
    rw [List.find?_cons, List.findSome?_cons]
    cases value : given item with
    | none => simpa using ih
    | some value' => simp [value]

namespace MergedRule

variable (rules : List ExplicitRule)

theorem prereqs_ofRules :
    (ofRules rules).prereqs = (rules.flatMap (·.prereqs)).eraseDups :=
  distinct_eq_eraseDups _

theorem attributes_ofRules :
    (ofRules rules).attributes = .anyOf (rules.map (·.attributes)) := by
  unfold ofRules
  rw [Attributes.foldl_union]
  simp [Attributes.anyOf]

theorem recipe_ofRules :
    (ofRules rules).recipeRule.bind (·.recipe) = (rules.filterMap (·.recipe)).getLast? := by
  unfold ofRules
  rw [List.getLast?_filterMap]
  exact find?_bind_eq (fun rule : ExplicitRule => rule.recipe) rules.reverse

theorem comparator_ofRules :
    (ofRules rules).comparator =
      (rules.filterMap fun rule => rule.comparator.filter (!·.isEmpty)).getLast? := by
  unfold ofRules
  rw [List.getLast?_filterMap]

/-- Only rules without a recipe that make a file borrow a recipe. -/
theorem of_mayBorrow {rules : List ExplicitRule} (borrows : (ofRules rules).mayBorrow = true) :
    ∀ rule ∈ rules, rule.recipe = none ∧ rule.attributes.virtual = false := by
  unfold mayBorrow at borrows
  rw [Bool.and_eq_true, Option.isNone_iff_eq_none, Bool.not_eq_true', attributes_ofRules] at borrows
  obtain ⟨noRecipe, real⟩ := borrows
  intro rule member
  have unfound := List.find?_eq_none.mp noRecipe rule (List.mem_reverse.mpr member)
  have unmarked := List.any_eq_false.mp real _ (List.mem_map_of_mem member)
  exact ⟨by simpa using unfound, by simpa using unmarked⟩

end MergedRule

/-! ### Justified nodes -/

/-- **What justifies a node**: a file without rules, the explicit rules of its target, or a rule for
targets of a common form that fits its target. -/
inductive Justified (rules : RuleSet) (available : String → Bool) (node : Node) : Prop
  /-- The file exists, no explicit rule names it, and it needs nothing. -/
  | source (origin : node.origin = .source)
      (unruled : rules.rulesFor node.name = [])
      (there : available node.name = true)
      (prereqs : node.prereqs = [])
      (recipe : node.recipe = none)
      (status : node.initialStatus = .succeeded)
  /-- Prerequisites and attributes of all explicit rules add up; the last recipe and the last
  comparator that is not empty count. -/
  | explicit (origin : node.origin = .explicit)
      (ruled : rules.rulesFor node.name ≠ [])
      (prereqs : node.prereqs = ((rules.rulesFor node.name).flatMap (·.prereqs)).eraseDups)
      (attributes : node.attributes = .anyOf ((rules.rulesFor node.name).map (·.attributes)))
      (recipe : node.recipe = ((rules.rulesFor node.name).filterMap (·.recipe)).getLast?)
      (comparator : node.comparator = ((rules.rulesFor node.name).filterMap fun rule =>
        rule.comparator.filter (!·.isEmpty)).getLast?)
      (status : node.initialStatus = .unvisited)
  /-- A usable rule says how the target is made; explicit rules may add prerequisites and attributes
  if they neither have a recipe nor say that the target is no file. -/
  | pattern (index : Nat) (rule : PatternRule) (found : Instance)
      (origin : node.origin = .pattern index)
      (declared : rules.patterns[index]? = some rule)
      (usable : rule.body.recipe.isSome = true ∨ rule.body.attributes.forceUpdate = true)
      (fits : rule.instance? node.name = some found)
      (recipe : node.recipe = found.recipe)
      (stem : node.stem = found.stem)
      (groups : node.groups = found.groups)
      (allTargets : node.allTargets = found.allTargets)
      (prereqs : node.prereqs =
        ((rules.rulesFor node.name).flatMap (·.prereqs)).eraseDups ++
          found.prereqs.filter fun prereq =>
            prereq ∉ ((rules.rulesFor node.name).flatMap (·.prereqs)).eraseDups)
      (attributes : node.attributes =
        .anyOf (rule.body.attributes :: (rules.rulesFor node.name).map (·.attributes)))
      (comparator : node.comparator = rule.body.comparator)
      (borrowed : ∀ own ∈ rules.rulesFor node.name,
        own.recipe = none ∧ own.attributes.virtual = false)
      (status : node.initialStatus = .unvisited)

/-- What a candidate says about its rule: the rule stands in its place, is usable, and fits. -/
theorem of_mem_candidates {patterns : List PatternRule} {name : String} {skip : List Nat}
    {candidate : Candidate} (member : candidate ∈ candidates patterns name skip) :
    patterns[candidate.index]? = some candidate.rule ∧ candidate.rule.isUsable = true ∧
      candidate.index ∉ skip ∧ candidate.rule.instance? name = some candidate.found := by
  unfold candidates at member
  obtain ⟨⟨rule, index⟩, place, found⟩ := List.mem_filterMap.mp member
  dsimp only at found
  split at found
  · next open' =>
    obtain ⟨what, fits, rfl⟩ := Option.map_eq_some_iff.mp found
    rw [Bool.and_eq_true] at open'
    exact ⟨List.mem_zipIdx_iff_getElem?.mp place, open'.1, by simpa using open'.2, fits⟩
  · cases found

variable {rules : RuleSet} {available : String → Bool}

/-- A node that is made is justified, whatever its mark. -/
theorem Made.justified {made : Node} (isMade : Made rules available made) (flag : Bool) :
    Justified rules available { made with intermediate := flag } := by
  cases isMade with
  | source unruled there => exact .source rfl unruled there rfl rfl rfl
  | @explicit name first others ruled =>
    have some : rules.rulesFor name ≠ [] := by
      rw [ruled]
      exact List.cons_ne_nil first others
    exact .explicit rfl some (MergedRule.prereqs_ofRules _)
      (MergedRule.attributes_ofRules _) (MergedRule.recipe_ofRules _)
      (MergedRule.comparator_ofRules _) rfl
  | @pattern name candidate borrows member =>
    obtain ⟨declared, usable, -, fits⟩ := of_mem_candidates member
    have prereqs : candidate.prereqs (rules.merged name).prereqs =
        ((rules.rulesFor name).flatMap (·.prereqs)).eraseDups ++ candidate.found.prereqs.filter
          fun prereq => prereq ∉ ((rules.rulesFor name).flatMap (·.prereqs)).eraseDups := by
      rw [← MergedRule.prereqs_ofRules]
      unfold Candidate.prereqs
      refine congrArg _ (List.filter_congr fun prereq _ => ?_)
      rw [List.contains_eq_mem, decide_not]
      rfl
    have attributes : candidate.rule.body.attributes.union (rules.merged name).attributes =
        .anyOf (candidate.rule.body.attributes :: (rules.rulesFor name).map (·.attributes)) := by
      rw [RuleSet.merged, MergedRule.attributes_ofRules]
      rfl
    unfold PatternRule.isUsable at usable
    exact .pattern candidate.index candidate.rule candidate.found rfl declared
      (Bool.or_eq_true _ _ ▸ usable) fits rfl rfl rfl rfl prereqs attributes rfl
      (MergedRule.of_mayBorrow borrows) rfl

/-- **Every node of a graph that is built is justified.** -/
theorem build_justified {targets : List String} {graph : Graph}
    (built : (Graph.build rules available targets).1 = .ok graph) :
    ∀ node ∈ graph.nodes, Justified rules available node := by
  intro node member
  obtain ⟨made, flag, isMade, rfl⟩ := build_made built node member
  exact isMade.justified flag

/-! ### A small program -/

/-- A rule that makes object files from sources with the given ending. -/
def compileRule (source : String) (line : Nat) : PatternRule :=
  .stem {
    prereqs := ["%" ++ source]
    recipe := some "compile"
    attributes := {}
    comparator := none
    location := ⟨"mkfile", line⟩
    target := "%.o"
    start := ""
    finish := ".o"
    marker := '%'
    allowEmptyStem := false
    allTargets := ["%.o"] }

/-- A program that is linked from one object file when the two differ; the object file needs a
header besides its source, and the first rule for object files does not apply. -/
def programRules : RuleSet where
  rules := [
    .explicit {
      prereqs := ["main.o"]
      recipe := some "link"
      attributes := { comparator := true }
      comparator := some "cmp"
      location := ⟨"mkfile", 1⟩
      targets := ["main"] },
    .explicit {
      prereqs := ["main.h"]
      recipe := none
      attributes := {}
      comparator := none
      location := ⟨"mkfile", 3⟩
      targets := ["main.o"] },
    .pattern (compileRule ".f" 4),
    .pattern (compileRule ".c" 6)]
  values := []

/-- The files of the program. -/
def programFiles (name : String) : Bool :=
  ["main.c", "main.h"].contains name

/-- The graph of the program. -/
def programGraph : Graph where
  nodes := [
    { name := "main.h", origin := .source },
    { name := "main.c", origin := .source },
    { name := "main.o"
      prereqs := ["main.h", "main.c"]
      recipe := some "compile"
      stem := "main"
      groups := ["main"]
      allTargets := ["main.o"]
      location := some ⟨"mkfile", 6⟩
      origin := .pattern 1 },
    { name := "main"
      prereqs := ["main.o"]
      recipe := some "link"
      attributes := { comparator := true }
      comparator := some "cmp"
      allTargets := ["main"]
      location := some ⟨"mkfile", 1⟩
      origin := .explicit }]
  roots := ["main"]

/-- The object file borrows its recipe from the second rule for object files. -/
theorem build_program : (Graph.build programRules programFiles ["main"]).1 = .ok programGraph := by
  rfl

theorem build_justified_program :
    (Graph.build programRules programFiles ["main"]).1 = .ok programGraph ∧
      ∀ node ∈ programGraph.nodes, Justified programRules programFiles node :=
  ⟨build_program, build_justified build_program⟩

end BuildSystem
