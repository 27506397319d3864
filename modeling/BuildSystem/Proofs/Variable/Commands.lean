/-
**The commands of recipes.**

The recipe of a rule for targets of a common form is bound in up to three passes: to what groups
have matched and to the stem when the rule is applied, and to the variables of the target when its
command is wanted.

* `Recipe.atOnce` — the command that has every reference of the recipe replaced in one pass.
* `Recipe.Settled` — what the first passes put in neither joins a reference nor looks like one.
* `build_command` — then the command of a node is its recipe with every reference replaced at once.
* `build_command_explicit` — explicit rules are bound in one pass, so nothing is asked of them.
* `not_boundAtOnce` — a stem that is put in right behind the name of a variable changes that name.
-/

import BuildSystem.Proofs.Graph.Justification
import BuildSystem.Proofs.Variable.Parts
import BuildSystem.Recipe

namespace BuildSystem

open Chars (Filling parts fill settled)

/-- Whether the recipe of a rule may refer to the groups of a regular expression. -/
def PatternRule.isGrouped : PatternRule → Bool
  | stem _ => false
  | regex _ => true

/-- The values of variables. -/
def Environment.filling (values : Environment) : Filling :=
  .named fun name => (values.get? (String.ofList name)).map String.toList

namespace Recipe

/-- What groups have matched, in a recipe that may refer to them. -/
def ofGroups (grouped : Bool) (groups : List String) : Filling :=
  if grouped then .matched (groups.map String.toList) else .nothing

/-- What is put into a recipe when its rule is applied. -/
def early (grouped : Bool) (stem : String) (groups : List String) : Filling :=
  (ofGroups grouped groups).orElse (Environment.filling (stemValues stem groups))

/-- **The command of a node with every reference of the recipe replaced at once**: to a group if the
recipe may refer to groups, and to a variable of the target. -/
def atOnce (grouped : Bool) (node : Node) (newer : List String) (recipe : String) : String :=
  String.ofList <|
    fill ((ofGroups grouped node.groups).orElse (Environment.filling (values node newer)))
      (parts grouped recipe.toList)

/-- **What groups have matched, and the stem, neither join a reference nor look like one** where
they are put into the recipe. -/
structure Settled (grouped : Bool) (stem : String) (groups : List String) (recipe : String) :
    Prop where
  matched : settled (ofGroups grouped groups) .outside (parts grouped recipe.toList) = true
  named : settled (early grouped stem groups) .outside (parts grouped recipe.toList) = true

end Recipe

theorem Recipe.literal_ofGroups (grouped : Bool) (groups : List String) :
    (ofGroups grouped groups).Literal := by
  intro c
  cases grouped with
  | false => rfl
  | true => rfl

theorem Recipe.literal_early (grouped : Bool) (stem : String) (groups : List String) :
    (early grouped stem groups).Literal := by
  intro c
  rw [early, Filling.orElse, literal_ofGroups grouped groups c]
  rfl

/-- A text is bound to variables in one pass over its parts. -/
theorem bind_filling (values : Environment) (text : String) :
    bind (fun name => values.get? name) text =
      String.ofList (fill values.filling (parts false text.toList)) :=
  congrArg String.ofList (Chars.bind_eq_fill _ text.toList)

/-- A text in which values are settled is bound as if all values had been put in at once. -/
theorem bind_settled (values : Environment) {filling : Filling} (literal : filling.Literal)
    {grouped : Bool} {text : List Char}
    (ready : settled filling .outside (parts grouped text) = true) :
    bind (fun name => values.get? name) (String.ofList (fill filling (parts grouped text))) =
      String.ofList (fill (filling.orElse values.filling) (parts grouped text)) := by
  rw [bind, String.toList_ofList]
  exact congrArg String.ofList (Chars.bind_fill _ literal ready)

/-- The variables of the stem are variables of the target. -/
theorem Recipe.get?_values_of_stem {node : Node} {name value : String}
    (there : (stemValues node.stem node.groups).get? name = some value) (newer : List String) :
    (values node newer).get? name = some value := by
  have others : ∀ other ∈ ["target", "prereq", "newprereq", "alltarget"],
      (stemValues node.stem node.groups).get? other = none := by
    simp [stemValues, stemNames, Table.get?]
  have differ : ∀ other ∈ ["target", "prereq", "newprereq", "alltarget"], other ≠ name := by
    rintro other member rfl
    rw [others other member] at there
    cases there
  unfold values
  simp [Table.get?, differ, there]

theorem Recipe.filling_of_stem (node : Node) (newer : List String) (part : Chars.Part)
    (value : List Char)
    (there : Environment.filling (stemValues node.stem node.groups) part = some value) :
    Environment.filling (values node newer) part = some value := by
  cases part with
  | plain c => cases there
  | group digit => cases there
  | reference braced name =>
    obtain ⟨text, found, rfl⟩ := Option.map_eq_some_iff.mp there
    exact Option.map_eq_some_iff.mpr ⟨text, get?_values_of_stem found newer, rfl⟩

/-- The recipe of a rule that is applied to a name: references to groups are replaced first, and
then those to the stem. -/
theorem PatternRule.recipe_of_instance {rule : PatternRule} {name : String} {found : Instance}
    (fits : rule.instance? name = some found) :
    found.recipe = rule.body.recipe.map fun recipe =>
      bind (fun name => (stemValues found.stem found.groups).get? name) (String.ofList
        (fill (Recipe.ofGroups rule.isGrouped found.groups)
          (parts rule.isGrouped recipe.toList))) := by
  cases rule with
  | stem rule =>
    rw [instance?, StemRule.instance?] at fits
    split at fits
    · cases fits
    · obtain rfl := Option.some.inj fits
      simp [isGrouped, Recipe.ofGroups, Chars.fill_parts, body]
  | regex rule =>
    rw [instance?, RegexRule.instance?] at fits
    split at fits
    · cases fits
    · obtain rfl := Option.some.inj fits
      simp [isGrouped, Recipe.ofGroups, body, bindGroups, Chars.bindGroups_eq_fill,
        Function.comp_def]

/-- The command of a settled recipe has every reference replaced at once. -/
theorem PatternRule.command_of_instance {rule : PatternRule} {node : Node} {found : Instance}
    (fits : rule.instance? node.name = some found) (same : node.recipe = found.recipe)
    (stem : node.stem = found.stem) (groups : node.groups = found.groups) {recipe : String}
    (declared : rule.body.recipe = some recipe)
    (ready : Recipe.Settled rule.isGrouped node.stem node.groups recipe) (newer : List String) :
    Recipe.command node newer = some (Recipe.atOnce rule.isGrouped node newer recipe) := by
  rw [Recipe.command, same, recipe_of_instance fits, declared, ← stem, ← groups, Option.map_some,
    Option.map_some, bind_settled _ (Recipe.literal_ofGroups _ _) ready.matched]
  have literal := Recipe.literal_early rule.isGrouped node.stem node.groups
  have late := bind_settled (Recipe.values node newer) literal ready.named
  rw [Recipe.early, Filling.orElse_orElse_of_le _ (Recipe.filling_of_stem node newer)] at late
  exact congrArg some late

variable {rules : RuleSet} {available : String → Bool} {targets : List String} {graph : Graph}

/-- **The command of a node that a rule for targets of a common form makes is the recipe of the rule
with every reference replaced at once**, if what the rule puts in when it is applied neither joins a
reference nor looks like one. -/
theorem build_command (built : (Graph.build rules available targets).1 = .ok graph) {node : Node}
    (member : node ∈ graph.nodes) {index : Nat} (origin : node.origin = .pattern index)
    {rule : PatternRule} (placed : rules.patterns[index]? = some rule) {recipe : String}
    (declared : rule.body.recipe = some recipe)
    (ready : Recipe.Settled rule.isGrouped node.stem node.groups recipe) (newer : List String) :
    Recipe.command node newer = some (Recipe.atOnce rule.isGrouped node newer recipe) := by
  cases build_justified built node member with
  | source elsewhere =>
    rw [elsewhere] at origin
    cases origin
  | explicit elsewhere =>
    rw [elsewhere] at origin
    cases origin
  | pattern place own found made there _ fits same stem groups =>
    obtain rfl := Origin.pattern.inj (made.symm.trans origin)
    obtain rfl := Option.some.inj (there.symm.trans placed)
    exact own.command_of_instance fits same stem groups declared ready newer

/-- **The command of a node that explicit rules make is the last recipe of these rules with every
reference replaced at once.** -/
theorem build_command_explicit (built : (Graph.build rules available targets).1 = .ok graph)
    {node : Node} (member : node ∈ graph.nodes) (origin : node.origin = .explicit)
    (newer : List String) :
    Recipe.command node newer =
      ((rules.rulesFor node.name).filterMap (·.recipe)).getLast?.map
        (Recipe.atOnce false node newer) := by
  cases build_justified built node member with
  | source elsewhere =>
    rw [elsewhere] at origin
    cases origin
  | explicit _ _ _ _ same =>
    rw [Recipe.command, same]
    congr 1
    funext recipe
    exact bind_filling _ recipe
  | pattern _ _ _ elsewhere =>
    rw [elsewhere] at origin
    cases origin

/-! ### A stem behind the name of a variable -/

/-- Every node that a rule for targets of a common form makes has the recipe of the rule with every
reference replaced at once as its command. -/
def Graph.BoundAtOnce (graph : Graph) (rules : RuleSet) : Prop :=
  ∀ node ∈ graph.nodes, ∀ index, node.origin = .pattern index →
    ∀ rule, rules.patterns[index]? = some rule → ∀ recipe, rule.body.recipe = some recipe →
      ∀ newer, Recipe.command node newer = some (Recipe.atOnce rule.isGrouped node newer recipe)

/-- A rule for object files. -/
def objectRule (recipe : String) : PatternRule :=
  .stem {
    prereqs := ["%.c"]
    recipe := some recipe
    attributes := {}
    comparator := none
    location := ⟨"mkfile", 1⟩
    target := "%.o"
    start := ""
    finish := ".o"
    marker := '%'
    allowEmptyStem := false
    allTargets := ["%.o"] }

/-- The object file that the rule makes, with the recipe bound to the stem. -/
def mainObject (recipe : String) : Node where
  name := "main.o"
  prereqs := ["main.c"]
  recipe := some recipe
  stem := "main"
  groups := ["main"]
  allTargets := ["main.o"]
  location := some ⟨"mkfile", 1⟩
  origin := .pattern 0

/-- The graph of the object file. -/
def objectGraph (recipe : String) : Graph where
  nodes := [{ name := "main.c", origin := .source }, mainObject recipe]
  roots := ["main.o"]

/-- The rules of a file that holds one rule for object files. -/
def objectRules (recipe : String) : RuleSet where
  rules := [.pattern (objectRule recipe)]
  values := []

theorem build_spaced :
    (Graph.build (objectRules "cc -o $target $stem.c") (· = "main.c") ["main.o"]).1 =
      .ok (objectGraph "cc -o $target main.c") := by
  rfl

/-- The stem stands behind a blank, and the command is what it is meant to be. -/
theorem build_command_spaced :
    (Graph.build (objectRules "cc -o $target $stem.c") (· = "main.c") ["main.o"]).1 =
        .ok (objectGraph "cc -o $target main.c") ∧
      mainObject "cc -o $target main.c" ∈ (objectGraph "cc -o $target main.c").nodes ∧
      Recipe.Settled false "main" ["main"] "cc -o $target $stem.c" ∧
      Recipe.command (mainObject "cc -o $target main.c") ["main.c"] =
        some (Recipe.atOnce false (mainObject "cc -o $target main.c") ["main.c"]
          "cc -o $target $stem.c") ∧
      Recipe.atOnce false (mainObject "cc -o $target main.c") ["main.c"] "cc -o $target $stem.c" =
        "cc -o main.o main.c" :=
  have member : mainObject "cc -o $target main.c" ∈ (objectGraph "cc -o $target main.c").nodes :=
    List.mem_cons_of_mem _ List.mem_cons_self
  have ready : Recipe.Settled false "main" ["main"] "cc -o $target $stem.c" :=
    ⟨by decide, by decide⟩
  have placed : (objectRules "cc -o $target $stem.c").patterns[0]? =
      some (objectRule "cc -o $target $stem.c") := rfl
  ⟨build_spaced, member, ready, build_command build_spaced member rfl placed rfl ready ["main.c"],
    rfl⟩

theorem build_joined :
    (Graph.build (objectRules "echo $target$stem") (· = "main.c") ["main.o"]).1 =
      .ok (objectGraph "echo $targetmain") := by
  rfl

/-- **A stem that is put in right behind the name of a variable changes that name**, and the
variable is not replaced any more. -/
theorem not_boundAtOnce : ∃ rules available targets graph,
    (Graph.build rules available targets).1 = .ok graph ∧ ¬ graph.BoundAtOnce rules := by
  refine ⟨objectRules "echo $target$stem", (· = "main.c"), ["main.o"], _, build_joined,
    fun bound => ?_⟩
  have command := bound (mainObject "echo $targetmain")
    (List.mem_cons_of_mem _ List.mem_cons_self) 0 rfl (objectRule "echo $target$stem") rfl
    "echo $target$stem" rfl ["main.c"]
  have joined : Recipe.command (mainObject "echo $targetmain") ["main.c"] =
      some "echo $targetmain" := by rfl
  have once : Recipe.atOnce false (mainObject "echo $targetmain") ["main.c"] "echo $target$stem" =
      "echo main.omain" := by rfl
  have different : "echo $targetmain" ≠ "echo main.omain" := by decide
  exact different (Option.some.inj (joined.symm.trans (command.trans (congrArg some once))))

end BuildSystem
