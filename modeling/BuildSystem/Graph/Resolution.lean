/-
**Resolving requests into graphs.**

A name is resolved to a node by the explicit rules that mention it, by the first usable rule for
targets of a common form whose prerequisites can all be resolved, or by a file of that name.  A
rule for targets of a common form is never used twice on one path, and a path that leads back to
itself is given up if such a rule is on it and is an error otherwise.

* `MergedRule` — all explicit rules of a target taken together.
* `Search` — the nodes that have been found, and why the last name failed.
* `resolve` — the search for one name; its depth is bounded by the number of rules.
* `Graph.build` — the graph of a request.
-/

import BuildSystem.Graph.Decision
import BuildSystem.Pattern

namespace BuildSystem

/-! ### Explicit rules of one target -/

/-- All explicit rules of a target taken together. -/
structure MergedRule where
  prereqs : List String
  attributes : Attributes
  comparator : Option String
  /-- The last rule with a recipe. -/
  recipeRule : Option ExplicitRule
deriving DecidableEq, Repr

/-- Takes rules together: prerequisites and attributes add up, and the last comparator that is not
empty and the last recipe count. -/
def MergedRule.ofRules (rules : List ExplicitRule) : MergedRule where
  prereqs := distinct (rules.flatMap (·.prereqs))
  attributes := rules.foldl (fun found rule => found.union rule.attributes) {}
  comparator := rules.reverse.findSome? fun rule => rule.comparator.filter (!·.isEmpty)
  recipeRule := rules.reverse.find? (·.recipe.isSome)

/-- Whether a target may borrow the recipe of a rule for targets of a common form. -/
def MergedRule.mayBorrow (merged : MergedRule) : Bool :=
  merged.recipeRule.isNone && !merged.attributes.virtual

/-! ### The state of a search -/

/-- What a search has found so far. -/
structure Search where
  /-- The nodes, in the order in which they were completed. -/
  nodes : List Node := []
  /-- Why the last name that was given up failed. -/
  failure : Option BuildError := none
  /-- The decisions that were made. -/
  trace : List Decision := []
deriving DecidableEq, Repr

namespace Search

/-- Whether a name has a node. -/
def knows (search : Search) (name : String) : Bool :=
  search.nodes.any (·.name == name)

/-- Records a decision. -/
def note (search : Search) (decision : Decision) : Search :=
  { search with trace := search.trace ++ [decision] }

/-- Records a node. -/
def add (search : Search) (node : Node) : Search :=
  { search with nodes := search.nodes ++ [node] }

/-- Records why a name failed. -/
def fail (search : Search) (error : BuildError) : Search :=
  { search with failure := some error }

end Search

/-- How the search for a name ends. -/
inductive Outcome where
  /-- The name has a node. -/
  | made
  /-- The name is given up. -/
  | unmade
  /-- Explicit rules form a cycle, which ends the whole search. -/
  | cycle (names : List String)
deriving DecidableEq, Repr

/-- How the search for the node of one name ends. -/
inductive Attempt where
  | node (node : Node)
  | missing
  | cycle (names : List String)
deriving DecidableEq, Repr

/-- The search for one name, as a function of what has been found. -/
abbrev Resolver := String → Search → Outcome × Search

/-! ### One name -/

/-- Resolves names in order up to the first one that fails. -/
def resolveAll (resolver : Resolver) : List String → Search → Outcome × Search
  | [], search => (.made, search)
  | name :: rest, search =>
    match resolver name search with
    | (.made, search) => resolveAll resolver rest search
    | failed => failed

/-- The prerequisites of a candidate: those of the explicit rules, and those of the instance that
are not among them. -/
def Candidate.prereqs (extra : List String) (candidate : Candidate) : List String :=
  extra ++ candidate.found.prereqs.filter fun prereq => !extra.contains prereq

/-- The node that a candidate makes of a name. -/
def Candidate.node (name : String) (extra : List String) (attributes : Attributes)
    (candidate : Candidate) : Node where
  name := name
  prereqs := candidate.prereqs extra
  recipe := candidate.found.recipe
  attributes := candidate.rule.body.attributes.union attributes
  comparator := candidate.rule.body.comparator
  stem := candidate.found.stem
  groups := candidate.found.groups
  allTargets := candidate.found.allTargets
  location := some candidate.rule.body.location
  origin := .pattern candidate.index

/-- Tries candidates in order until the prerequisites of one can all be resolved.  The resolver is
told which rule is in use. -/
def tryCandidates (resolver : Nat → Resolver) (name : String) (extra : List String)
    (attributes : Attributes) : List Candidate → Search → Attempt × Search
  | [], search => (.missing, search)
  | candidate :: rest, search =>
    let target := candidate.rule.target
    let prereqs := candidate.prereqs extra
    let search := search.note (.trying name target candidate.rule.body.location prereqs)
    match resolveAll (resolver candidate.index) prereqs search with
    | (.made, search) =>
      (.node (candidate.node name extra attributes),
        search.note (.chosen name target candidate.found.stem))
    | (.unmade, search) =>
      tryCandidates resolver name extra attributes rest (search.note (.rejected name target))
    | (.cycle names, search) => (.cycle names, search)

/-- The node that explicit rules make of a name. -/
def MergedRule.node (name : String) (first : ExplicitRule) (merged : MergedRule) : Node :=
  let rule := merged.recipeRule.getD first
  { name := name
    prereqs := merged.prereqs
    recipe := merged.recipeRule.bind (·.recipe)
    attributes := merged.attributes
    comparator := merged.comparator
    allTargets := rule.targets
    location := some rule.location
    origin := .explicit }

/-- Applies the explicit rules of a name. -/
def applyExplicit (resolver : Resolver) (name : String) (first : ExplicitRule)
    (merged : MergedRule) (search : Search) : Attempt × Search :=
  match resolveAll resolver merged.prereqs search with
  | (.made, search) =>
    let node := merged.node name first
    (.node node, search.note (.explicitRule name (merged.recipeRule.getD first).location))
  | (.unmade, search) => (.missing, search)
  | (.cycle names, search) => (.cycle names, search)

/-- Looks for the node of a name with explicit rules: rules without a recipe first try to borrow
one. -/
def attemptExplicit (rules : RuleSet) (resolver : List Nat → Resolver) (chain : List Nat)
    (name : String) (first : ExplicitRule) (merged : MergedRule) (search : Search) :
    Attempt × Search :=
  if merged.mayBorrow then
    let found := candidates rules.patterns name chain
    match tryCandidates (fun index => resolver (chain ++ [index])) name merged.prereqs
        merged.attributes found search with
    | (.missing, search) => applyExplicit (resolver chain) name first merged search
    | ended => ended
  else applyExplicit (resolver chain) name first merged search

/-- Looks for the node of a name without explicit rules. -/
def attemptImplicit (rules : RuleSet) (available : String → Bool) (resolver : List Nat → Resolver)
    (chain : List Nat) (name : String) (search : Search) : Attempt × Search :=
  let found := candidates rules.patterns name chain
  match tryCandidates (fun index => resolver (chain ++ [index])) name [] {} found search with
  | (.missing, search) =>
    if available name then (.node { name := name, origin := .source }, search.note (.source name))
    else (.missing, search)
  | ended => ended

/-- Looks for the node of a name. -/
def attemptName (rules : RuleSet) (available : String → Bool) (resolver : List Nat → Resolver)
    (chain : List Nat) (name : String) (search : Search) : Attempt × Search :=
  match rules.rulesFor name with
  | [] => attemptImplicit rules available resolver chain name search
  | first :: others =>
    attemptExplicit rules resolver chain name first (.ofRules (first :: others)) search

/-- Records the node of a name, or why there is none: what a deeper search has met, or that nothing
makes the name. -/
def conclude (stack : List String) (name : String) : Attempt × Search → Outcome × Search
  | (.node node, search) => (.made, search.add node)
  | (.cycle names, search) => (.cycle names, search)
  | (.missing, search) =>
    if search.failure.isSome then (.unmade, search)
    else
      let neededBy := stack.getLast?
      (.unmade, (search.note (.noRule name neededBy)).fail (.noRule name neededBy))

/-- Resolves one name.  `stack` holds the names that are being resolved, the outermost first, and
`chain` the places of the rules in use on the way to this name. -/
def resolve (rules : RuleSet) (available : String → Bool) :
    (depth : Nat) → (stack : List String) → (chain : List Nat) → Resolver
  | 0, _, _, _, search => (.unmade, search)
  | depth + 1, stack, chain, name, search =>
    if search.knows name then (.made, search)
    else if stack.contains name then
      let names := stack.dropWhile (· != name) ++ [name]
      if chain.isEmpty then (.cycle names, search)
      else (.unmade, (search.note (.cycleRejected name names)).fail (.cycle names))
    else
      let deeper := resolve rules available depth (stack ++ [name])
      conclude stack name
        (attemptName rules available deeper chain name { search with failure := none })

/-! ### A request -/

/-- The depth that no search exceeds: every explicit target and every rule for targets of a common
form occurs once on a path, and one more name may end it. -/
def resolutionDepth (rules : RuleSet) : Nat :=
  rules.explicitTargets.length + rules.patterns.length + 1

/-- Resolves the requested names in order. -/
def resolveRoots (rules : RuleSet) (available : String → Bool) :
    List String → Search → Except BuildError Unit × Search
  | [], search => (.ok (), search)
  | name :: rest, search =>
    let start := { search with failure := none }
    match resolve rules available (resolutionDepth rules) [] [] name start with
    | (.made, search) => resolveRoots rules available rest search
    | (.unmade, search) => (.error (search.failure.getD (.noRule name none)), search)
    | (.cycle names, search) => (.error (.cycle names), search)

/-- Looks at a node when the nodes behind it have been looked at: a node that is needed is kept, and
its prerequisites are needed too. -/
def keepNeeded (node : Node) (swept : List String × List Node) : List String × List Node :=
  if swept.1.contains node.name then (node.prereqs ++ swept.1, node :: swept.2) else swept

/-- The nodes that some needed names lead to, given that every node stands behind its
prerequisites. -/
def reachableNodes (needed : List String) (nodes : List Node) : List Node :=
  (nodes.foldr keepNeeded (needed, [])).2

/-- Tells whether a node was neither asked for nor named by an explicit rule. -/
def Node.markIntermediate (rules : RuleSet) (roots : List String) (node : Node) : Node :=
  match node.origin with
  | .pattern _ =>
    { node with
      intermediate := (rules.rulesFor node.name).isEmpty && !roots.contains node.name }
  | _ => node

/-- The graph of a request, or the error that prevents it, with the decisions on the way.  Without
requested targets the default target is made. -/
def Graph.build (rules : RuleSet) (available : String → Bool) (targets : List String) :
    Except BuildError Graph × List Decision :=
  let roots := if targets.isEmpty then rules.defaultTargets else targets
  if roots.isEmpty then (.error (.noRule "<default>" none), [])
  else
    match resolveRoots rules available roots {} with
    | (.error error, search) => (.error error, search.trace)
    | (.ok (), search) =>
      let nodes := (reachableNodes roots search.nodes).map (·.markIntermediate rules roots)
      (.ok ⟨nodes, roots⟩, search.trace ++ [.complete nodes.length roots])

end BuildSystem
