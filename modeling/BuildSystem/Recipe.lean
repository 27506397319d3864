/-
**Running recipes.**

The variables of a target are put into the text of its recipe before the recipe is shown or run, so
that what a dry run shows is what a real run hands to the shell.  They are exported to the
environment of the recipe as well.

* `Recipe.values`, `Recipe.command` — the variables of a target and the text of its recipe.
* `Executor.describe` — what is shown when the work on a target begins.
* `Executor.execute`, `Executor.share` — the result of the work on a target, and the result for
  another target of the same recipe.
-/

import BuildSystem.Pattern
import BuildSystem.Plan

namespace BuildSystem

namespace Recipe

/-- The values of the variables that a recipe sees; `newer` are the prerequisites because of which
the target is built. -/
def values (node : Node) (newer : List String) : Environment :=
  [("target", node.name), ("prereq", Text.unwords node.uniquePrereqs),
    ("newprereq", Text.unwords newer),
    ("alltarget", Text.unwords (if node.allTargets.isEmpty then [node.name] else node.allTargets))]
  ++ stemValues node.stem node.groups

/-- The recipe with the variables of its target filled in. -/
def command (node : Node) (newer : List String) : Option String :=
  node.recipe.map (bind fun name => (values node newer).get? name)

/-- What identifies one run of a recipe that makes several targets: where its rule stands, and the
targets.  A recipe for a single target has no such key. -/
structure Group where
  location : Option Location
  targets : List String
deriving DecidableEq, Repr

/-- The key of the run that makes a target, if it makes others too. -/
def group? (node : Node) : Option Group :=
  if node.recipe.isSome && 2 ≤ node.allTargets.length then some ⟨node.location, node.allTargets⟩
  else none

end Recipe

/-- The result of the work on a target. -/
structure JobResult where
  name : String
  status : Status
  exitCode : Int := 0
  output : String := ""
  /-- The time of the target, if the work gave it one. -/
  time : Option Int := none
deriving DecidableEq, Repr

/-- How recipes are run. -/
structure Executor where
  /-- The values of the variables at the end of the rule file. -/
  values : Values
  shell : List String := ["sh"]
  /-- Show recipes and run nothing. -/
  dryRun : Bool := false
  /-- Set the times of targets instead of running recipes. -/
  touchOnly : Bool := false
deriving DecidableEq, Repr

/-- A recorded time; a time of zero counts as missing, and then the second time is taken. -/
def recordedTime (time : Option Int) (otherwise : Option Int) : Option Int :=
  match time with
  | some value => if value = 0 then otherwise else some value
  | none => otherwise

namespace Executor

variable {σ : Type}

/-- The environment of a recipe: the environment of the build, the variables of the rule file, the
variables of the target, and the number of the slot in which the recipe runs. -/
def environment (executor : Executor) (outer : Environment) (node : Node) (newer : List String)
    (slot : Nat) : Environment :=
  (((outer.update executor.values.environment).update (Recipe.values node newer)).set "nproc"
    (toString slot))

/-- The command that runs a recipe: the shell stops at the first failure. -/
def words (executor : Executor) (recipe : String) : List String :=
  executor.shell ++ ["-e", "-c", recipe]

/-- What is shown when the work on a target begins. -/
def describe (executor : Executor) (node : Node) (newer : List String) : Option String :=
  if executor.touchOnly && !executor.dryRun then
    if node.isVirtual then none else some ("touch(" ++ node.name ++ ")")
  else if node.attributes.quiet && !executor.dryRun then none
  else Recipe.command node newer

/-- Sets the time of a target to the clock and gives the time. -/
def touch (host : Host σ) (name : String) : Action σ Int := do
  host.touch name
  let state ← get
  return (recordedTime (host.modified name state) none).getD (host.now state)

/-- Removes the target of a failed recipe, if its rule says so. -/
def removeFailed (host : Host σ) (node : Node) : Action σ Unit :=
  if node.attributes.deleteOnFailure && !node.isVirtual then host.remove node.name else pure ()

/-- The result of the work on a target without a recipe. -/
def recordOnly (host : Host σ) (node : Node) : Action σ JobResult := do
  let state ← get
  let time := if node.attributes.forceUpdate then host.now state
    else (host.modified node.name state).getD (host.now state)
  return { name := node.name, status := .succeeded, time := some time }

/-- Runs the recipe of a target. -/
def runRecipe (executor : Executor) (host : Host σ) (node : Node) (newer : List String)
    (recipe : String) (slot : Nat) : Action σ JobResult := do
  let environment := executor.environment (host.environment (← get)) node newer slot
  let completion ← host.attempt (executor.words recipe) environment
  if completion.exitCode = 0 then
    let state ← get
    let modified := if node.isVirtual then none else host.modified node.name state
    return {
      name := node.name
      status := .succeeded
      output := completion.output
      time := recordedTime modified (some (host.now state)) }
  else
    removeFailed host node
    return {
      name := node.name
      status := .failed
      exitCode := completion.exitCode
      output := completion.output }

/-- Does the work on a target. -/
def execute (executor : Executor) (host : Host σ) (node : Node) (newer : List String)
    (slot : Nat) : Action σ JobResult :=
  if executor.dryRun then return { name := node.name, status := .succeeded }
  else if executor.touchOnly then do
    let time ← if node.isVirtual then pure none else some <$> touch host node.name
    return { name := node.name, status := .succeeded, time }
  else
    match Recipe.command node newer with
    | none => recordOnly host node
    | some recipe => executor.runRecipe host node newer recipe slot

/-- The result for a target whose recipe has already run for another one. -/
def share (executor : Executor) (host : Host σ) (result : JobResult) (node : Node) :
    Action σ JobResult := do
  let shared := { result with name := node.name, output := "" }
  if result.status ≠ .succeeded then
    removeFailed host node
    return shared
  else if executor.dryRun || node.isVirtual then return shared
  else
    let time ← if executor.touchOnly then some <$> touch host node.name
      else host.modified node.name <$> get
    return { shared with time := recordedTime time result.time }

end Executor

end BuildSystem
