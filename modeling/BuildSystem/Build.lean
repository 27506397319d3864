/-
**A whole build.**

A build reads its rule file, resolves the request into a graph, finds out what must be built, and
runs the plan.

* `Build.plan` — the plan for a request.
* `Build.run` — a whole build.
-/

import BuildSystem.Graph.Resolution
import BuildSystem.Options
import BuildSystem.RuleFile.Reader
import BuildSystem.Schedule.Run

namespace BuildSystem.Build

variable {σ : Type}

/-- The rule set of the rule file; its variables start with the given environment. -/
def loadRules (host : Host σ) (options : BuildOptions) (environment : Environment) :
    Action σ RuleSet :=
  RuleFile.ofFile (RuleFile.Source.ofHost host options.shell)
    (Bindings.ofEnvironment environment options.assignments) options.ruleFile

/-- The graph of a request, with its trace. -/
def graph (host : Host σ) (console : Console) (rules : RuleSet) (targets : List String) :
    Action σ Graph := do
  let state ← get
  let (result, trace) := Graph.build rules (host.fileExists · state) targets
  host.say (trace.flatMap fun decision => console.debug decision.shown)
  accepted (result.mapError .build)

/-- The plan for a request. -/
def plan (host : Host σ) (console : Console) (rules : RuleSet) (options : BuildOptions) :
    Action σ Plan := do
  let graph ← graph host console rules options.targets
  Plan.evaluate host console
    { forceAll := options.forceAll, ignoreMissing := options.ignoreMissing, shell := options.shell }
    graph

/-- How the recipes of a build are run. -/
def executor (rules : RuleSet) (options : BuildOptions) : Executor where
  values := rules.values
  shell := options.shell
  dryRun := options.dryRun
  touchOnly := options.touch

/-- What is said about the requested targets that need no work. -/
def upToDate (plan : Plan) : List Printed :=
  plan.graph.roots.flatMap fun root =>
    if (plan.assessment root).mustBuild then [] else Console.upToDate root

/-- A whole build; `cost` says how long the work on each target takes. -/
def run (host : Host σ) (cost : String → Int) (options : BuildOptions) : Action σ BuildReport := do
  let console := options.console
  let rules ← loadRules host options (host.environment (← get))
  let plan ← plan host console rules options
  host.say (upToDate plan)
  let setting : Schedule.Setting σ :=
    .ofPlan host console ⟨options.workers, options.keepGoing⟩ (executor rules options) plan cost
      .byFinish
  let state ← Schedule.run setting plan
  return state.report plan.graph

end BuildSystem.Build
