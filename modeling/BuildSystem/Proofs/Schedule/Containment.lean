/-
**Failures of the work on targets.**

A job whose work raises a failure has failed, and the build goes on.  When its result is given to
the other targets of the recipe, files may have to be removed or touched once more; a refusal of
that is not contained, and ends the build.

* `Failure.result`, `contain_cases` — the result of a job whose work raises a failure.
* `Traced`, `Log.traced` — where the results come from that are on record.
* `Executor.Refused`, `ends_share_refused` — sharing a result fails only where the system refuses to
  remove or to touch the file of a target.
* `Course.sharing_grouped` — and only targets of recipes for several targets take shared results.
* `runPlan_contains` — a run contains all failures but interruptions and such refusals.
* `not_contained` — a locked file ends a build.
-/

import BuildSystem.Proofs.Schedule.Outcome
import BuildSystem.Proofs.Schedule.DryRun

namespace BuildSystem

/-! ### Failures of jobs -/

/-- The result of a job whose work raises a failure. -/
def Failure.result (failure : Failure) (name : String) : JobResult where
  name := name
  status := .failed
  exitCode := -1
  output := failure.label ++ ": " ++ failure.message ++ "\n"

namespace Schedule

variable {σ : Type}

/-- Work that is contained has ended, or it has raised a failure that is no interruption. -/
theorem contain_cases {workers : Workers σ} {job : Job} {world later : σ} {result : JobResult}
    (contained : contain workers job world = .ok result later) :
    workers.execute job.node job.slot world = .ok result later ∨
      ∃ failure, workers.execute job.node job.slot world = .error failure later ∧
        failure.isInterruption = false ∧ result = failure.result job.node.name := by
  change EStateM.tryCatch (workers.execute job.node job.slot) _ world = _ at contained
  unfold EStateM.tryCatch at contained
  cases outcome : workers.execute job.node job.slot world with
  | ok found after =>
    rw [outcome] at contained
    exact Or.inl contained
  | error failure after =>
    rw [outcome] at contained
    dsimp only at contained
    split at contained
    · cases contained
    · next survives =>
      obtain ⟨rfl, rfl⟩ := EStateM.Result.ok.inj contained
      exact Or.inr ⟨failure, rfl, Bool.eq_false_iff.mpr survives, rfl⟩

/-- **Where a result comes from**: in a scene of the build the work on the target ended with it, or
raised the failure that it tells of, or it was made for the target of the result of another one. -/
inductive Traced (setting : Setting σ) (start : State) (origin : σ) : Deed → JobResult → Prop
  | worked {earlier : List Deed} {world later : σ} {before : State} {job : Job} {result : JobResult}
      (log : Log setting start origin earlier ⟨world, before, .working job⟩)
      (worked : setting.workers.execute job.node job.slot world = .ok result later) :
      Traced setting start origin (.job job.node result) result
  | raised {earlier : List Deed} {world later : σ} {before : State} {job : Job} {failure : Failure}
      (log : Log setting start origin earlier ⟨world, before, .working job⟩)
      (raised : setting.workers.execute job.node job.slot world = .error failure later)
      (survives : failure.isInterruption = false) :
      Traced setting start origin (.job job.node (failure.result job.node.name))
        (failure.result job.node.name)
  | shared {earlier : List Deed} {world later : σ} {before : State} {node : Node}
      {rest : List Node} {result own : JobResult}
      (log : Log setting start origin earlier ⟨world, before, .sharing result (node :: rest)⟩)
      (shared : setting.workers.share result node world = .ok own later) :
      Traced setting start origin (.share node result) own

/-- **The results on record are traced.** -/
theorem Log.traced {setting : Setting σ} {plan : Plan} {origin : σ} {deeds : List Deed}
    {scene : Scene σ} (same : setting.graph = plan.graph) (arranged : Arranged plan.graph.nodes)
    (log : Log setting (State.start plan setting.options) origin deeds scene) :
    ∀ deed ∈ deeds, ∃ own, Traced setting (State.start plan setting.options) origin deed own ∧
      scene.state.Holds deed.node own := by
  refine log.holds_given same arranged (fun log contained => ?_)
    fun log shared => .shared log shared
  rcases contain_cases contained with worked | ⟨failure, raised, survives, rfl⟩
  · exact .worked log worked
  · exact .raised log raised survives

/-! ### Results that are shared -/

/-- **The system refuses what sharing a result needs**: a target that has failed with another one is
not removed, or one that has succeeded with another one is not touched. -/
inductive Refused (executor : Executor) (host : Host σ) (result : JobResult) (node : Node)
    (world : σ) (failure : Failure) : Prop
  | remove {later : σ} (failed : result.status ≠ .succeeded)
      (deletes : node.attributes.deleteOnFailure = true) (real : node.isVirtual = false)
      (refused : host.remove node.name world = .error failure later)
  | touch {later : σ} (succeeded : result.status = .succeeded)
      (touching : executor.touchOnly = true)
      (wet : executor.dryRun = false) (real : node.isVirtual = false)
      (refused : host.touch node.name world = .error failure later)

/-- **Sharing a result fails only where the system refuses what it needs.** -/
theorem ends_share_refused (executor : Executor) (host : Host σ) (result : JobResult) (node : Node)
    (world : σ) :
    Ends (fun _ _ => True) (fun failure _ => Refused executor host result node world failure)
      (executor.share host result node world) := by
  unfold Executor.share
  dsimp only
  split
  · next failed =>
    refine Ends.bind ?_
    unfold Executor.removeFailed
    split
    · next removes =>
      rw [Bool.and_eq_true, Bool.not_eq_true'] at removes
      cases removed : host.remove node.name world with
      | ok _ after => exact .ok (.ok trivial)
      | error failure after => exact .error (.remove failed removes.1 removes.2 removed)
    · exact .ok (.ok trivial)
  · next succeeded =>
    split
    · exact .ok trivial
    · next wet =>
      rw [Bool.or_eq_true, not_or, Bool.not_eq_true, Bool.not_eq_true] at wet
      split
      · next touching =>
        refine Ends.bind (Ends.map (Ends.bind ?_))
        cases touched : host.touch node.name world with
        | ok _ after => exact .ok (.ok (.ok trivial))
        | error failure after =>
          exact .error (.touch (not_not.mp succeeded) touching wet.1 wet.2 touched)
      · exact .ok trivial

/-- **Only targets of recipes for several targets take shared results.** -/
theorem Course.sharing_grouped {setting : Setting σ} {plan : Plan} {origin : σ} {past : List State}
    {scene : Scene σ} (same : setting.graph = plan.graph) (arranged : Arranged plan.graph.nodes)
    (course : Course setting (State.start plan setting.options) origin past scene) :
    ∀ result nodes, scene.stage = .sharing result nodes →
      ∀ node ∈ nodes, ∃ group, Recipe.group? node = some group := by
  have idle : ∀ {result : JobResult} {nodes : List Node}, Stage.idle ≠ .sharing result nodes :=
    fun sharing => by cases sharing
  have shared : ∀ {taken result : JobResult} {left nodes : List Node},
      (∀ node ∈ left, ∃ group, Recipe.group? node = some group) →
        Stage.shared taken left = .sharing result nodes →
          ∀ node ∈ nodes, ∃ group, Recipe.group? node = some group := by
    intro taken result left nodes grouped sharing
    cases left with
    | nil => exact absurd sharing idle
    | cons node rest =>
      obtain ⟨-, rfl⟩ := Stage.sharing.inj sharing
      exact grouped
  induction course with
  | start => exact fun _ _ sharing => absurd sharing idle
  | print course piece ih => exact ih
  | event course event ih =>
    intro result nodes sharing
    cases event with
    | skip => exact absurd sharing idle
    | ride => exact absurd sharing idle
    | dispatch => exact absurd sharing idle
    | land => cases sharing
    | share enabled made =>
      obtain ⟨-, rfl⟩ := Stage.sharing.inj sharing
      cases enabled with
      | share first going free grouped found =>
        intro node member
        obtain rfl := List.mem_singleton.mp member
        exact ⟨_, grouped⟩
    | work worked ended made =>
      unfold Stage.worked at sharing
      split at sharing
      · cases sharing
      · exact absurd sharing idle
    | finish ended =>
      have passage := course.passage
      rw [same] at passage
      exact shared (fun node rides => ⟨_, (passage.grouped arranged).riders node rides⟩) sharing
    | adopt taken ended made =>
      exact shared (fun node member => ih _ _ rfl node (List.mem_cons_of_mem _ member)) sharing

/-! ### Runs -/

section Runs

variable {plan : Plan} (host : Host σ) (console : Console) (options : Options) {executor : Executor}
  (cost : String → Int) (order : Order σ) (outside : σ)

/-- A dry run has a result, in whatever order jobs are finished. -/
theorem runPlan_dry (arranged : Arranged plan.graph.nodes) (dryRun : executor.dryRun = true) :
    ∃ progress, runPlan (.ofPlan host console options executor plan cost order) plan outside =
      .ok () progress := by
  obtain ⟨state, after, made, -⟩ := run_idle host console options cost order arranged dryRun
    (fun _ => True) (fun _ _ _ => trivial) trivial
  obtain ⟨past, ran⟩ := runPlan_of_run made
  exact ⟨_, ran⟩

/-- **What ends a run before its time**: an interruption, or a refusal. -/
theorem Founders.cases {failure : Failure} {progress : Progress σ}
    (arranged : Arranged plan.graph.nodes)
    (founders : Founders (.ofPlan host console options executor plan cost order)
      (State.start plan options) outside failure progress) :
    failure.isInterruption = true ∨
      ∃ node ∈ plan.graph.nodes, (∃ group, Recipe.group? node = some group) ∧
        ∃ result rest world,
          Course (.ofPlan host console options executor plan cost order) (State.start plan options)
            outside progress.past ⟨world, progress.state, .sharing result (node :: rest)⟩ ∧
          Refused executor host result node world failure := by
  obtain ⟨scene, cause, course, there, fault, same⟩ := founders.fault
  rcases same with rfl | interrupted
  · cases fault with
    | @work world later state job failed =>
      have interrupted := ends_contain_interrupted
        (Setting.ofPlan host console options executor plan cost order).workers job world
      rw [failed] at interrupted
      exact Or.inl interrupted.of_error
    | @share world later state node rest result failed =>
      obtain rfl : state = progress.state := there
      have refused := ends_share_refused executor host result node world
      rw [show executor.share host result node world = _ from failed] at refused
      have due := (course.passage.consistent arranged).building_of_due node List.mem_cons_self
      exact Or.inr ⟨node, due.1,
        course.sharing_grouped rfl arranged _ _ rfl node List.mem_cons_self,
        result, rest, world, course, refused.of_error⟩
  · exact Or.inl interrupted

end Runs

variable {rules : RuleSet} {available : String → Bool} {targets : List String} {plan : Plan}

/-- **A run contains the failures of the work on targets**: whatever commands do, in whatever order
jobs are finished, a job whose work raises a failure gets a failed result that tells of it, and the
build goes on.  Only an interruption ends a run before its time, or a refusal of the system to
remove or to touch the file of a target that takes the result of another one; a dry run is never
ended. -/
theorem runPlan_contains (built : (Graph.build rules available targets).1 = .ok plan.graph)
    (host : Host σ) (console : Console) (options : Options) (executor : Executor)
    (cost : String → Int) (order : Order σ) (outside : σ) :
    Ends
      (fun _ progress =>
        (∃ deeds, Log (.ofPlan host console options executor plan cost order)
          (State.start plan options) outside deeds ⟨progress.outside, progress.state, .idle⟩) ∧
        ∀ deeds, Log (.ofPlan host console options executor plan cost order)
            (State.start plan options) outside deeds ⟨progress.outside, progress.state, .idle⟩ →
          Recorded plan progress.state deeds ∧
          ∀ deed ∈ deeds, ∃ own, Traced (.ofPlan host console options executor plan cost order)
              (State.start plan options) outside deed own ∧
            progress.state.Holds deed.node own)
      (fun failure progress => executor.dryRun = false ∧ (failure.isInterruption = true ∨
        ∃ node ∈ plan.graph.nodes, (∃ group, Recipe.group? node = some group) ∧
          ∃ result rest world,
            Course (.ofPlan host console options executor plan cost order)
              (State.start plan options) outside progress.past
              ⟨world, progress.state, .sharing result (node :: rest)⟩ ∧
            Refused executor host result node world failure))
      (runPlan (.ofPlan host console options executor plan cost order) plan outside) := by
  have arranged := build_arranged built
  have lawful := lawful_ofPlan host console options executor plan cost order
  have ends := runPlan_course rfl arranged lawful outside
  cases ran : runPlan (.ofPlan host console options executor plan cost order) plan outside with
  | ok _ progress =>
    rw [ran] at ends
    exact .ok ⟨ends.of_ok.1.log, fun deeds log =>
      ⟨log.recorded rfl arranged, log.traced rfl arranged⟩⟩
  | error failure progress =>
    rw [ran] at ends
    refine .error ⟨?_, ends.of_error.cases host console options cost order outside arranged⟩
    by_contra dryRun
    obtain ⟨_, dryRan⟩ := runPlan_dry host console options cost order outside arranged
      (Bool.not_eq_false _ ▸ dryRun)
    rw [ran] at dryRan
    cases dryRan

/-! ### A parser whose generator fails -/

/-- Both files of a parser are made from a grammar, and are to be removed when that fails. -/
def generatedRules : RuleSet where
  rules := [.explicit {
    prereqs := ["gram.y"]
    recipe := some "yacc"
    attributes := { deleteOnFailure := true }
    comparator := none
    location := ⟨"mkfile", 1⟩
    targets := ["gram.c", "gram.h"] }]
  values := []

/-- The node of one of the files. -/
def generatedNode (name : String) : Node :=
  { grammarNode name with attributes := { deleteOnFailure := true } }

/-- One file is missing, and the other one is older than the grammar. -/
def generatedPlan : Plan where
  graph := {
    nodes := [{ name := "gram.y", origin := .source }, generatedNode "gram.c",
      generatedNode "gram.h"]
    roots := ["gram.c", "gram.h"] }
  assessments := [
    ("gram.y", { time := some 2 }),
    ("gram.c", { mustBuild := true, reasons := [.missing], newer := ["gram.y"] }),
    ("gram.h",
      { time := some 1, mustBuild := true, reasons := [.newer "gram.y"], newer := ["gram.y"] })]

/-- The generator raises a failure; the old file may be locked. -/
def generatedWorld (locked : Bool) : World where
  files := [("gram.y", { time := 2 }), ("gram.h", { time := 1, locked })]
  script := { byTarget := [("gram.c", { failure := some (.raised "RuntimeError" "no memory") })] }

/-- A single worker. -/
def generatedSetting : Setting World :=
  .ofPlan World.host {} {} { values := [] } generatedPlan (fun _ => 1) .byFinish

theorem build_generatedRules : (Graph.build generatedRules
    (fun name => ["gram.y", "gram.h"].contains name) ["gram.c", "gram.h"]).1 =
      .ok generatedPlan.graph := by
  rfl

theorem evaluate_generatedPlan (locked : Bool) :
    Plan.evaluate World.host {} {} generatedPlan.graph (generatedWorld locked) =
      .ok generatedPlan (generatedWorld locked) := by
  cases locked with
  | true => rfl
  | false => rfl

/-- The failure of the generator is contained, and the old file is removed. -/
theorem runPlan_contains_generated :
    (Graph.build generatedRules (fun name => ["gram.y", "gram.h"].contains name)
      ["gram.c", "gram.h"]).1 = .ok generatedPlan.graph ∧
    ∃ progress deeds,
      runPlan generatedSetting generatedPlan (generatedWorld false) = .ok () progress ∧
      progress.state.failures = [
        ("gram.c", (Failure.raised "RuntimeError" "no memory").result "gram.c"),
        ("gram.h",
          { (Failure.raised "RuntimeError" "no memory").result "gram.h" with output := "" })] ∧
      Recorded generatedPlan progress.state deeds ∧
      ∀ deed ∈ deeds, ∃ own, Traced generatedSetting (State.start generatedPlan {})
        (generatedWorld false) deed own ∧ progress.state.Holds deed.node own := by
  have ends := runPlan_contains build_generatedRules World.host {} {} { values := [] } (fun _ => 1)
    .byFinish (generatedWorld false)
  have ran : (match runPlan generatedSetting generatedPlan (generatedWorld false) with
      | .ok _ progress => decide (progress.state.failures = [
          ("gram.c", (Failure.raised "RuntimeError" "no memory").result "gram.c"),
          ("gram.h",
            { (Failure.raised "RuntimeError" "no memory").result "gram.h" with output := "" })])
      | .error _ _ => false) = true := by
    decide +kernel
  cases result : runPlan generatedSetting generatedPlan (generatedWorld false) with
  | ok value progress =>
    rw [result] at ran
    rw [show runPlan
      (.ofPlan World.host {} {} { values := [] } generatedPlan (fun _ => 1) .byFinish)
      generatedPlan (generatedWorld false) = _ from result] at ends
    obtain ⟨⟨deeds, log⟩, traced⟩ := ends.of_ok
    exact ⟨build_generatedRules, progress, deeds, rfl, of_decide_eq_true ran, traced deeds log⟩
  | error failure progress =>
    rw [result] at ran
    cases ran

/-- **A refusal that is not contained**: the generator fails, and as the old file is locked and
cannot be removed, the build has no result. -/
theorem not_contained :
    (Graph.build generatedRules (fun name => ["gram.y", "gram.h"].contains name)
      ["gram.c", "gram.h"]).1 = .ok generatedPlan.graph ∧
    Plan.evaluate World.host {} {} generatedPlan.graph (generatedWorld true) =
      .ok generatedPlan (generatedWorld true) ∧
    ∃ progress, runPlan generatedSetting generatedPlan (generatedWorld true) =
      .error (.accessDenied "[Errno 13] Permission denied: 'gram.h'") progress := by
  refine ⟨build_generatedRules, evaluate_generatedPlan true, ?_⟩
  have ran : (match runPlan generatedSetting generatedPlan (generatedWorld true) with
      | .ok _ _ => false
      | .error failure _ =>
        decide (failure = .accessDenied "[Errno 13] Permission denied: 'gram.h'")) = true := by
    decide +kernel
  cases result : runPlan generatedSetting generatedPlan (generatedWorld true) with
  | ok value progress =>
    rw [result] at ran
    cases ran
  | error failure progress =>
    rw [result] at ran
    obtain rfl := of_decide_eq_true ran
    exact ⟨progress, rfl⟩

end Schedule

end BuildSystem
