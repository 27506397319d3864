/-
**The exit code tells the truth.**

A target that is not built keeps everything above it from being built, up to a target that was asked
for.  So it is enough to look at what was asked for.

* `Explained.all_succeeded` — if all that was asked for has succeeded, every node has.
* `Truthful` — what a report says about a graph.
* `report_truthful` — the report of every run of a plan is truthful, whatever commands do and
  whichever failures are tolerated.
-/

import BuildSystem.Proofs.Plan.Observed
import BuildSystem.Proofs.Plan.Upward
import BuildSystem.Proofs.Schedule.Statuses

namespace BuildSystem.Schedule

variable {rules : RuleSet} {available : String → Bool} {targets : List String} {plan : Plan}
  {state : State}

/-- **If all that was asked for has succeeded, every node has**: a node that must be built is needed
by one that must be built, and the work on that one began only when the first had succeeded. -/
theorem Explained.all_succeeded (explained : Explained plan state)
    (built : (Graph.build rules available targets).1 = .ok plan.graph)
    (upward : Upward plan.graph.nodes plan.assessments)
    (roots : ∀ root ∈ plan.graph.roots, state.status root = .succeeded) :
    ∀ node ∈ plan.graph.nodes, state.status node.name = .succeeded := by
  refine (build_arranged built).rec_back fun node member above => ?_
  by_cases pending : startStatus plan node = .pending
  · rcases build_needed built node member with asked | ⟨other, otherMember, needs⟩
    · exact roots node.name asked
    · have stale := ((startStatus_eq_pending_iff plan node).mp pending).2
      obtain ⟨dependent, dependentMember, needed, dependentStale⟩ :=
        upward.needed node.name stale ⟨other, otherMember, needs⟩
      have dependentPending : startStatus plan dependent = .pending :=
        (startStatus_eq_pending_iff plan dependent).mpr
          ⟨upward.ruled dependentMember dependentStale, dependentStale⟩
      have succeeded := above dependent dependentMember needed
      exact explained.begun dependent dependentMember dependentPending (by simp [succeeded])
        (by simp [succeeded]) node.name needed
  · exact explained.upToDate node member pending

/-- **A truthful report**: the exit code is zero exactly if all that was asked for has succeeded,
which is the case exactly if every node has, and the failures are the targets that failed. -/
structure Truthful (graph : Graph) (report : BuildReport) : Prop where
  exitCode : report.exitCode = 0 ↔
    ∀ root ∈ report.roots, report.statuses.get? root = some .succeeded
  roots : (∀ root ∈ report.roots, report.statuses.get? root = some .succeeded) ↔
    ∀ node ∈ graph.nodes, report.statuses.get? node.name = some .succeeded
  failures : ∀ name, name ∈ report.failures.keys ↔ report.statuses.get? name = some .failed

/-- The report shows the statuses of the last state. -/
theorem Explained.get?_report (explained : Explained plan state)
    (arranged : Arranged plan.graph.nodes) {status : Status} (visited : status ≠ .unvisited)
    (name : String) : (state.report plan.graph).statuses.get? name = some status ↔
      state.status name = status := by
  by_cases known : name ∈ (state.report plan.graph).statuses.keys
  · obtain ⟨node, member, rfl⟩ : ∃ node ∈ plan.graph.nodes, node.name = name := by
      simpa [State.report, Table.keys] using known
    have shown : (state.report plan.graph).statuses.get? node.name =
        some (state.status node.name) := Table.get?_map_mem arranged.nodup member
    rw [shown, Option.some_inj]
  · rw [Table.get?_eq_none known]
    refine ⟨fun shown => (by cases shown), fun given => ?_⟩
    obtain ⟨node, member, rfl⟩ := explained.known name (given ▸ visited)
    exact absurd (List.mem_map_of_mem (List.mem_map_of_mem member)) known

theorem BuildReport.exitCode_eq_zero_iff {report : BuildReport} : report.exitCode = 0 ↔
    report.failures = [] ∧ ∀ root ∈ report.roots, report.statuses.get? root = some .succeeded := by
  unfold BuildReport.exitCode BuildReport.ok
  by_cases ok : report.failures = [] ∧
      ∀ root ∈ report.roots, report.statuses.get? root = some .succeeded
  · rw [if_pos (by simpa using ok)]
    exact ⟨fun _ => ok, fun _ => rfl⟩
  · rw [if_neg (by simpa using ok)]
    exact ⟨fun one => (by cases one), fun both => absurd both ok⟩

theorem Explained.truthful (explained : Explained plan state)
    (built : (Graph.build rules available targets).1 = .ok plan.graph)
    (upward : Upward plan.graph.nodes plan.assessments) :
    Truthful plan.graph (state.report plan.graph) := by
  have arranged := build_arranged built
  have succeeded := explained.get?_report arranged (show Status.succeeded ≠ .unvisited by decide)
  have failed := explained.get?_report arranged (show Status.failed ≠ .unvisited by decide)
  have all : (∀ root ∈ plan.graph.roots, state.status root = .succeeded) →
      ∀ node ∈ plan.graph.nodes, state.status node.name = .succeeded :=
    explained.all_succeeded built upward
  refine ⟨?_, ?_, fun name => (explained.failures name).trans (failed name).symm⟩
  · rw [BuildReport.exitCode_eq_zero_iff]
    simp only [succeeded]
    refine ⟨And.right, fun asked => ⟨?_, asked⟩⟩
    -- A failure would be the failure of a node, and every node has succeeded.
    rw [List.eq_nil_iff_forall_not_mem]
    intro failure member
    have given := (explained.failures failure.1).mp (List.mem_map_of_mem member)
    obtain ⟨node, nodeMember, named⟩ := explained.known failure.1 (by simp [given])
    have made := all asked node nodeMember
    rw [named, given] at made
    cases made
  · simp only [succeeded]
    refine ⟨all, fun every root asked => ?_⟩
    obtain ⟨node, member, rfl⟩ := build_roots built root asked
    exact every node member

variable {σ τ : Type}

/-- What must be built in a plan that was made and is needed is needed by something that must be
built. -/
theorem upward_of_evaluate {host : Host σ} {console : Console} {options : PlanOptions}
    {before after : σ} (built : (Graph.build rules available targets).1 = .ok plan.graph)
    (evaluated : Plan.evaluate host console options plan.graph before = .ok plan after) :
    Upward plan.graph.nodes plan.assessments := by
  have arranged := build_arranged built
  obtain ⟨seen, planned⟩ := evaluate_observed arranged evaluated
  rw [show plan.assessments = seen.assessments options plan.graph from
    congrArg Plan.assessments planned]
  exact upward_assessments seen options arranged
    fun node member source => (build_source built node member source).1

/-- **The report of every run of a plan is truthful**, whatever the plan asks for, whatever commands
do, and whichever failures are tolerated. -/
theorem report_truthful {planner : Host τ} {planConsole : Console} {planOptions : PlanOptions}
    {early late : τ} {host : Host σ} {console : Console} {options : Options} {executor : Executor}
    {cost : String → Int} {order : Order σ} {before after : σ}
    (built : (Graph.build rules available targets).1 = .ok plan.graph)
    (evaluated : Plan.evaluate planner planConsole planOptions plan.graph early = .ok plan late)
    (ran : run (.ofPlan host console options executor plan cost order) plan before =
      .ok state after) :
    Truthful plan.graph (state.report plan.graph) := by
  have arranged := build_arranged built
  have upward := upward_of_evaluate built evaluated
  have ends := runPlan_ends rfl arranged
    (lawful_ofPlan host console options executor plan cost order) before
  obtain ⟨past, ran⟩ := runPlan_of_run ran
  rw [ran] at ends
  exact (ends.of_ok.1.explained arranged).truthful built upward

/-- A world in which the object file cannot be made. -/
def brokenWorld : World where
  files := [("main.h", { time := 1 }), ("main.c", { time := 1 })]
  script := { byTarget := [("main.o", { exitCode := 1 })] }

/-- What is known about the program in that world. -/
def brokenPlan : Plan where
  graph := programGraph
  assessments := [
    ("main.h", { time := some 1 }),
    ("main.c", { time := some 1 }),
    ("main.o", { mustBuild := true, reasons := [.missing], newer := ["main.h", "main.c"] }),
    ("main", { mustBuild := true, reasons := [.missing, .rebuilt "main.o"], newer := ["main.o"] })]

theorem report_truthful_program :
    (Graph.build programRules programFiles ["main"]).1 = .ok brokenPlan.graph ∧
    Plan.evaluate World.host {} {} brokenPlan.graph brokenWorld = .ok brokenPlan brokenWorld ∧
    ∃ state after, run (.ofPlan World.host {} { keepGoing := true } { values := [] } brokenPlan
        (fun _ => 1) .byFinish) brokenPlan brokenWorld = .ok state after ∧
      Truthful brokenPlan.graph (state.report brokenPlan.graph) := by
  have built : (Graph.build programRules programFiles ["main"]).1 = .ok brokenPlan.graph :=
    build_program
  have evaluated : Plan.evaluate World.host {} {} brokenPlan.graph brokenWorld =
      .ok brokenPlan brokenWorld := rfl
  refine ⟨built, evaluated, ?_⟩
  have ends : (match run (.ofPlan World.host {} { keepGoing := true } { values := [] } brokenPlan
        (fun _ => 1) .byFinish) brokenPlan brokenWorld with
      | .ok _ _ => true
      | .error _ _ => false) = true := by
    decide +kernel
  generalize ran : run (.ofPlan World.host {} { keepGoing := true } { values := [] } brokenPlan
      (fun _ => 1) .byFinish) brokenPlan brokenWorld = result at ends ⊢
  cases result with
  | ok state after => exact ⟨state, after, rfl, report_truthful built evaluated ran⟩
  | error failure after => cases ends

end BuildSystem.Schedule
