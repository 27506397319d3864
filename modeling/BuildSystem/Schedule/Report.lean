/-
**The report of a build.**

* `BuildReport` — the status of every target, the jobs that were submitted, and the failures.
* `BuildReport.ok`, `BuildReport.exitCode` — whether the build made all that was asked for.
-/

import BuildSystem.Schedule.State

namespace BuildSystem

/-- The report of a build. -/
structure BuildReport where
  statuses : Table String Status
  /-- The targets that were asked for. -/
  roots : List String
  /-- The targets for which jobs were submitted, in order. -/
  dispatched : List String := []
  /-- The results of the targets that failed, in order. -/
  failures : Table String JobResult := []
  /-- Whether a failure has stopped the build. -/
  aborted : Bool := false
deriving DecidableEq, Repr

namespace BuildReport

/-- Whether nothing failed and all that was asked for was made. -/
def ok (report : BuildReport) : Bool :=
  report.failures.isEmpty && report.roots.all fun root =>
    report.statuses.get? root = some .succeeded

/-- The exit code of the build. -/
def exitCode (report : BuildReport) : Int :=
  if report.ok then 0 else 1

/-- The targets with a given status. -/
def withStatus (report : BuildReport) (status : Status) : List String :=
  report.statuses.filterMap fun (name, current) => if current = status then some name else none

end BuildReport

/-- The report of a state in which nothing is left to do. -/
def Schedule.State.report (graph : Graph) (state : Schedule.State) : BuildReport where
  statuses := graph.nodes.map fun node => (node.name, state.status node.name)
  roots := graph.roots
  dispatched := state.dispatched
  failures := state.failures
  aborted := state.aborted

end BuildSystem
