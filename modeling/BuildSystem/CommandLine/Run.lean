/-
**The command line.**

* `CommandLine.runInvocation` — a build with its report for the user; the result is the exit code.
* `CommandLine.run` — the command line as a whole.  Arguments that describe no invocation end it
  with code two, and a request for help with zero.
-/

import BuildSystem.Build
import BuildSystem.CommandLine.Arguments

namespace BuildSystem.CommandLine

variable {σ : Type}

/-- What the user is told about a failure, and the exit code. -/
def reportFailure (console : Console) : Failure → List Printed × Int
  | .interrupted _ => (Console.info "\nInterrupted by user", 130)
  | .build error =>
    (Console.error error.title error.message error.details error.suggestion, 1)
  | failure => (console.unexpected failure.message, 1)

/-- What the user is told about a finished build: in debug mode the status of every target, and
otherwise, if something is missing, the targets that were not made. -/
def reportResults (console : Console) (report : BuildReport) : List Printed :=
  let words := fun (statuses : Table String Status) =>
    statuses.map fun (name, status) => (name, status.word)
  if console.debugging then Console.results (words report.statuses)
  else if report.ok then []
  else Console.results (words (report.statuses.filter fun (_, status) => status ≠ .succeeded))

/-- Runs a build and reports to the user; the result is the exit code. -/
def runInvocation (host : Host σ) (cost : String → Int) (invocation : Invocation) :
    Action σ Int := do
  let console : Console := ⟨invocation.flags.debug, invocation.flags.explain⟩
  let build : Action σ BuildReport := do
    match BuildOptions.ofEnvironment (host.environment (← get)) invocation.changes with
    | .ok options => Build.run host cost options
    | .error failure => throw failure
  tryCatch
    (do
      let report ← build
      host.say (reportResults console report)
      return report.exitCode)
    fun failure => do
      let (pieces, code) := reportFailure console failure
      host.say pieces
      return code

/-- Runs the command line; the result is the exit code. -/
def run (host : Host σ) (cost : String → Int) (arguments : List String) : Action σ Int :=
  match read {} arguments with
  | none => pure 2
  | some invocation =>
    if invocation.flags.help then pure 0 else runInvocation host cost invocation

end BuildSystem.CommandLine
