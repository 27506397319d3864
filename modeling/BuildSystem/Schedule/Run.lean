/-
**Running a plan.**

* `Schedule.Workers` — how jobs are done, how results are shared, and which job is finished next.
* `Schedule.Progress` — the outside world together with the states of the build; both outlive a
  failure.
* `Schedule.contain` — a job whose work fails has failed; only an interruption ends the build.
* `Schedule.perform`, `Schedule.runFrom` — one move, and all moves.
-/

import BuildSystem.Schedule.Report

namespace BuildSystem.Schedule

/-- The job that is finished first; of several, the one that was submitted first. -/
def firstFinished : (job : Job) → (others : List Job) → Job
  | job, [] => job
  | job, other :: others =>
    let found := firstFinished other others
    if found.finish < job.finish then found else job

/-- The job that is finished first is one of the jobs. -/
theorem firstFinished_mem (job : Job) (others : List Job) :
    firstFinished job others ∈ job :: others := by
  induction others generalizing job with
  | nil => exact List.mem_singleton_self job
  | cons other others ih =>
    unfold firstFinished
    dsimp only
    split
    · exact List.mem_cons_of_mem job (ih other)
    · exact List.mem_cons_self

/-- Tells which of some jobs in flight is finished next. -/
abbrev Order (σ : Type) :=
  (job : Job) → (others : List Job) → σ → { found : Job // found ∈ job :: others }

/-- The jobs are finished at the times that their costs give. -/
def Order.byFinish {σ : Type} : Order σ := fun job others _ =>
  ⟨firstFinished job others, firstFinished_mem job others⟩

/-- How the work on targets is done. -/
structure Workers (σ : Type) where
  /-- Does the work on a target in a slot. -/
  execute : Node → (slot : Nat) → Action σ JobResult
  /-- The result for a target whose recipe has run for another one. -/
  share : JobResult → Node → Action σ JobResult
  /-- What is shown when the work on a target begins. -/
  describe : Node → Option String
  /-- How long the work on a target takes. -/
  cost : String → Int
  /-- Which of the jobs in flight is finished next. -/
  order : Order σ := .byFinish

variable {σ : Type}

/-- The workers that run recipes on a host. -/
def Workers.ofExecutor (executor : Executor) (host : Host σ) (plan : Plan)
    (cost : String → Int) : Workers σ where
  execute := fun node slot =>
    executor.execute host node (plan.assessment node.name).newer slot
  share := executor.share host
  describe := fun node => executor.describe node (plan.assessment node.name).newer
  cost := cost

/-- The outside world, the state of the build, and the states before it. -/
structure Progress (σ : Type) where
  outside : σ
  state : State
  /-- The states that the build has left behind, in order. -/
  past : List State := []

/-- All states of the build so far, in order. -/
def Progress.states (progress : Progress σ) : List State :=
  progress.past ++ [progress.state]

/-- A part of a build that is running; the outside world and the states outlive a failure. -/
abbrev Step (σ α : Type) := EStateM Failure (Progress σ) α

/-- An action on the outside world, as a part of a build. -/
def outside {α : Type} (action : Action σ α) : Step σ α := fun progress =>
  match action progress.outside with
  | .ok result after => .ok result { progress with outside := after }
  | .error failure after => .error failure { progress with outside := after }

/-- A change of the state, as a part of a build. -/
def change (alter : State → Except BuildError State) : Step σ Unit := fun progress =>
  match alter progress.state with
  | .ok after => .ok () { progress with state := after, past := progress.past ++ [progress.state] }
  | .error error => .error (.build error) progress

/-- Does the work of a job; unless it is interrupted, a failure of the work is a failed result. -/
def contain (workers : Workers σ) (job : Job) : Action σ JobResult :=
  tryCatch (workers.execute job.node job.slot) fun failure =>
    if failure.isInterruption then throw failure
    else
      pure {
        name := job.node.name
        status := .failed
        exitCode := -1
        output := failure.label ++ ": " ++ failure.message ++ "\n" }

/-- Does the work of the jobs in flight when a build ends before its time; `count` bounds their
number. -/
def drain (workers : Workers σ) : (count : Nat) → List Job → Action σ Unit
  | 0, _ => pure ()
  | count + 1, jobs =>
    match jobs with
    | [] => pure ()
    | job :: others => do
      let found : Job := workers.order job others (← get)
      let _ ← contain workers found
      drain workers count ((job :: others).erase found)

/-- What is printed when a target is settled; `stopped` tells whether its failure stops the
build. -/
def settled (console : Console) (node : Node) (result : JobResult) (stopped : Bool) :
    List Printed :=
  console.debug ("done " ++ node.name ++ ": " ++ result.status.word) ++
    (if result.status = .failed then
      let error : BuildError := .recipeFailed node.name result.exitCode result.output
      Console.failure error.message (some result.exitCode) result.output
    else Console.output result.output) ++
    if stopped then console.debug "abort: no new jobs will be dispatched" else []

/-- What a build works with. -/
structure Setting (σ : Type) where
  host : Host σ
  console : Console
  options : Options
  graph : Graph
  workers : Workers σ

/-- What a build works with that runs the recipes of a plan. -/
def Setting.ofPlan (host : Host σ) (console : Console) (options : Options) (executor : Executor)
    (plan : Plan) (cost : String → Int) (order : Order σ) : Setting σ where
  host := host
  console := console
  options := options
  graph := plan.graph
  workers := { Workers.ofExecutor executor host plan cost with order }

/-- Prints pieces of text. -/
def Setting.say (setting : Setting σ) (pieces : List Printed) : Step σ Unit :=
  outside (setting.host.say pieces)

/-- Settles a target. -/
def settle (setting : Setting σ) (node : Node) (result : JobResult) : Step σ Unit := do
  let stopped := (← get).state.stops setting.options node result
  change (State.settle setting.graph setting.options node result)
  setting.say (settled setting.console node result stopped)

/-- Settles a target with the result of another one that the same recipe makes. -/
def settleShared (setting : Setting σ) (result : JobResult) (node : Node) : Step σ Unit := do
  settle setting node (← outside (setting.workers.share result node))

/-- Waits for a job, does its work, and settles its target and all that ride on it. -/
def complete (setting : Setting σ) (job : Job) : Step σ Unit := do
  change fun state => .ok (state.land job)
  let result ← outside (contain setting.workers job)
  settle setting job.node result
  if let some group := Recipe.group? job.node then
    let riders := (← get).state.riders group
    change fun state => .ok (state.finishGroup group result)
    riders.forM (settleShared setting result)

/-- Makes one move. -/
def perform (setting : Setting σ) : Move → Step σ Unit
  | .skip node blocker => do
    change (State.skip setting.graph node)
    setting.say
      (Console.skipped node.name ("prerequisite " ++ Text.quoted blocker ++ " not built"))
  | .share node result => do
    change (State.begin node)
    settleShared setting result node
  | .ride node group => do
    change (State.ride node group)
    setting.say (setting.console.debug
      (node.name ++ ": built by the job for " ++ Text.quotedTuple group.targets))
  | .dispatch node slot => do
    change (State.dispatch node slot (setting.workers.cost node.name))
    let shown := (setting.workers.describe node).getD ""
    setting.say (if shown.isEmpty then [] else Console.recipe shown)
    setting.say (setting.console.debug
      ("dispatch " ++ node.name ++ " (slot " ++ toString slot ++ ")"))
  | .await => do
    let progress ← get
    match progress.state.running with
    | [] => pure ()
    | job :: others => complete setting (setting.workers.order job others progress.outside)
  | .stop => pure ()

/-- Does the work of the jobs that are still in flight. -/
def drainAll (setting : Setting σ) : Step σ Unit := do
  let jobs := (← get).state.running
  outside (drain setting.workers jobs.length jobs)

/-- Makes one move; if it fails, the work of the jobs in flight is still done. -/
def performOrDrain (setting : Setting σ) (move : Move) : Step σ Unit :=
  tryCatch (perform setting move) fun failure => do
    drainAll setting
    throw failure

/-- Makes moves until nothing is left to do; `rounds` bounds their number. -/
def runFrom (setting : Setting σ) : (rounds : Nat) → Step σ Unit
  | 0 => pure ()
  | rounds + 1 => do
    let move := (← get).state.next
    if move = .stop then pure ()
    else
      performOrDrain setting move
      runFrom setting rounds

/-- Runs a plan from its start, with the outcome of the last move. -/
def runPlan (setting : Setting σ) (plan : Plan) (outside : σ) :
    EStateM.Result Failure (Progress σ) Unit :=
  let start := State.start plan setting.options
  runFrom setting start.roundLimit { outside, state := start }

/-- Runs a plan to the state in which nothing is left to do. -/
def run (setting : Setting σ) (plan : Plan) : Action σ State := fun outside =>
  match runPlan setting plan outside with
  | .ok _ progress => .ok progress.state progress.outside
  | .error failure progress => .error failure progress.outside

end BuildSystem.Schedule
