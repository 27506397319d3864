/-
**The state of a build that is running.**

Targets wait for their prerequisites, become ready, and are worked on in slots.  Targets that one
run of a recipe makes ride on the first of them that is ready, and those that become ready later
take the finished result.

* `Schedule.State` — statuses, waiting counts, the ready queue, the jobs in flight, and the results.
* `Schedule.State.next` — what is to be done next.
* `Schedule.State.skip`, `begin`, `ride`, `dispatch`, `settle` — the changes of the state; each
  fails only if it would change a final status.
* `Schedule.State.roundLimit` — a bound on the number of moves that can follow.
-/

import BuildSystem.Recipe

namespace BuildSystem.Schedule

/-- What a build does with the plan. -/
structure Options where
  /-- The number of jobs that may be in flight; there is always one. -/
  workers : Int := 1
  /-- Go on after a failure with what does not depend on it. -/
  keepGoing : Bool := false
deriving DecidableEq, Repr

/-- The slots of the workers. -/
def Options.slots (options : Options) : List Nat :=
  List.range (max 1 options.workers.toNat)

/-- A job in flight. -/
structure Job where
  node : Node
  slot : Nat
  /-- When the job will be finished. -/
  finish : Int
deriving DecidableEq, Repr

/-- The state of a build that is running. -/
structure State where
  statuses : Table String Status
  /-- The times of the targets, as far as they are known. -/
  times : Table String (Option Int)
  /-- For every pending target the number of prerequisites that are not final. -/
  waiting : Table String Nat
  /-- The targets whose prerequisites are all final, in the order in which they became ready. -/
  ready : List Node
  /-- The jobs in flight, in the order of their submission. -/
  running : List Job := []
  /-- The free slots; the first one is taken next. -/
  freeSlots : List Nat
  /-- For every group with a job in flight the targets that ride on it. -/
  riding : Table Recipe.Group (List Node) := []
  /-- For every group with a finished job its result. -/
  finished : Table Recipe.Group JobResult := []
  /-- When the last job was finished. -/
  clock : Int := 0
  /-- The targets for which jobs were submitted, in order. -/
  dispatched : List String := []
  /-- The results of the targets that failed, in order. -/
  failures : Table String JobResult := []
  /-- Whether a failure has stopped the build. -/
  aborted : Bool := false
deriving DecidableEq, Repr

/-- The status of a node before the first move: what need not be built has succeeded. -/
def startStatus (plan : Plan) (node : Node) : Status :=
  if node.initialStatus.isFinal then node.initialStatus
  else if (plan.assessment node.name).mustBuild then .pending
  else .succeeded

/-- The statuses of all nodes before the first move. -/
def startStatuses (plan : Plan) : Table String Status :=
  plan.graph.nodes.map fun node => (node.name, startStatus plan node)

/-- The number of prerequisites that are not final, given the statuses of all nodes. -/
def openCount (statuses : Table String Status) (node : Node) : Nat :=
  (node.uniquePrereqs.filter fun prereq =>
    (statuses.get? prereq).any fun status => !status.isFinal).length

namespace State

/-- The status of a target. -/
def status (state : State) (name : String) : Status :=
  (state.statuses.get? name).getD .unvisited

/-- The number of prerequisites for which a target waits. -/
def waitingFor (state : State) (name : String) : Nat :=
  (state.waiting.get? name).getD 0

/-- The state before the first move. -/
def start (plan : Plan) (options : Options) : State :=
  let statuses := startStatuses plan
  let pending := plan.graph.nodes.filter fun node => startStatus plan node = .pending
  { statuses := statuses
    times := plan.graph.nodes.map fun node => (node.name, (plan.assessment node.name).time)
    waiting := pending.map fun node => (node.name, openCount statuses node)
    ready := pending.filter fun node => openCount statuses node = 0
    freeSlots := options.slots }

/-! ### Changes -/

/-- Puts down the status of a target. -/
def put (name : String) (status : Status) (state : State) : State :=
  { state with statuses := state.statuses.set name status }

/-- Changes the status of a target, unless it is final. -/
def changeStatus (name : String) (status : Status) (state : State) : Except BuildError State :=
  (Status.change name (state.status name) status).map fun status => state.put name status

/-- Tells a target that one of its prerequisites is final; the last one makes it ready. -/
def arrive (state : State) (node : Node) : State :=
  if state.status node.name = .pending then
    match state.waitingFor node.name with
    | 0 => state
    | 1 =>
      { state with
        waiting := state.waiting.set node.name 0
        ready := state.ready ++ [node] }
    | count + 2 => { state with waiting := state.waiting.set node.name (count + 1) }
  else state

/-- Tells the targets that need a target that it is final. -/
def release (graph : Graph) (name : String) (state : State) : State :=
  (graph.nodes.filter (·.prereqs.contains name)).foldl arrive state

/-- Takes the first target from the ready queue. -/
def popReady (state : State) : State :=
  { state with ready := state.ready.tail }

/-- Gives up the first ready target, because a prerequisite was not built. -/
def skip (graph : Graph) (node : Node) (state : State) : Except BuildError State :=
  (state.popReady.changeStatus node.name .skipped).map (release graph node.name)

/-- Begins the work on the first ready target. -/
def begin (node : Node) (state : State) : Except BuildError State :=
  state.popReady.changeStatus node.name .building

/-- The targets that ride on the job of a group. -/
def riders (group : Recipe.Group) (state : State) : List Node :=
  (state.riding.get? group).getD []

/-- Lets the first ready target ride on the job of its group. -/
def ride (node : Node) (group : Recipe.Group) (state : State) : Except BuildError State :=
  (state.begin node).map fun state =>
    { state with riding := state.riding.set group (state.riders group ++ [node]) }

/-- The riders of all groups when a job is submitted: on the group of its target there are none. -/
def openGroup (node : Node) (riding : Table Recipe.Group (List Node)) :
    Table Recipe.Group (List Node) :=
  match Recipe.group? node with
  | some group => riding.set group []
  | none => riding

/-- Submits a job for the first ready target in the first free slot. -/
def dispatch (node : Node) (slot : Nat) (cost : Int) (state : State) : Except BuildError State :=
  (state.begin node).map fun state =>
    { state with
      running := state.running ++ [⟨node, slot, state.clock + cost⟩]
      freeSlots := state.freeSlots.tail
      dispatched := state.dispatched ++ [node.name]
      riding := openGroup node state.riding }

/-- Takes a job that is being finished out of flight and frees its slot. -/
def land (job : Job) (state : State) : State :=
  { state with
    running := state.running.erase job
    freeSlots := state.freeSlots ++ [job.slot]
    clock := job.finish }

/-- Whether the result of a target stops the build. -/
def stops (options : Options) (node : Node) (result : JobResult) (state : State) : Bool :=
  result.status = .failed && !options.keepGoing && !node.attributes.continueOnError &&
    !state.aborted

/-- Records the result of a target: its time, its failure, and whether that stops the build. -/
def record (options : Options) (node : Node) (result : JobResult) (state : State) : State :=
  { state with
    times := if result.time.isSome then state.times.set node.name result.time else state.times
    failures :=
      if result.status = .failed then state.failures.set node.name result else state.failures
    aborted := state.aborted || state.stops options node result }

/-- Settles a target with its result and tells the targets that need it. -/
def settle (graph : Graph) (options : Options) (node : Node) (result : JobResult)
    (state : State) : Except BuildError State :=
  ((state.record options node result).changeStatus node.name result.status).map
    (release graph node.name)

/-- Records the result of a finished job for its group, on which nothing rides any longer. -/
def finishGroup (group : Recipe.Group) (result : JobResult) (state : State) : State :=
  { state with
    finished := state.finished.set group result
    riding := state.riding.erase group }

/-! ### The next move -/

end State

/-- What is to be done next. -/
inductive Move where
  /-- Give up a target, because a prerequisite was not built. -/
  | skip (node : Node) (blocker : String)
  /-- Give a target the result of its group. -/
  | share (node : Node) (result : JobResult)
  /-- Let a target ride on the job of its group. -/
  | ride (node : Node) (group : Recipe.Group)
  /-- Submit a job. -/
  | dispatch (node : Node) (slot : Nat)
  /-- Wait for the job that is finished next. -/
  | await
  /-- Nothing is left to do. -/
  | stop
deriving DecidableEq, Repr

namespace State

/-- Waits for a job, if one is in flight. -/
def wait (state : State) : Move :=
  if state.running.isEmpty then .stop else .await

/-- What is to be done next: the first ready target is given up, settled or begun if possible, and
otherwise a job is waited for. -/
def next (state : State) : Move :=
  match state.ready with
  | [] => state.wait
  | node :: _ =>
    if state.aborted then state.wait
    else
      match node.uniquePrereqs.find? fun prereq => (state.status prereq).blocks with
      | some blocker => .skip node blocker
      | none =>
        let group := Recipe.group? node
        match group.bind state.finished.get? with
        | some result => .share node result
        | none =>
          match group.filter (state.riding.contains ·) with
          | some group => .ride node group
          | none =>
            match state.freeSlots with
            | slot :: _ => .dispatch node slot
            | [] => state.wait

/-- The sum of the counts in a table. -/
def total : Table String Nat → Nat
  | [] => 0
  | (_, count) :: rest => count + total rest

/-- A bound on the number of moves that can follow: every move takes a target from the ready queue
or a job out of flight, and every prerequisite that becomes final is waited for no longer. -/
def roundLimit (state : State) : Nat :=
  2 * total state.waiting + 2 * state.ready.length + state.running.length

end State

end BuildSystem.Schedule
