/-
**What must be built.**

A target must be built if its file is missing, if it is forced or virtual, or if one of its
prerequisites is newer or must itself be built; a target with a comparator asks that command instead
of comparing times.  On request, a missing intermediate file is not built for its own sake: it
stands in with the time of its newest prerequisite until a target that must be built needs it.

* `Reason` — why a target must be built.
* `Assessment`, `Plan` — what is known about each node of a graph.
* `Plan.evaluate` — the plan for a graph, in one pass over its nodes.
-/

import BuildSystem.Graph.Basic
import BuildSystem.Host

namespace BuildSystem

/-- Why a target must be built. -/
inductive Reason where
  /-- Everything is to be built. -/
  | forced
  /-- The target is no file. -/
  | virtualTarget
  /-- The rule always updates. -/
  | alwaysUpdated
  /-- The file is missing. -/
  | missing
  /-- A prerequisite must be built. -/
  | rebuilt (prereq : String)
  /-- The comparator finds a difference to a prerequisite. -/
  | differs (comparator prereq : String)
  /-- A prerequisite is newer. -/
  | newer (prereq : String)
  /-- The file is missing and a target that must be built needs it. -/
  | needed (target : String)
deriving DecidableEq, Repr

/-- The wording of a reason. -/
def Reason.shown : Reason → String
  | forced => "forced by -a"
  | virtualTarget => "virtual target"
  | alwaysUpdated => "always updated (N)"
  | missing => "does not exist"
  | rebuilt prereq => "prerequisite '" ++ prereq ++ "' will be rebuilt"
  | differs comparator prereq => "'" ++ comparator ++ "' reports '" ++ prereq ++ "' differs"
  | newer prereq => "'" ++ prereq ++ "' is newer"
  | needed target => "does not exist (needed by '" ++ target ++ "')"

/-- What is known about a node. -/
structure Assessment where
  /-- The time of the file, or the time that stands in for it. -/
  time : Option Int := none
  mustBuild : Bool := false
  /-- Whether the file is missing and not built for its own sake. -/
  deferred : Bool := false
  reasons : List Reason := []
  /-- The prerequisites because of which the target must be built. -/
  newer : List String := []
deriving DecidableEq, Repr

/-- What is known about each node. -/
abbrev Assessments := Table String Assessment

/-- What is known about a node; before it is looked at, nothing is. -/
def Assessments.of (assessments : Assessments) (name : String) : Assessment :=
  (assessments.get? name).getD {}

/-- A graph and what is known about its nodes. -/
structure Plan where
  graph : Graph
  assessments : Assessments
deriving DecidableEq, Repr

namespace Plan

/-- What is known about a node. -/
def assessment (plan : Plan) (name : String) : Assessment :=
  plan.assessments.of name

/-- The nodes that must be built, in the order of the graph. -/
def stale (plan : Plan) : List Node :=
  plan.graph.nodes.filter fun node => (plan.assessment node.name).mustBuild

end Plan

/-- How a plan is to be made. -/
structure PlanOptions where
  /-- Build everything. -/
  forceAll : Bool := false
  /-- Do not build missing intermediate files for their own sake. -/
  ignoreMissing : Bool := false
  /-- The shell that runs comparators. -/
  shell : List String := ["sh"]
deriving DecidableEq, Repr

variable {σ : Type}

/-- Runs a command; a program that does not exist is reported as a shell reports it. -/
def Host.attempt (host : Host σ) (words : List String) (environment : Environment) :
    Action σ Completion :=
  tryCatch (host.run words environment) fun
    | .programMissing _ => pure ⟨127, words.headD "" ++ ": command not found\n"⟩
    | failure => throw failure

/-- A command that ends has nothing to be reported. -/
theorem Host.attempt_eq {host : Host σ} {words : List String} {environment : Environment}
    {before after : σ} {completion : Completion}
    (ran : host.run words environment before = .ok completion after) :
    host.attempt words environment before = .ok completion after := by
  show EStateM.tryCatch (host.run words environment) _ before = _
  unfold EStateM.tryCatch
  rw [ran]

namespace Plan

/-- The command that compares a target with a prerequisite. -/
def comparison (comparator target prereq : String) : String :=
  comparator ++ " " ++ ShellWords.quote target ++ " " ++ ShellWords.quote prereq

/-- Asks the comparator whether a prerequisite calls for an update: it does unless the command ends
with zero. -/
def differs (host : Host σ) (console : Console) (shell : List String)
    (comparator target prereq : String) : Action σ Bool := do
  let command := comparison comparator target prereq
  let completion ← host.attempt (shell ++ ["-c", command]) (host.environment (← get))
  host.say (console.debug (target ++ ": comparator '" ++ command ++ "' exited " ++
    toString completion.exitCode))
  return completion.exitCode != 0

/-- The prerequisites that have been looked at: those that call for an update, and the reasons. -/
structure Findings where
  newer : List String := []
  reasons : List Reason := []
deriving DecidableEq, Repr

/-- The comparator that is asked about a prerequisite of a node whose file has the given time: there
must be a file to compare, and no other reason yet to build the node. -/
def asked (node : Node) (time : Option Int) (assessment : Assessment) : Option String :=
  if assessment.mustBuild || time.isNone then none else node.comparator.filter (!·.isEmpty)

/-- Why a prerequisite calls for an update of a node whose file has the given time, if it does;
`differs` is what the comparator says about the prerequisite. -/
def reasonFor (node : Node) (time : Option Int) (prereq : String) (assessment : Assessment)
    (differs : Bool) : Option Reason :=
  if assessment.mustBuild then some (.rebuilt prereq)
  else
    match time with
    | none => none
    | some time =>
      match node.comparator.filter (!·.isEmpty) with
      | some comparator => if differs then some (.differs comparator prereq) else none
      | none => if assessment.time.any (time < ·) then some (.newer prereq) else none

/-- Adds a prerequisite of a node whose file has the given time; everything is new to a node without
a file. -/
def Findings.add (findings : Findings) (time : Option Int) (prereq : String)
    (reason : Option Reason) : Findings where
  newer := if reason.isSome || time.isNone then findings.newer ++ [prereq] else findings.newer
  reasons := findings.reasons ++ reason.toList

/-- Looks at one prerequisite of a node whose file has the given time. -/
def inspect (host : Host σ) (console : Console) (options : PlanOptions)
    (assessments : Assessments) (node : Node) (time : Option Int) (findings : Findings)
    (prereq : String) : Action σ Findings := do
  let assessment := assessments.of prereq
  let answer ← match asked node time assessment with
    | some comparator => differs host console options.shell comparator node.name prereq
    | none => pure false
  return findings.add time prereq (reasonFor node time prereq assessment answer)

/-- The reasons that do not depend on prerequisites. -/
def ownReasons (options : PlanOptions) (node : Node) (time : Option Int) : List Reason :=
  [(options.forceAll, .forced), (node.isVirtual, .virtualTarget),
    (node.attributes.forceUpdate, .alwaysUpdated),
    (time.isNone && !node.isVirtual, .missing)].filterMap fun (holds, reason) =>
      if holds then some reason else none

/-- The latest of the times that are known. -/
def latest (times : List (Option Int)) : Option Int :=
  times.foldl
    (fun found time =>
      match found, time with
      | some first, some second => some (max first second)
      | none, time => time
      | found, none => found) none

/-- Builds a deferred node after all, because a target needs it, and the deferred nodes that it
needs in turn; `depth` bounds the length of the path. -/
def activate (graph : Graph) : (depth : Nat) → (target name : String) → Assessments → Assessments
  | 0, _, _, assessments => assessments
  | depth + 1, target, name, assessments =>
    let prereqs := match graph.node? name with
      | some node => node.uniquePrereqs
      | none => []
    let assessments := assessments.set name
      { time := none, mustBuild := true, reasons := [.needed target], newer := prereqs }
    prereqs.foldl
      (fun assessments prereq =>
        if (assessments.of prereq).deferred then activate graph depth name prereq assessments
        else assessments)
      assessments

/-- Builds the deferred prerequisites of a node that must be built. -/
def activatePrereqs (graph : Graph) (node : Node) (assessments : Assessments) : Assessments :=
  node.uniquePrereqs.foldl
    (fun assessments prereq =>
      if (assessments.of prereq).deferred then
        let assessments := activate graph graph.nodes.length node.name prereq assessments
        let assessment := assessments.of node.name
        let newer := if assessment.newer.contains prereq then assessment.newer
          else assessment.newer ++ [prereq]
        assessments.set node.name { assessment with newer }
      else assessments)
    assessments

/-- Whether a missing file waits until a target needs it: the only reason to build it is that it is
missing. -/
def defers (options : PlanOptions) (node : Node) (findings : Findings) : Bool :=
  findings.reasons = [.missing] && options.ignoreMissing && node.intermediate

/-- Records what has been found out about a node whose file has the given time. -/
def record (options : PlanOptions) (graph : Graph) (assessments : Assessments) (node : Node)
    (time : Option Int) (findings : Findings) : Assessments :=
  let reasons := findings.reasons
  if defers options node findings then
    assessments.set node.name {
      time := latest (node.uniquePrereqs.map fun prereq => (assessments.of prereq).time)
      deferred := true
      reasons := reasons
      newer := findings.newer }
  else
    let assessments := assessments.set node.name
      { time, mustBuild := !reasons.isEmpty, reasons, newer := findings.newer }
    if reasons.isEmpty then assessments else activatePrereqs graph node assessments

/-- Looks at one node; its prerequisites have been looked at. -/
def evaluateNode (host : Host σ) (console : Console) (options : PlanOptions) (graph : Graph)
    (assessments : Assessments) (node : Node) : Action σ Assessments := do
  let modified := host.modified node.name (← get)
  if node.isSource then return assessments.set node.name { time := modified }
  let time := if node.isVirtual then none else modified
  let findings ← node.uniquePrereqs.foldlM
    (inspect host console options assessments node time)
    { reasons := ownReasons options node time }
  if defers options node findings then
    host.say (console.debug (node.name ++ ": missing intermediate deferred"))
  return record options graph assessments node time findings

/-- Tells the user why the nodes of a plan must be built. -/
def explain (console : Console) (plan : Plan) : List Printed :=
  plan.stale.flatMap fun node =>
    let reasons := (plan.assessment node.name).reasons.map Reason.shown
    console.explain node.name reasons ++
      console.debug (node.name ++ ": must build (" ++ Text.join "; " reasons ++ ")")

/-- The plan for a graph. -/
def evaluate (host : Host σ) (console : Console) (options : PlanOptions) (graph : Graph) :
    Action σ Plan := do
  let assessments ← graph.nodes.foldlM (evaluateNode host console options graph) []
  let plan : Plan := ⟨graph, assessments⟩
  host.say (explain console plan)
  return plan

end Plan

end BuildSystem
