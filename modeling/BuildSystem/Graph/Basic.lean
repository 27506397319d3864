/-
**Dependency graphs.**

* `Status` — how far the work on a target has come; three of the statuses are final.
* `Node` — one target with everything that is needed to make it.
* `Graph` — the nodes that a request needs, every node behind its prerequisites.
-/

import BuildSystem.Distinct
import BuildSystem.Failure
import BuildSystem.Rule

namespace BuildSystem

/-- How far the work on a target has come. -/
inductive Status where
  | unvisited
  | pending
  | building
  | succeeded
  | failed
  | skipped
deriving DecidableEq, Repr

namespace Status

/-- The word for a status. -/
def word : Status → String
  | unvisited => "unvisited"
  | pending => "pending"
  | building => "building"
  | succeeded => "succeeded"
  | failed => "failed"
  | skipped => "skipped"

/-- Whether a status is final. -/
def isFinal : Status → Bool
  | succeeded | failed | skipped => true
  | unvisited | pending | building => false

/-- Whether a status keeps the targets that depend on it from being built. -/
def blocks : Status → Bool
  | failed | skipped => true
  | _ => false

/-- The new status of a target, unless its status is final. -/
def change (target : String) (current requested : Status) : Except BuildError Status :=
  if current.isFinal then .error (.statusSettled target current.word requested.word)
  else .ok requested

end Status

/-- A target and its status, as they are shown. -/
def shownStatus (target : String) (status : Status) : String :=
  "<Node " ++ target ++ " " ++ status.word ++ ">"

/-- What justifies a node. -/
inductive Origin where
  /-- A file that exists and has no rule. -/
  | source
  /-- The explicit rules of the target. -/
  | explicit
  /-- The rule for targets of a common form at the given place. -/
  | pattern (index : Nat)
deriving DecidableEq, Repr

/-- A target with everything that is needed to make it. -/
structure Node where
  name : String
  /-- The names of the prerequisites; a name may occur more than once. -/
  prereqs : List String := []
  recipe : Option String := none
  attributes : Attributes := {}
  comparator : Option String := none
  stem : String := ""
  groups : List String := []
  /-- The targets that one run of the recipe makes. -/
  allTargets : List String := []
  location : Option Location := none
  origin : Origin
  /-- Whether the target was neither asked for nor named by an explicit rule. -/
  intermediate : Bool := false
deriving DecidableEq, Repr

namespace Node

/-- The prerequisites, each once. -/
def uniquePrereqs (node : Node) : List String :=
  distinct node.prereqs

/-- Whether the target is no file. -/
def isVirtual (node : Node) : Bool :=
  node.attributes.virtual

/-- Whether the target is a file without a rule. -/
def isSource (node : Node) : Bool :=
  node.origin = .source

/-- The status before any work: files without a rule are there already. -/
def initialStatus (node : Node) : Status :=
  if node.isSource then .succeeded else .unvisited

end Node

/-- The nodes that a request needs, every node behind its prerequisites. -/
structure Graph where
  nodes : List Node
  /-- The targets that were asked for. -/
  roots : List String
deriving DecidableEq, Repr

namespace Graph

/-- The node of a name. -/
def node? (graph : Graph) (name : String) : Option Node :=
  graph.nodes.find? (·.name == name)

/-- Whether a name has a node. -/
def contains (graph : Graph) (name : String) : Bool :=
  (graph.node? name).isSome

/-- The names of the nodes that need a given one, in the order of the graph. -/
def dependentsOf (graph : Graph) (name : String) : List String :=
  (graph.nodes.filter (·.prereqs.contains name)).map (·.name)

/-- The names of the nodes that need each node. -/
def dependents (graph : Graph) : Table String (List String) :=
  graph.nodes.map fun node => (node.name, graph.dependentsOf node.name)

end Graph

end BuildSystem
