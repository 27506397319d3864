/-
**The trace of a resolution.**

* `Decision` — one decision that is made while the nodes of a graph are looked for.
* `Decision.shown` — its line in the trace.
-/

import BuildSystem.Graph.Basic

namespace BuildSystem

/-- One decision on the way to a graph. -/
inductive Decision where
  /-- A candidate leads back into a target that is being resolved. -/
  | cycleRejected (name : String) (cycle : List String)
  /-- A file without a rule. -/
  | source (name : String)
  /-- Nothing makes the name. -/
  | noRule (name : String) (neededBy : Option String)
  /-- The explicit rules of the name are used. -/
  | explicitRule (name : String) (location : Location)
  /-- A rule for targets of a common form is tried. -/
  | trying (name target : String) (location : Location) (prereqs : List String)
  /-- A rule for targets of a common form cannot be used. -/
  | rejected (name target : String)
  /-- A rule for targets of a common form is used. -/
  | chosen (name target stem : String)
  /-- The graph is complete. -/
  | complete (count : Nat) (roots : List String)
deriving DecidableEq, Repr

/-- The line of a decision in the trace. -/
def Decision.shown : Decision → String
  | cycleRejected name cycle =>
    name ++ ": " ++ (BuildError.cycle cycle).message ++ ", candidate rejected"
  | source name => name ++ ": source file"
  | noRule name neededBy => name ++ ": no rule (needed by " ++ neededBy.getD "None" ++ ")"
  | explicitRule name location => name ++ ": explicit rule at " ++ location.shown
  | trying name target location prereqs =>
    name ++ ": trying meta-rule " ++ target ++ " at " ++ location.shown ++ " -> " ++
      Text.quotedList prereqs
  | rejected name target => name ++ ": meta-rule " ++ target ++ " rejected"
  | chosen name target stem =>
    name ++ ": using meta-rule " ++ target ++ " (stem " ++ Text.quoted stem ++ ")"
  | complete count roots =>
    "graph: " ++ toString count ++ " node(s) for " ++ Text.quotedList roots

end BuildSystem
