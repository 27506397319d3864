/-
**What follows from times and from what comparators say.**

* `Observation` — the times of files, and what comparators say about targets and prerequisites.
* `Observation.assessments` — what is known about the nodes of a graph in the end, as a function of
  the observation alone.
* `Observation.assessments_along` — what looking at one more node keeps holds in the end.
* `reasons_findings` — why a node must be built: its own reasons, and then one reason at most for
  each prerequisite.
* `Observation.assess_congr` — what is found out about a node depends on what is observed about it.
-/

import Mathlib.Data.List.Basic
import BuildSystem.Plan
import BuildSystem.Proofs.Ending

namespace BuildSystem

open Plan

/-- What is the case outside while a plan is made. -/
structure Observation where
  /-- The time of a file, or nothing if there is no such file. -/
  modified : String → Option Int
  /-- Whether the comparator of a target finds a difference to a prerequisite. -/
  differs : (target prereq : String) → Bool

namespace Observation

/-- The time that is recorded of a node: the time of its file, if it is one. -/
def recorded (seen : Observation) (node : Node) : Option Int :=
  if node.isVirtual then none else seen.modified node.name

/-- What is found when one prerequisite of a node is looked at. -/
def inspect (seen : Observation) (assessments : Assessments) (node : Node) (findings : Findings)
    (prereq : String) : Findings :=
  findings.add (seen.recorded node) prereq
    (reasonFor node (seen.recorded node) prereq (assessments.of prereq)
      (seen.differs node.name prereq))

/-- What is found when all prerequisites of a node have been looked at. -/
def findings (seen : Observation) (options : PlanOptions) (assessments : Assessments)
    (node : Node) : Findings :=
  node.uniquePrereqs.foldl (seen.inspect assessments node)
    { reasons := ownReasons options node (seen.recorded node) }

/-- What is known when one more node has been looked at. -/
def assess (seen : Observation) (options : PlanOptions) (graph : Graph)
    (assessments : Assessments) (node : Node) : Assessments :=
  if node.isSource then assessments.set node.name { time := seen.modified node.name }
  else record options graph assessments node (seen.recorded node)
    (seen.findings options assessments node)

/-- What is known when all nodes of a graph have been looked at. -/
def assessments (seen : Observation) (options : PlanOptions) (graph : Graph) : Assessments :=
  graph.nodes.foldl (seen.assess options graph) []

/-- **What looking at one more node keeps holds when all nodes have been looked at**; the invariant
speaks of the nodes so far. -/
theorem assessments_along (seen : Observation) {options : PlanOptions} {graph : Graph}
    {holds : List Node → Assessments → Prop} (start : holds [] [])
    (step : ∀ before node after assessments, graph.nodes = before ++ node :: after →
      holds before assessments →
        holds (before ++ [node]) (seen.assess options graph assessments node)) :
    holds graph.nodes (seen.assessments options graph) := by
  have rest : ∀ after before assessments, graph.nodes = before ++ after →
      holds before assessments →
        holds graph.nodes (after.foldl (seen.assess options graph) assessments) := by
    intro after
    induction after with
    | nil =>
      intro before assessments split kept
      rw [split, List.append_nil]
      exact kept
    | cons node after ih =>
      intro before assessments split kept
      have shifted : graph.nodes = (before ++ [node]) ++ after := by simp [split]
      exact ih (before ++ [node]) _ shifted (step before node after assessments split kept)
  exact rest graph.nodes [] [] rfl start

/-! ### The reasons -/

/-- Each prerequisite adds one reason at most. -/
theorem reasons_findings (seen : Observation) (options : PlanOptions) (assessments : Assessments)
    (node : Node) :
    (seen.findings options assessments node).reasons =
      ownReasons options node (seen.recorded node) ++ node.uniquePrereqs.filterMap fun prereq =>
        reasonFor node (seen.recorded node) prereq (assessments.of prereq)
          (seen.differs node.name prereq) := by
  have fold : ∀ (prereqs : List String) (findings : Findings),
      (prereqs.foldl (seen.inspect assessments node) findings).reasons =
        findings.reasons ++ prereqs.filterMap fun prereq =>
          reasonFor node (seen.recorded node) prereq (assessments.of prereq)
            (seen.differs node.name prereq) := by
    intro prereqs
    induction prereqs with
    | nil => exact fun findings => (List.append_nil _).symm
    | cons prereq rest ih =>
      intro findings
      rw [List.foldl_cons, ih, List.filterMap_cons]
      unfold inspect Findings.add
      dsimp only
      split
      · next nothing => rw [nothing, Option.toList_none, List.append_nil]
      · next reason found =>
        rw [found, Option.toList_some, List.append_assoc, List.singleton_append]
  exact fold _ _

end Observation

/-! ### Comparators -/

/-- A comparator that is not asked has no influence. -/
theorem reasonFor_eq_of_asked_eq_none {node : Node} {time : Option Int} {prereq : String}
    {assessment : Assessment} (unasked : asked node time assessment = none) (first second : Bool) :
    reasonFor node time prereq assessment first = reasonFor node time prereq assessment second := by
  unfold asked at unasked
  unfold reasonFor
  split
  · rfl
  · next idle =>
    cases time with
    | none => rfl
    | some time =>
      rw [if_neg (by simpa using idle)] at unasked
      rw [unasked]

theorem of_asked_eq_some {node : Node} {time : Option Int} {assessment : Assessment}
    {comparator : String} (asks : asked node time assessment = some comparator) :
    node.comparator = some comparator := by
  unfold asked at asks
  split at asks
  · cases asks
  · exact (Option.filter_eq_some_iff.mp asks).1

/-- What is found out about a node depends on the time of its file, and on what its comparator says
about its prerequisites. -/
theorem Observation.assess_congr {one two : Observation} {options : PlanOptions} {graph : Graph}
    {node : Node} (modified : one.modified node.name = two.modified node.name)
    (differs : ∀ comparator, node.comparator = some comparator → ∀ prereq ∈ node.prereqs,
      one.differs node.name prereq = two.differs node.name prereq) (assessments : Assessments) :
    one.assess options graph assessments node = two.assess options graph assessments node := by
  have recorded : one.recorded node = two.recorded node := by
    unfold Observation.recorded
    rw [modified]
  have inspected : ∀ findings, ∀ prereq ∈ node.uniquePrereqs,
      one.inspect assessments node findings prereq =
        two.inspect assessments node findings prereq := by
    intro findings prereq listed
    unfold Observation.inspect
    rw [recorded]
    cases compares : node.comparator with
    | none =>
      have unasked : asked node (two.recorded node) (assessments.of prereq) = none := by
        simp [asked, compares]
      rw [reasonFor_eq_of_asked_eq_none unasked]
    | some comparator => rw [differs comparator compares prereq (mem_distinct.mp listed)]
  have findings :
      one.findings options assessments node = two.findings options assessments node := by
    unfold Observation.findings
    rw [recorded]
    exact List.foldl_ext _ _ _ inspected
  unfold Observation.assess
  rw [modified, recorded, findings]

end BuildSystem
