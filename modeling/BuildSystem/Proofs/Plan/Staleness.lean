/-
**A node must be built exactly if something out of date is below it.**

* `OutOfDate` — what makes a node out of date by itself, said by times, attributes and comparators.
* `outOfDate_iff`, `exists_reason_iff`, `findings_ne_nil_iff` — the reasons that are found for a
  node are those, and the prerequisites that must be built.
* `Exact` — what is known about the nodes that have been looked at, if no file may wait.
* `Exact.assess` — looking at one more node keeps what is known exact.
* `mustBuild_iff_outOfDate` — a node must be built if and only if it is out of date by itself or
  leads to such a node.
-/

import BuildSystem.Host.World
import BuildSystem.Proofs.Graph.Justification
import BuildSystem.Proofs.Plan.Observed
import Mathlib.Logic.Relation

namespace BuildSystem

open Plan

/-- **What makes a node out of date by itself.** -/
inductive OutOfDate (seen : Observation) (forceAll : Bool) (graph : Graph) (node : Node) : Prop
  | forced (everything : forceAll = true)
  | virtualTarget (unreal : node.isVirtual = true)
  | alwaysUpdated (always : node.attributes.forceUpdate = true)
  /-- It is a file, and the file is missing. -/
  | missing (real : node.isVirtual = false) (absent : seen.modified node.name = none)
  /-- Its comparator finds a difference between its file and a prerequisite. -/
  | differs (there : seen.modified node.name ≠ none)
      (comparator : String) (compares : node.comparator = some comparator)
      (given : comparator ≠ "")
      (prereq : Node) (needed : graph.Needs node prereq)
      (finds : seen.differs node.name prereq.name = true)
  /-- It has no comparator, and the recorded time of a prerequisite is later than that of its
  file. -/
  | newer (time : Int) (there : seen.modified node.name = some time)
      (uncompared : ∀ comparator, node.comparator = some comparator → comparator = "")
      (prereq : Node) (needed : graph.Needs node prereq)
      (later : Int) (recorded : seen.recorded prereq = some later) (after : time < later)

/-! ### One node -/

theorem Observation.recorded_eq_some {seen : Observation} {node : Node} {time : Int}
    (recorded : seen.recorded node = some time) : seen.modified node.name = some time := by
  unfold Observation.recorded at recorded
  split at recorded
  · cases recorded
  · exact recorded

theorem Assessments.of_set (assessments : Assessments) (name other : String)
    (assessment : Assessment) :
    Assessments.of (assessments.set name assessment) other =
      if other = name then assessment else assessments.of other := by
  unfold Assessments.of
  rw [Table.get?_set]
  split
  · rfl
  · rfl

theorem Assessments.of_set_self (assessments : Assessments) (name : String)
    (assessment : Assessment) :
    Assessments.of (assessments.set name assessment) name = assessment := by
  rw [of_set, if_pos rfl]

theorem Assessments.of_set_of_ne (assessments : Assessments) {name other : String}
    (assessment : Assessment) (differ : other ≠ name) :
    Assessments.of (assessments.set name assessment) other = assessments.of other := by
  rw [of_set, if_neg differ]

theorem ownReasons_ne_nil_iff {options : PlanOptions} {node : Node} {time : Option Int} :
    ownReasons options node time ≠ [] ↔ options.forceAll = true ∨ node.isVirtual = true ∨
      node.attributes.forceUpdate = true ∨ (time = none ∧ node.isVirtual = false) := by
  unfold ownReasons
  cases options.forceAll with
  | true => simp
  | false =>
    cases node.isVirtual with
    | true => simp
    | false =>
      cases node.attributes.forceUpdate with
      | true => simp
      | false =>
        cases time with
        | none => simp
        | some time => simp

theorem filter_comparator_eq_none_iff {comparator : Option String} :
    comparator.filter (!·.isEmpty) = none ↔ ∀ text, comparator = some text → text = "" := by
  rw [Option.filter_eq_none_iff]
  simp

theorem filter_comparator_eq_some_iff {comparator : Option String} {text : String} :
    comparator.filter (!·.isEmpty) = some text ↔ comparator = some text ∧ text ≠ "" := by
  rw [Option.filter_eq_some_iff]
  simp

theorem reasonFor_ne_none_iff {node : Node} {time : Option Int} {prereq : String}
    {assessment : Assessment} {differs : Bool} :
    reasonFor node time prereq assessment differs ≠ none ↔
      assessment.mustBuild = true ∨ ∃ own, time = some own ∧
        ((∃ comparator, node.comparator = some comparator ∧ comparator ≠ "" ∧ differs = true) ∨
          ((∀ comparator, node.comparator = some comparator → comparator = "") ∧
            ∃ later, assessment.time = some later ∧ own < later)) := by
  unfold reasonFor
  by_cases stale : assessment.mustBuild = true
  · simp [stale]
  · rw [if_neg stale]
    cases time with
    | none => simp [stale]
    | some own =>
      cases asks : node.comparator.filter (!·.isEmpty) with
      | none =>
        have uncompared := filter_comparator_eq_none_iff.mp asks
        have silent : ¬ ∃ comparator, node.comparator = some comparator ∧ comparator ≠ "" ∧
            differs = true := by
          rintro ⟨comparator, compares, given, _⟩
          exact given (uncompared comparator compares)
        cases assessment.time with
        | none => simpa [stale] using silent
        | some later =>
          by_cases after : own < later
          · simpa [stale, after] using Or.inr uncompared
          · simpa [stale, after] using silent
      | some comparator =>
        obtain ⟨compares, given⟩ := filter_comparator_eq_some_iff.mp asks
        simp [stale, compares, given]

/-- A node is out of date by itself if it has a reason of its own, or if its file differs from a
prerequisite or is older. -/
theorem outOfDate_iff {seen : Observation} {options : PlanOptions} {graph : Graph} {node : Node} :
    OutOfDate seen options.forceAll graph node ↔
      ownReasons options node (seen.recorded node) ≠ [] ∨
        ∃ prereq, graph.Needs node prereq ∧ ∃ own, seen.recorded node = some own ∧
          ((∃ comparator, node.comparator = some comparator ∧ comparator ≠ "" ∧
              seen.differs node.name prereq.name = true) ∨
            ((∀ comparator, node.comparator = some comparator → comparator = "") ∧
              ∃ later, seen.recorded prereq = some later ∧ own < later)) := by
  rw [ownReasons_ne_nil_iff]
  constructor
  · intro outOfDate
    cases virtual : node.isVirtual with
    | true => exact Or.inl (Or.inr (Or.inl rfl))
    | false =>
      have recorded : seen.recorded node = seen.modified node.name := if_neg (by simp [virtual])
      rw [recorded]
      cases outOfDate with
      | forced everything => exact Or.inl (Or.inl everything)
      | virtualTarget unreal => exact absurd (virtual.symm.trans unreal) Bool.false_ne_true
      | alwaysUpdated always => exact Or.inl (Or.inr (Or.inr (Or.inl always)))
      | missing _ absent => exact Or.inl (Or.inr (Or.inr (Or.inr ⟨absent, rfl⟩)))
      | differs there comparator compares given prereq needed finds =>
        obtain ⟨own, time⟩ := Option.ne_none_iff_exists'.mp there
        exact Or.inr ⟨prereq, needed, own, time, Or.inl ⟨comparator, compares, given, finds⟩⟩
      | newer own there uncompared prereq needed later time after =>
        exact Or.inr ⟨prereq, needed, own, there, Or.inr ⟨uncompared, later, time, after⟩⟩
  · rintro ((forced | unreal | always | ⟨absent, real⟩) | ⟨prereq, needed, own, time, finds⟩)
    · exact .forced forced
    · exact .virtualTarget unreal
    · exact .alwaysUpdated always
    · rw [Observation.recorded, if_neg (by simp [real])] at absent
      exact .missing real absent
    · have there := Observation.recorded_eq_some time
      rcases finds with ⟨comparator, compares, given, finds⟩ | ⟨uncompared, later, time, after⟩
      · exact .differs (by simp [there]) comparator compares given prereq needed finds
      · exact .newer own there uncompared prereq needed later time after

/-- There is a reason to build a node if it has one of its own or a prerequisite gives one. -/
theorem exists_reason_iff {seen : Observation} {options : PlanOptions} {graph : Graph}
    {assessments : Assessments} {node : Node}
    (known : ∀ name ∈ node.prereqs, ∃ prereq, graph.Needs node prereq ∧ prereq.name = name) :
    (seen.findings options assessments node).reasons ≠ [] ↔
      ownReasons options node (seen.recorded node) ≠ [] ∨
        ∃ prereq, graph.Needs node prereq ∧ reasonFor node (seen.recorded node) prereq.name
          (assessments.of prereq.name) (seen.differs node.name prereq.name) ≠ none := by
  rw [seen.reasons_findings, ne_eq, List.append_eq_nil_iff, not_and_or, ← ne_eq,
    List.filterMap_eq_nil_iff]
  push Not
  refine or_congr_right ⟨?_, ?_⟩
  · rintro ⟨name, needed, reason⟩
    obtain ⟨prereq, needs, rfl⟩ := known name (mem_distinct.mp needed)
    exact ⟨prereq, needs, reason⟩
  · rintro ⟨prereq, needs, reason⟩
    exact ⟨prereq.name, mem_distinct.mpr needs.2, reason⟩

/-- What is found about a node whose prerequisites have their recorded times: there is a reason to
build it if it is out of date by itself or a prerequisite must be built. -/
theorem findings_ne_nil_iff {seen : Observation} {options : PlanOptions} {graph : Graph}
    {assessments : Assessments} {node : Node}
    (known : ∀ name ∈ node.prereqs, ∃ prereq, graph.Needs node prereq ∧ prereq.name = name)
    (timed : ∀ prereq, graph.Needs node prereq →
      (assessments.of prereq.name).time = seen.recorded prereq) :
    (seen.findings options assessments node).reasons ≠ [] ↔
      OutOfDate seen options.forceAll graph node ∨
        ∃ prereq, graph.Needs node prereq ∧ (assessments.of prereq.name).mustBuild = true := by
  rw [exists_reason_iff known, outOfDate_iff]
  constructor
  · rintro (own | ⟨prereq, needs, reason⟩)
    · exact Or.inl (Or.inl own)
    · rcases reasonFor_ne_none_iff.mp reason with stale | finds
      · exact Or.inr ⟨prereq, needs, stale⟩
      · rw [timed prereq needs] at finds
        exact Or.inl (Or.inr ⟨prereq, needs, finds⟩)
  · rintro ((own | ⟨prereq, needs, finds⟩) | ⟨prereq, needs, stale⟩)
    · exact Or.inl own
    · rw [← timed prereq needs] at finds
      exact Or.inr ⟨prereq, needs, reasonFor_ne_none_iff.mpr (Or.inr finds)⟩
    · exact Or.inr ⟨prereq, needs, reasonFor_ne_none_iff.mpr (Or.inl stale)⟩

/-! ### All nodes -/

/-- Without deferred prerequisites nothing is activated. -/
theorem activatePrereqs_of_idle {graph : Graph} {node : Node} {assessments : Assessments}
    (idle : ∀ name, (assessments.of name).deferred = false) :
    activatePrereqs graph node assessments = assessments := by
  unfold activatePrereqs
  induction node.uniquePrereqs with
  | nil => rfl
  | cons prereq rest ih => rw [List.foldl_cons, if_neg (by simp [idle]), ih]

/-- **What is known about the nodes that have been looked at**, if no file may wait. -/
structure Exact (seen : Observation) (forceAll : Bool) (graph : Graph) (nodes : List Node)
    (assessments : Assessments) : Prop where
  idle : ∀ name, (assessments.of name).deferred = false
  timed : ∀ node ∈ nodes, (assessments.of node.name).time = seen.recorded node
  stale : ∀ node ∈ nodes, (assessments.of node.name).mustBuild = true ↔ node.isSource = false ∧
    (OutOfDate seen forceAll graph node ∨
      ∃ prereq, graph.Needs node prereq ∧ (assessments.of prereq.name).mustBuild = true)

namespace Exact

variable {seen : Observation} {options : PlanOptions} {graph : Graph} {nodes : List Node}
  {assessments : Assessments} {node : Node}

theorem nil (seen : Observation) (forceAll : Bool) (graph : Graph) :
    Exact seen forceAll graph [] [] where
  idle := fun _ => rfl
  timed := fun node member => by cases member
  stale := fun node member => by cases member

/-- Looking at a node assesses that node and changes nothing else, if no file may wait. -/
theorem assess_eq (exact : Exact seen options.forceAll graph nodes assessments)
    (unmarked : node.isSource = true → node.attributes = {})
    (strict : options.ignoreMissing = false) :
    ∃ entry : Assessment, seen.assess options graph assessments node =
        assessments.set node.name entry ∧
      entry.deferred = false ∧ entry.time = seen.recorded node ∧
      (entry.mustBuild = true ↔ node.isSource = false ∧
        (seen.findings options assessments node).reasons ≠ []) := by
  unfold Observation.assess
  cases source : node.isSource with
  | true =>
    refine ⟨{ time := seen.modified node.name }, if_pos rfl, rfl, ?_, by simp⟩
    unfold Observation.recorded Node.isVirtual
    rw [unmarked source]
    rfl
  | false =>
    rw [if_neg Bool.false_ne_true]
    unfold record defers
    rw [strict, Bool.and_false, Bool.false_and, if_neg Bool.false_ne_true]
    refine ⟨{
      time := seen.recorded node
      mustBuild := !(seen.findings options assessments node).reasons.isEmpty
      reasons := (seen.findings options assessments node).reasons
      newer := (seen.findings options assessments node).newer }, ?_, rfl, rfl, by simp⟩
    dsimp only
    split
    · rfl
    · refine activatePrereqs_of_idle fun name => ?_
      rw [Assessments.of_set]
      split
      · rfl
      · exact exact.idle name

/-- **Looking at one more node keeps what is known exact.** -/
theorem assess (exact : Exact seen options.forceAll graph nodes assessments)
    (arranged : Arranged graph.nodes) {after : List Node}
    (split : graph.nodes = nodes ++ node :: after)
    (unmarked : node.isSource = true → node.attributes = {})
    (strict : options.ignoreMissing = false) :
    Exact seen options.forceAll graph (nodes ++ [node])
      (seen.assess options graph assessments node) := by
  -- The prerequisites of all nodes so far have been looked at, and the new node is none of them.
  have earlier : ∀ other ∈ nodes ++ [node], ∀ prereq, graph.Needs other prereq →
      prereq ∈ nodes ∧ prereq.name ≠ node.name := fun other member prereq needs =>
    (split ▸ arranged : Arranged (nodes ++ node :: after)).earlier member (split ▸ needs.1) needs.2
  have differ : ∀ other ∈ nodes, other.name ≠ node.name := fun other member =>
    (arranged.upTo split).ne_last member
  have lastMember : node ∈ nodes ++ [node] := List.mem_append_right _ (List.mem_singleton_self node)
  obtain ⟨entry, assessed, idle, timed, stale⟩ := exact.assess_eq unmarked strict
  rw [assessed]
  have kept : ∀ other ∈ nodes ++ [node],
      (∃ prereq, graph.Needs other prereq ∧
        (Assessments.of (assessments.set node.name entry) prereq.name).mustBuild = true) ↔
      ∃ prereq, graph.Needs other prereq ∧ (assessments.of prereq.name).mustBuild = true := by
    intro other member
    refine exists_congr fun prereq => and_congr_right fun needs => ?_
    rw [assessments.of_set_of_ne entry (earlier other member prereq needs).2]
  refine ⟨fun name => ?_, fun other member => ?_, fun other member => ?_⟩
  · rw [Assessments.of_set]
    split
    · exact idle
    · exact exact.idle name
  · rw [Assessments.of_set]
    rcases List.mem_append.mp member with old | new
    · rw [if_neg (differ other old)]
      exact exact.timed other old
    · obtain rfl := List.mem_singleton.mp new
      rw [if_pos rfl]
      exact timed
  · rw [kept other member, Assessments.of_set]
    rcases List.mem_append.mp member with old | new
    · rw [if_neg (differ other old)]
      exact exact.stale other old
    · obtain rfl := List.mem_singleton.mp new
      have inGraph : other ∈ graph.nodes := by rw [split]; simp
      rw [if_pos rfl, stale,
        findings_ne_nil_iff (fun name needed => arranged.exists_needs inGraph needed)
          fun prereq needs => exact.timed prereq (earlier other lastMember prereq needs).1]

end Exact

/-- When all nodes have been looked at, what is known about them is exact. -/
theorem exact_assessments (seen : Observation) {options : PlanOptions} {graph : Graph}
    (arranged : Arranged graph.nodes)
    (unmarked : ∀ node ∈ graph.nodes, node.isSource = true → node.attributes = {})
    (strict : options.ignoreMissing = false) :
    Exact seen options.forceAll graph graph.nodes (seen.assessments options graph) := by
  refine seen.assessments_along (Exact.nil seen options.forceAll graph) ?_
  intro before node after assessments split exact
  exact exact.assess arranged split (unmarked node (by simp [split])) strict

/-- In what is known exactly, a node must be built if and only if it leads to a node that is out of
date by itself. -/
theorem Exact.mustBuild_iff {seen : Observation} {forceAll : Bool} {graph : Graph}
    {assessments : Assessments} (exact : Exact seen forceAll graph graph.nodes assessments)
    (arranged : Arranged graph.nodes)
    (bare : ∀ node ∈ graph.nodes, node.isSource = true → node.prereqs = []) :
    ∀ node ∈ graph.nodes, (assessments.of node.name).mustBuild = true ↔
      ∃ other, Relation.ReflTransGen graph.Needs node other ∧ other.isSource = false ∧
        OutOfDate seen forceAll graph other := by
  refine arranged.rec_on fun node member below => ?_
  rw [exact.stale node member]
  constructor
  · rintro ⟨ruled, outOfDate | ⟨prereq, needs, stale⟩⟩
    · exact ⟨node, .refl, ruled, outOfDate⟩
    · obtain ⟨other, leads, found⟩ := (below prereq needs.1 needs.2).mp stale
      exact ⟨other, leads.head needs, found⟩
  · rintro ⟨other, leads, ruled, outOfDate⟩
    rcases Relation.ReflTransGen.cases_head leads with rfl | ⟨prereq, needs, further⟩
    · exact ⟨ruled, Or.inl outOfDate⟩
    · refine ⟨Bool.eq_false_iff.mpr fun source => ?_, Or.inr ⟨prereq, needs, ?_⟩⟩
      · have needed := needs.2
        rw [bare node member source] at needed
        cases needed
      · exact (below prereq needs.1 needs.2).mpr ⟨other, further, ruled, outOfDate⟩

/-- **A node must be built exactly if it leads to a node that is out of date by itself**, if no file
may wait and everything observed stays the same. -/
theorem mustBuild_iff_outOfDate {σ : Type} {host : Host σ} {console : Console}
    {options : PlanOptions} {rules : RuleSet} {available : String → Bool} {targets : List String}
    {graph : Graph} {seen : Observation} {usual : σ → Prop} {state : σ}
    (built : (Graph.build rules available targets).1 = .ok graph)
    (steady : Steady host options.shell graph seen usual) (start : usual state)
    (strict : options.ignoreMissing = false) :
    ∃ plan after, evaluate host console options graph state = .ok plan after ∧
      plan.graph = graph ∧ ∀ node ∈ graph.nodes, (plan.assessment node.name).mustBuild = true ↔
        ∃ other, Relation.ReflTransGen graph.Needs node other ∧ other.isSource = false ∧
          OutOfDate seen options.forceAll graph other := by
  have arranged := build_arranged built
  have sources := build_source built
  obtain ⟨after, _, evaluated⟩ := evaluate_eq steady arranged console start
  have exact := exact_assessments seen arranged
    (fun node member source => (sources node member source).2) strict
  exact ⟨_, after, evaluated, rfl, exact.mustBuild_iff arranged
    fun node member source => (sources node member source).1⟩

/-! ### A small program that is not up to date -/

/-- A world in which the program differs from its object file, by what its comparator says. -/
def programWorld : World where
  files := [
    ("main.h", { time := 1 }),
    ("main.c", { time := 1 }),
    ("main.o", { time := 2 }),
    ("main", { time := 2 })]
  script := { byCommand := [("cmp main main.o", { exitCode := 1 })] }

/-- What is the case in that world. -/
def programSeen : Observation where
  modified := fun name => World.host.modified name programWorld
  differs := fun target prereq => target = "main" && prereq = "main.o"

/-- Asking the comparator and printing change nothing in that world but its records. -/
theorem steady_program : Steady World.host ["sh"] programGraph programSeen
    fun world => ∃ commands printed, world = { programWorld with commands, printed } where
  times := by
    rintro _ ⟨commands, printed, rfl⟩ name
    rfl
  printing := by
    rintro _ ⟨commands, printed, rfl⟩ piece
    exact ⟨commands, printed ++ [piece], rfl⟩
  answers := by
    rintro node member comparator compares prereq needed _ ⟨commands, printed, rfl⟩
    simp only [programGraph, List.mem_cons, List.not_mem_nil, or_false] at member
    rcases member with rfl | rfl | rfl | rfl
    · cases compares
    · cases compares
    · cases compares
    · obtain rfl := Option.some.inj compares
      obtain rfl := List.mem_singleton.mp needed
      exact ⟨⟨1, ""⟩, { programWorld with
        commands := commands ++ [⟨["sh", "-c", "cmp main main.o"], []⟩], printed }, rfl,
        ⟨_, printed, rfl⟩, rfl⟩

theorem mustBuild_iff_outOfDate_program :
    programWorld.commands = [] ∧
    ∃ plan after, evaluate World.host {} {} programGraph programWorld = .ok plan after ∧
      plan.graph = programGraph ∧ ∀ node ∈ programGraph.nodes,
        (plan.assessment node.name).mustBuild = true ↔
          ∃ other, Relation.ReflTransGen programGraph.Needs node other ∧ other.isSource = false ∧
            OutOfDate programSeen false programGraph other :=
  ⟨rfl, mustBuild_iff_outOfDate build_program steady_program ⟨[], [], rfl⟩ rfl⟩

end BuildSystem
