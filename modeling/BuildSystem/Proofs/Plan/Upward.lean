/-
**What must be built is needed by something that must be built.**

A missing file may wait until a target needs it, and then it is built after all, together with the
missing files that it needs in turn.  So a file may have to be built although some of the targets
that need it were looked at before and are left alone; but then another one must be built.

* `Wakes` — one step of building deferred nodes after all.
* `wakes_activate`, `wakes_activatePrereqs` — each of the two loops consists of such steps.
* `Activates`, `activates_of_wakes` — what the steps do to what is known.
* `Upward` — what holds when some nodes have been looked at.
* `record_cases` — what is recorded of one more node.
* `Upward.set`, `record_wakes` — looking at one more node keeps it.
* `upward_assessments` — so it holds in the end, whatever was observed.
-/

import BuildSystem.Proofs.Graph.Shape
import BuildSystem.Proofs.Plan.Staleness

namespace BuildSystem

open Plan

variable {graph : Graph} {nodes : List Node} {before middle after : Assessments}

/-! ### Building deferred nodes after all -/

/-- **One step of building what `root` needs after all**: a deferred prerequisite of a node that
must be built is to be built itself, or the prerequisites to blame are noted anew. -/
inductive Wakes (graph : Graph) (root : String) (before : Assessments) : Assessments → Prop
  | wake {node : Node} {name : String} {newer : List String} : node ∈ graph.nodes →
      Relation.ReflTransGen graph.Leads root node.name → (before.of root).mustBuild = true →
      (before.of node.name).mustBuild = true → name ∈ node.prereqs →
      (before.of name).deferred = true →
      Wakes graph root before
        (before.set name { mustBuild := true, reasons := [.needed node.name], newer })
  | note {name : String} {newer : List String} :
      Wakes graph root before (before.set name { before.of name with newer })

namespace Wakes

variable {root : String}

/-- What must be built stays so. -/
theorem keeps (wakes : Wakes graph root before after) {name : String}
    (stale : (before.of name).mustBuild = true) : (after.of name).mustBuild = true := by
  cases wakes with
  | wake =>
    rw [Assessments.of_set]
    split
    · rfl
    · exact stale
  | note =>
    rw [Assessments.of_set]
    split
    · next same => exact same ▸ stale
    · exact stale

theorem keeps_all (wakes : Relation.ReflTransGen (Wakes graph root) before after) {name : String}
    (stale : (before.of name).mustBuild = true) : (after.of name).mustBuild = true := by
  induction wakes with
  | refl => exact stale
  | tail _ step ih => exact step.keeps ih

/-- Each part of a loop may rely on what had to be built at its start. -/
theorem foldl {step : Assessments → String → Assessments} {prereqs : List String}
    (steps : ∀ prereq ∈ prereqs, ∀ middle : Assessments,
      (∀ name, (before.of name).mustBuild = true → (middle.of name).mustBuild = true) →
        Relation.ReflTransGen (Wakes graph root) middle (step middle prereq)) :
    Relation.ReflTransGen (Wakes graph root) before (prereqs.foldl step before) := by
  have rest : ∀ prereqs' : List String, (∀ prereq ∈ prereqs', prereq ∈ prereqs) →
      ∀ middle, Relation.ReflTransGen (Wakes graph root) before middle →
        Relation.ReflTransGen (Wakes graph root) before (prereqs'.foldl step middle) := by
    intro prereqs' listed
    induction prereqs' with
    | nil => exact fun middle wakes => wakes
    | cons prereq later ih =>
      intro middle wakes
      have first := steps prereq (listed prereq List.mem_cons_self) middle fun _ => keeps_all wakes
      exact ih (fun other member => listed other (List.mem_cons_of_mem prereq member)) _
        (wakes.trans first)
  exact rest prereqs (fun _ => id) before .refl

end Wakes

/-- Building one deferred node after all, with what it needs. -/
theorem wakes_activate (arranged : Arranged graph.nodes) (depth : Nat) {root : String}
    (rootStale : (before.of root).mustBuild = true) {node : Node} (member : node ∈ graph.nodes)
    (leads : Relation.ReflTransGen graph.Leads root node.name)
    (stale : (before.of node.name).mustBuild = true) {name : String} (needed : name ∈ node.prereqs)
    (deferred : (before.of name).deferred = true) :
    Relation.ReflTransGen (Wakes graph root) before
      (activate graph depth node.name name before) := by
  induction depth generalizing before node name with
  | zero => exact .refl
  | succ depth ih =>
    obtain ⟨own, ownMember, rfl⟩ := arranged.closed member needed
    unfold activate
    rw [arranged.node?_eq ownMember]
    dsimp only
    have first : Wakes graph root before (before.set own.name {
        time := none
        mustBuild := true
        reasons := [.needed node.name]
        newer := own.uniquePrereqs }) := .wake member leads rootStale stale needed deferred
    have ownStale := congrArg Assessment.mustBuild (Assessments.of_set_self before own.name {
      time := none
      mustBuild := true
      reasons := [.needed node.name]
      newer := own.uniquePrereqs })
    refine .head first (Wakes.foldl fun prereq listed middle kept => ?_)
    split
    · next waits =>
      exact ih (kept root (first.keeps rootStale)) ownMember
        (leads.tail ⟨node, member, rfl, needed⟩) (kept own.name ownStale) (mem_distinct.mp listed)
        waits
    · exact .refl

/-- Building the deferred prerequisites of a node that must be built. -/
theorem wakes_activatePrereqs (arranged : Arranged graph.nodes) {node : Node}
    (member : node ∈ graph.nodes) (stale : (before.of node.name).mustBuild = true) :
    Relation.ReflTransGen (Wakes graph node.name) before (activatePrereqs graph node before) := by
  unfold activatePrereqs
  refine Wakes.foldl fun prereq listed middle kept => ?_
  split
  · next waits =>
    have activated := wakes_activate arranged graph.nodes.length (kept node.name stale) member
      .refl (kept node.name stale) (mem_distinct.mp listed) waits
    exact activated.tail .note
  · exact .refl

/-- **Deferred nodes are built after all**, each because a node that needs it must be built. -/
structure Activates (graph : Graph) (before after : Assessments) : Prop where
  keeps : ∀ name, (before.of name).mustBuild = true → (after.of name).mustBuild = true
  fresh : ∀ name, (after.of name).mustBuild = true → (before.of name).mustBuild = true ∨
    (before.of name).deferred = true ∧
      ∃ node ∈ graph.nodes, name ∈ node.prereqs ∧ (after.of node.name).mustBuild = true
  defers : ∀ name, (after.of name).deferred = true → (before.of name).deferred = true

namespace Activates

theorem refl (graph : Graph) (assessments : Assessments) :
    Activates graph assessments assessments where
  keeps := fun _ => id
  fresh := fun _ => Or.inl
  defers := fun _ => id

/-- Other changes of what is known do not matter. -/
theorem of_same {name : String} {entry : Assessment}
    (builds : entry.mustBuild = (before.of name).mustBuild)
    (waits : entry.deferred = (before.of name).deferred) :
    Activates graph before (before.set name entry) := by
  have same : ∀ other, (Assessments.of (before.set name entry) other).mustBuild =
      (before.of other).mustBuild ∧
        (Assessments.of (before.set name entry) other).deferred = (before.of other).deferred := by
    intro other
    rw [Assessments.of_set]
    split
    · next equal => exact equal ▸ ⟨builds, waits⟩
    · exact ⟨rfl, rfl⟩
  exact ⟨fun other stale => (same other).1.trans stale,
    fun other stale => Or.inl ((same other).1.symm.trans stale),
    fun other deferred => (same other).2.symm.trans deferred⟩

theorem trans (first : Activates graph before middle) (second : Activates graph middle after) :
    Activates graph before after where
  keeps := fun name stale => second.keeps name (first.keeps name stale)
  fresh := by
    intro name stale
    rcases second.fresh name stale with early | ⟨deferred, found⟩
    · rcases first.fresh name early with earlier | ⟨deferred, node, member, needed, stale⟩
      · exact Or.inl earlier
      · exact Or.inr ⟨deferred, node, member, needed, second.keeps node.name stale⟩
    · exact Or.inr ⟨first.defers name deferred, found⟩
  defers := fun name deferred => first.defers name (second.defers name deferred)

/-- A deferred prerequisite of a node that must be built is to be built itself. -/
theorem of_set {node : Node} (member : node ∈ graph.nodes)
    (stale : (before.of node.name).mustBuild = true) {name : String} (needed : name ∈ node.prereqs)
    (deferred : (before.of name).deferred = true) {entry : Assessment}
    (builds : entry.mustBuild = true) (active : entry.deferred = false) :
    Activates graph before (before.set name entry) where
  keeps := by
    intro other otherStale
    rw [Assessments.of_set]
    split
    · exact builds
    · exact otherStale
  fresh := by
    intro other otherStale
    rw [Assessments.of_set] at otherStale
    split at otherStale
    · next same =>
      refine Or.inr ⟨same ▸ deferred, node, member, same ▸ needed, ?_⟩
      rw [Assessments.of_set]
      split
      · exact builds
      · exact stale
    · exact Or.inl otherStale
  defers := by
    intro other waits
    rw [Assessments.of_set] at waits
    split at waits
    · rw [active] at waits
      cases waits
    · exact waits

end Activates

theorem Wakes.activates {root : String} (wakes : Wakes graph root before after) :
    Activates graph before after := by
  cases wakes with
  | wake member _ _ stale needed deferred => exact .of_set member stale needed deferred rfl rfl
  | note => exact .of_same rfl rfl

theorem activates_of_wakes {root : String}
    (wakes : Relation.ReflTransGen (Wakes graph root) before after) :
    Activates graph before after := by
  induction wakes with
  | refl => exact .refl graph before
  | tail _ step ih => exact ih.trans step.activates

/-! ### Looking at nodes -/

/-- **What holds when some nodes have been looked at**: only they must be built or are deferred,
files without a rule are neither, and what must be built and is needed by one of them is needed by
one that must be built. -/
structure Upward (nodes : List Node) (assessments : Assessments) : Prop where
  known : ∀ name, (assessments.of name).mustBuild = true ∨ (assessments.of name).deferred = true →
    name ∈ nodeNames nodes
  sources : ∀ node ∈ nodes, node.isSource = true →
    (assessments.of node.name).mustBuild = false ∧ (assessments.of node.name).deferred = false
  needed : ∀ name, (assessments.of name).mustBuild = true →
    (∃ node ∈ nodes, name ∈ node.prereqs) →
      ∃ node ∈ nodes, name ∈ node.prereqs ∧ (assessments.of node.name).mustBuild = true

namespace Upward

variable {assessments : Assessments} {node : Node} {entry : Assessment}

/-- What must be built has a rule. -/
theorem ruled {nodes : List Node} (upward : Upward nodes assessments) (member : node ∈ nodes)
    (stale : (assessments.of node.name).mustBuild = true) : node.isSource = false := by
  refine Bool.eq_false_iff.mpr fun source => ?_
  rw [(upward.sources node member source).1] at stale
  cases stale

theorem nil : Upward [] [] where
  known := by
    rintro name (stale | deferred)
    · cases stale
    · cases deferred
  sources := fun node member => by cases member
  needed := by
    rintro name stale ⟨node, member, _⟩
    cases member

/-- One more node has been looked at: it must be built if one of its prerequisites must. -/
theorem set (upward : Upward nodes assessments) (arranged : Arranged (nodes ++ [node]))
    (idle : node.isSource = true → entry.mustBuild = false ∧ entry.deferred = false)
    (passes : ∀ prereq ∈ node.prereqs, (assessments.of prereq).mustBuild = true →
      entry.mustBuild = true) :
    Upward (nodes ++ [node]) (assessments.set node.name entry) := by
  have own := assessments.of_set_self node.name entry
  have others : ∀ name, name ≠ node.name →
      Assessments.of (assessments.set node.name entry) name = assessments.of name :=
    fun _ => assessments.of_set_of_ne entry
  refine ⟨fun name noticed => ?_, fun other member source => ?_, fun name stale needed => ?_⟩
  · rw [nodeNames_append]
    by_cases same : name = node.name
    · exact List.mem_append_right _ (by simp [same])
    · rw [others name same] at noticed
      exact List.mem_append_left _ (upward.known name noticed)
  · rcases List.mem_append.mp member with early | last
    · rw [others other.name (arranged.ne_last early)]
      exact upward.sources other early source
    · obtain rfl := List.mem_singleton.mp last
      rw [own]
      exact idle source
  · obtain ⟨dependent, member, needs⟩ := needed
    rw [others name (arranged.prereq_ne_last member needs)] at stale
    rcases List.mem_append.mp member with old | last
    · obtain ⟨other, otherMember, otherNeeds, otherStale⟩ :=
        upward.needed name stale ⟨dependent, old, needs⟩
      refine ⟨other, List.mem_append_left _ otherMember, otherNeeds, ?_⟩
      rw [others other.name (arranged.ne_last otherMember)]
      exact otherStale
    · obtain rfl := List.mem_singleton.mp last
      refine ⟨dependent, member, needs, ?_⟩
      rw [own]
      exact passes name needs stale

/-- Deferred nodes are built after all. -/
theorem activates (upward : Upward nodes before) (arranged : Arranged graph.nodes)
    (part : nodes ⊆ graph.nodes) (activates : Activates graph before after) :
    Upward nodes after := by
  have known : ∀ name, (after.of name).mustBuild = true ∨ (after.of name).deferred = true →
      name ∈ nodeNames nodes := by
    rintro name (stale | deferred)
    · exact upward.known name ((activates.fresh name stale).imp_right And.left)
    · exact upward.known name (Or.inr (activates.defers name deferred))
  refine ⟨known, fun node member source => ?_, fun name stale needed => ?_⟩
  · obtain ⟨idle, active⟩ := upward.sources node member source
    have remains : (after.of node.name).deferred ≠ true := fun deferred => by
      rw [activates.defers node.name deferred] at active
      cases active
    have leaves : (after.of node.name).mustBuild ≠ true := fun stale => by
      rcases activates.fresh node.name stale with early | ⟨deferred, _⟩
      · rw [early] at idle
        cases idle
      · rw [deferred] at active
        cases active
    exact ⟨Bool.eq_false_iff.mpr leaves, Bool.eq_false_iff.mpr remains⟩
  · rcases activates.fresh name stale with early | ⟨_, dependent, member, needs, dependentStale⟩
    · obtain ⟨dependent, member, needs, dependentStale⟩ := upward.needed name early needed
      exact ⟨dependent, member, needs, activates.keeps dependent.name dependentStale⟩
    · obtain ⟨other, otherMember, named⟩ :=
        mem_nodeNames.mp (known dependent.name (Or.inl dependentStale))
      obtain rfl := arranged.eq_of_name (part otherMember) member named
      exact ⟨other, otherMember, needs, dependentStale⟩

end Upward

/-- **What is recorded of a node that is no source**: it waits, or it must be built if there is a
reason, and then deferred nodes may be built after all. -/
theorem record_cases (options : PlanOptions) (assessments : Assessments) (time : Option Int)
    (findings : Findings) (arranged : Arranged graph.nodes) {node : Node}
    (member : node ∈ graph.nodes) :
    (defers options node findings = true ∧ ∃ entry : Assessment,
        entry.deferred = true ∧ entry.mustBuild = false ∧
        record options graph assessments node time findings = assessments.set node.name entry) ∨
      ∃ entry : Assessment, entry.deferred = false ∧ entry.time = time ∧
        (entry.mustBuild = true ↔ findings.reasons ≠ []) ∧
        Relation.ReflTransGen (Wakes graph node.name) (assessments.set node.name entry)
          (record options graph assessments node time findings) := by
  unfold record
  dsimp only
  by_cases waits : defers options node findings = true
  · rw [if_pos waits]
    exact Or.inl ⟨waits, _, rfl, rfl, rfl⟩
  · rw [if_neg waits]
    refine Or.inr ⟨{
      time := time
      mustBuild := !findings.reasons.isEmpty
      reasons := findings.reasons
      newer := findings.newer }, rfl, rfl, by simp, ?_⟩
    by_cases none : findings.reasons.isEmpty = true
    · rw [if_pos none]
    · rw [if_neg none]
      refine wakes_activatePrereqs arranged member ?_
      rw [Assessments.of_set_self]
      simpa using none

/-- What is recorded of a node that is no source: it must be built if one of its prerequisites must,
it is deferred only if it may wait, and then deferred nodes may be built after all. -/
theorem record_wakes (seen : Observation) (options : PlanOptions) (assessments : Assessments)
    (arranged : Arranged graph.nodes) {node : Node} (member : node ∈ graph.nodes) :
    ∃ entry : Assessment, (∀ prereq ∈ node.prereqs, (assessments.of prereq).mustBuild = true →
        entry.mustBuild = true) ∧
      (entry.deferred = true → options.ignoreMissing = true ∧ node.intermediate = true) ∧
      Relation.ReflTransGen (Wakes graph node.name) (assessments.set node.name entry)
        (record options graph assessments node (seen.recorded node)
          (seen.findings options assessments node)) := by
  have rebuilt : ∀ prereq ∈ node.prereqs, (assessments.of prereq).mustBuild = true →
      Reason.rebuilt prereq ∈ (seen.findings options assessments node).reasons := by
    intro prereq needed stale
    rw [seen.reasons_findings, List.mem_append, List.mem_filterMap]
    refine Or.inr ⟨prereq, mem_distinct.mpr needed, ?_⟩
    unfold reasonFor
    rw [if_pos stale]
  rcases record_cases options assessments (seen.recorded node)
    (seen.findings options assessments node) arranged member with
    ⟨waits, entry, _, _, recorded⟩ | ⟨entry, active, _, builds, wakes⟩
  · unfold defers at waits
    simp only [Bool.and_eq_true, decide_eq_true_iff] at waits
    obtain ⟨⟨missing, ignores⟩, intermediate⟩ := waits
    refine ⟨entry, fun prereq needed stale => ?_, fun _ => ⟨ignores, intermediate⟩, recorded ▸ .refl⟩
    have reason := rebuilt prereq needed stale
    rw [missing] at reason
    simp at reason
  · refine ⟨entry, fun prereq needed stale => ?_, fun deferred => ?_, wakes⟩
    · exact builds.mpr (List.ne_nil_of_mem (rebuilt prereq needed stale))
    · rw [active] at deferred
      cases deferred

/-- **What must be built and is needed is needed by something that must be built**, whatever was
observed. -/
theorem upward_assessments (seen : Observation) (options : PlanOptions)
    (arranged : Arranged graph.nodes)
    (bare : ∀ node ∈ graph.nodes, node.isSource = true → node.prereqs = []) :
    Upward graph.nodes (seen.assessments options graph) := by
  refine seen.assessments_along Upward.nil ?_
  intro nodes node rest assessments split upward
  have member : node ∈ graph.nodes := by simp [split]
  have initial := arranged.upTo split
  unfold Observation.assess
  by_cases source : node.isSource = true
  · rw [if_pos source]
    refine upward.set initial (fun _ => ⟨rfl, rfl⟩) fun prereq needed => ?_
    rw [bare node member source] at needed
    cases needed
  · rw [if_neg source]
    obtain ⟨entry, passes, _, wakes⟩ := record_wakes seen options assessments arranged member
    have set := upward.set initial (fun isSource => absurd isSource source) passes
    have part : nodes ++ [node] ⊆ graph.nodes := by simp [split]
    exact set.activates arranged part (activates_of_wakes wakes)

end BuildSystem
