/-
**Nothing that is needed is withheld.**

A missing intermediate file may wait.  When a target that must be built needs it, it is built after
all, and so are the missing files that it needs in turn, however long the chain is and however the
chains cross.  So in the end everything that must be built finds its prerequisites: each of them is
there or must be built too.

* `Supplies` — what building deferred nodes after all does for those that must be built.
* `Supplies.foldl` — a loop over prerequisites leaves none of them deferred.
* `supplies_activate`, `supplies_activatePrereqs` — the two loops, over chains of any length.
* `Supplied` — what holds when some nodes have been looked at.
* `Supplied.set`, `supplied_record`, `supplied_assessments` — one node, and all of them.
* `evaluate_supplied` — in a plan whose sources are there, no prerequisite of a node that must be
  built is deferred, and each is there or must be built.
-/

import BuildSystem.Proofs.Plan.Closure

namespace BuildSystem

open Plan

variable {options : PlanOptions} {graph : Graph} {nodes : List Node} {node : Node}
  {assessments before middle after : Assessments}

/-! ### Building deferred nodes after all -/

/-- A node must be built, or is missing and waits. -/
def Assessment.Noticed (assessment : Assessment) : Prop :=
  assessment.mustBuild = true ∨ assessment.deferred = true

/-- **Deferred nodes are built after all, together with what they need**: nothing new waits, nothing
is forgotten, and what must be built now and did not before finds no prerequisite waiting. -/
structure Supplies (graph : Graph) (before after : Assessments) : Prop where
  defers : ∀ name, (after.of name).deferred = true → (before.of name).deferred = true
  notices : ∀ name, (before.of name).Noticed → (after.of name).Noticed
  fresh : ∀ own ∈ graph.nodes, (after.of own.name).mustBuild = true →
    (before.of own.name).mustBuild = true ∨
      ∀ prereq ∈ own.prereqs, (after.of prereq).deferred = false

namespace Supplies

/-- What does not wait does not wait later. -/
theorem active (supplies : Supplies graph before after) {name : String}
    (early : (before.of name).deferred = false) : (after.of name).deferred = false := by
  refine Bool.eq_false_iff.mpr fun waits => ?_
  rw [supplies.defers name waits] at early
  cases early

theorem refl (graph : Graph) (assessments : Assessments) :
    Supplies graph assessments assessments where
  defers := fun _ => id
  notices := fun _ => id
  fresh := fun _ _ => Or.inl

theorem trans (first : Supplies graph before middle) (second : Supplies graph middle after) :
    Supplies graph before after where
  defers := fun name waits => first.defers name (second.defers name waits)
  notices := fun name noticed => second.notices name (first.notices name noticed)
  fresh := by
    intro own member stale
    rcases second.fresh own member stale with early | supplied
    · exact (first.fresh own member early).imp_right fun supplied prereq needed =>
        second.active (supplied prereq needed)
    · exact Or.inr supplied

/-- Other changes of what is known do not matter. -/
theorem note (graph : Graph) (assessments : Assessments) (name : String) (newer : List String) :
    Supplies graph assessments (assessments.set name { assessments.of name with newer }) := by
  have same : ∀ other,
      (Assessments.of (assessments.set name { assessments.of name with newer }) other).mustBuild =
        (assessments.of other).mustBuild ∧
      (Assessments.of (assessments.set name { assessments.of name with newer }) other).deferred =
        (assessments.of other).deferred := by
    intro other
    rw [Assessments.of_set]
    split
    · next equal => exact equal ▸ ⟨rfl, rfl⟩
    · exact ⟨rfl, rfl⟩
  refine ⟨fun other waits => (same other).2 ▸ waits, fun other noticed => ?_,
    fun own _ stale => Or.inl ((same own.name).1 ▸ stale)⟩
  unfold Assessment.Noticed at noticed ⊢
  rw [(same other).1, (same other).2]
  exact noticed

/-- A loop each step of which takes care of one prerequisite leaves none of them waiting. -/
theorem foldl {step : Assessments → String → Assessments} {prereqs : List String}
    (steps : ∀ prereq ∈ prereqs, ∀ middle : Assessments, Supplies graph middle (step middle prereq) ∧
      ((step middle prereq).of prereq).deferred = false) (before : Assessments) :
    Supplies graph before (prereqs.foldl step before) ∧
      ∀ prereq ∈ prereqs, ((prereqs.foldl step before).of prereq).deferred = false := by
  induction prereqs generalizing before with
  | nil => exact ⟨.refl graph before, by simp⟩
  | cons prereq rest ih =>
    obtain ⟨first, activeFirst⟩ := steps prereq List.mem_cons_self before
    obtain ⟨later, activeLater⟩ :=
      ih (fun other member => steps other (List.mem_cons_of_mem prereq member)) (step before prereq)
    refine ⟨first.trans later, fun other listed => ?_⟩
    rcases List.mem_cons.mp listed with rfl | listed
    · exact later.active activeFirst
    · exact activeLater other listed

/-- A deferred node is to be built, and then none of its prerequisites waits any more. -/
theorem of_set (arranged : Arranged graph.nodes) {own : Node} (member : own ∈ graph.nodes)
    {entry : Assessment} (builds : entry.mustBuild = true) (active : entry.deferred = false)
    (supplies : Supplies graph (before.set own.name entry) after)
    (supplied : ∀ prereq ∈ own.prereqs, (after.of prereq).deferred = false) :
    Supplies graph before after where
  defers := by
    intro name waits
    have early := supplies.defers name waits
    rw [Assessments.of_set] at early
    split at early
    · rw [active] at early
      cases early
    · exact early
  notices := by
    intro name noticed
    refine supplies.notices name ?_
    rw [Assessments.of_set]
    split
    · exact Or.inl builds
    · exact noticed
  fresh := by
    intro other among stale
    rcases supplies.fresh other among stale with early | done
    · rw [Assessments.of_set] at early
      split at early
      · next same =>
        rw [arranged.eq_of_name among member same]
        exact Or.inr supplied
      · exact Or.inl early
    · exact Or.inr done

end Supplies

/-- **Building one deferred node after all reaches everything that it needs**: its prerequisites
stand before it, so a path that leads on from it is no longer than what stands there. -/
theorem supplies_activate (arranged : Arranged graph.nodes) {depth : Nat} {own : Node}
    {earlier later : List Node} (split : graph.nodes = earlier ++ own :: later)
    (deep : earlier.length < depth) (target : String) (before : Assessments) :
    Supplies graph before (activate graph depth target own.name before) ∧
      ((activate graph depth target own.name before).of own.name).deferred = false := by
  induction depth generalizing own earlier later target before with
  | zero => exact absurd deep (Nat.not_lt_zero _)
  | succ depth ih =>
    have member : own ∈ graph.nodes := by simp [split]
    unfold activate
    rw [arranged.node?_eq member]
    dsimp only
    have step : ∀ prereq ∈ own.uniquePrereqs, ∀ middle : Assessments,
        Supplies graph middle (if (middle.of prereq).deferred then
            activate graph depth own.name prereq middle else middle) ∧
          (Assessments.of (if (middle.of prereq).deferred then
            activate graph depth own.name prereq middle else middle) prereq).deferred = false := by
      intro prereq listed middle
      by_cases waits : (middle.of prereq).deferred = true
      · rw [if_pos waits]
        obtain ⟨other, among, rfl⟩ := mem_nodeNames.mp
          (arranged.behind earlier own later split prereq (mem_distinct.mp listed))
        obtain ⟨front, back, rfl⟩ := List.append_of_mem among
        have shifted : graph.nodes = front ++ other :: (back ++ own :: later) := by simp [split]
        refine ih shifted ?_ own.name middle
        rw [List.length_append, List.length_cons] at deep
        omega
      · rw [if_neg waits]
        exact ⟨.refl graph middle, Bool.eq_false_iff.mpr waits⟩
    obtain ⟨supplies, supplied⟩ := Supplies.foldl step (before.set own.name {
      time := none
      mustBuild := true
      reasons := [.needed target]
      newer := own.uniquePrereqs })
    refine ⟨supplies.of_set arranged member rfl rfl fun prereq needed =>
      supplied prereq (mem_distinct.mpr needed), supplies.active ?_⟩
    rw [Assessments.of_set_self]

/-- Building the deferred prerequisites of a node after all leaves none of them waiting. -/
theorem supplies_activatePrereqs (arranged : Arranged graph.nodes) (member : node ∈ graph.nodes)
    (before : Assessments) :
    Supplies graph before (activatePrereqs graph node before) ∧
      ∀ prereq ∈ node.prereqs,
        ((activatePrereqs graph node before).of prereq).deferred = false := by
  unfold activatePrereqs
  refine (Supplies.foldl (fun prereq listed middle => ?_) before).imp_right
    fun supplied prereq needed => supplied prereq (mem_distinct.mpr needed)
  by_cases waits : (middle.of prereq).deferred = true
  · obtain ⟨other, among, rfl⟩ := arranged.closed member (mem_distinct.mp listed)
    obtain ⟨front, back, split⟩ := List.append_of_mem among
    have deep : front.length < graph.nodes.length := by
      rw [split, List.length_append, List.length_cons]
      omega
    obtain ⟨supplies, active⟩ := supplies_activate arranged split deep node.name middle
    rw [if_pos waits]
    have noted := Supplies.note graph (activate graph graph.nodes.length node.name other.name middle)
      node.name
    exact ⟨supplies.trans (noted _), (noted _).active active⟩
  · rw [if_neg waits]
    exact ⟨.refl graph middle, Bool.eq_false_iff.mpr waits⟩

/-! ### Looking at nodes -/

/-- **What holds when some nodes have been looked at**: no prerequisite of one that must be built
waits, and each of them is a source, is there, must be built or waits. -/
structure Supplied (seen : Observation) (nodes : List Node) (assessments : Assessments) :
    Prop where
  inputs : ∀ node ∈ nodes, (assessments.of node.name).mustBuild = true →
    ∀ prereq ∈ node.prereqs, (assessments.of prereq).deferred = false
  accounted : ∀ node ∈ nodes, node.isSource = true ∨ seen.modified node.name ≠ none ∨
    (assessments.of node.name).Noticed

namespace Supplied

variable {seen : Observation}

theorem nil (seen : Observation) : Supplied seen [] [] where
  inputs := by simp
  accounted := by simp

/-- One more node has been looked at. -/
theorem set (supplied : Supplied seen nodes before) (arranged : Arranged graph.nodes)
    (part : nodes ++ [node] <+: graph.nodes) {entry : Assessment}
    (known : node.isSource = true ∨ seen.modified node.name ≠ none ∨ entry.Noticed)
    (supplies : Supplies graph (before.set node.name entry) after)
    (own : (after.of node.name).mustBuild = true →
      ∀ prereq ∈ node.prereqs, (after.of prereq).deferred = false) :
    Supplied seen (nodes ++ [node]) after := by
  obtain ⟨rest, whole⟩ := part
  have initial : Arranged (nodes ++ [node]) := Arranged.of_append (whole ▸ arranged)
  refine ⟨fun other member stale => ?_, fun other member => ?_⟩
  · rcases List.mem_append.mp member with early | last
    · have among : other ∈ graph.nodes := whole ▸ List.mem_append_left rest member
      rcases supplies.fresh other among stale with before | done
      · intro prereq needed
        rw [Assessments.of_set_of_ne _ _ (initial.ne_last early)] at before
        refine supplies.active ?_
        rw [Assessments.of_set_of_ne _ _ (initial.prereq_ne_last member needed)]
        exact supplied.inputs other early before prereq needed
      · exact done
    · obtain rfl := List.mem_singleton.mp last
      exact own stale
  · rcases List.mem_append.mp member with early | last
    · refine (supplied.accounted other early).imp_right (Or.imp_right fun noticed => ?_)
      refine supplies.notices other.name ?_
      rw [Assessments.of_set_of_ne _ _ (initial.ne_last early)]
      exact noticed
    · obtain rfl := List.mem_singleton.mp last
      refine known.imp_right (Or.imp_right fun noticed => supplies.notices other.name ?_)
      rw [Assessments.of_set_self]
      exact noticed

end Supplied

/-- A node that has no reason to be built is there. -/
theorem modified_ne_none_of_idle {seen : Observation}
    (idle : (seen.findings options assessments node).reasons = []) :
    seen.modified node.name ≠ none := by
  rw [seen.reasons_findings, List.append_eq_nil_iff] at idle
  have none := mt ownReasons_ne_nil_iff.mpr (not_not.mpr idle.1)
  push Not at none
  obtain ⟨_, real, _, there⟩ := none
  intro absent
  have recorded : seen.recorded node = none := by
    unfold Observation.recorded
    rw [absent, ite_self]
  exact there recorded (Bool.eq_false_iff.mpr real)

/-- What is recorded of a node keeps what is known about the nodes before it. -/
theorem supplied_record {seen : Observation} (supplied : Supplied seen nodes assessments)
    (arranged : Arranged graph.nodes) (part : nodes ++ [node] <+: graph.nodes) :
    Supplied seen (nodes ++ [node]) (record options graph assessments node (seen.recorded node)
      (seen.findings options assessments node)) := by
  have member : node ∈ graph.nodes := part.subset (by simp)
  unfold record
  dsimp only
  by_cases waits : defers options node (seen.findings options assessments node) = true
  · rw [if_pos waits]
    refine supplied.set arranged part (Or.inr (Or.inr (Or.inr rfl))) (.refl graph _)
      fun stale => ?_
    rw [Assessments.of_set_self] at stale
    cases stale
  · rw [if_neg waits]
    by_cases idle : (seen.findings options assessments node).reasons = []
    · rw [if_pos (List.isEmpty_iff.mpr idle)]
      refine supplied.set arranged part (Or.inr (Or.inl (modified_ne_none_of_idle idle)))
        (.refl graph _) fun stale => ?_
      rw [Assessments.of_set_self, idle] at stale
      cases stale
    · rw [if_neg (mt List.isEmpty_iff.mp idle)]
      obtain ⟨supplies, active⟩ := supplies_activatePrereqs arranged member _
      refine supplied.set arranged part (Or.inr (Or.inr (Or.inl ?_))) supplies fun _ => active
      simpa using idle

/-- When all nodes have been looked at, nothing that is needed is withheld, whatever was
observed. -/
theorem supplied_assessments (seen : Observation) (options : PlanOptions)
    (arranged : Arranged graph.nodes)
    (bare : ∀ node ∈ graph.nodes, node.isSource = true → node.prereqs = []) :
    Supplied seen graph.nodes (seen.assessments options graph) := by
  refine seen.assessments_along (Supplied.nil seen) ?_
  intro nodes node rest assessments split supplied
  have part : nodes ++ [node] <+: graph.nodes := ⟨rest, by simp [split]⟩
  unfold Observation.assess
  by_cases source : node.isSource = true
  · rw [if_pos source]
    refine supplied.set arranged part (Or.inl source) (.refl graph _) fun _ prereq needed => ?_
    rw [bare node (by simp [split]) source] at needed
    cases needed
  · rw [if_neg source]
    exact supplied_record supplied arranged part

/-! ### Plans -/

variable {σ : Type} {host : Host σ} {console : Console} {rules : RuleSet}
  {available : String → Bool} {targets : List String} {usual : σ → Prop}

/-- **Nothing that is needed is withheld**: if every file without a rule is there, a plan is made in
which no prerequisite of a node that must be built is deferred, and each of them must be built or is
there.  Whatever comparators answer, and also if everything is forced or missing files may wait; the
only failures are those of comparators' commands. -/
theorem evaluate_supplied {modified : String → Option Int} {before : σ}
    (built : (Graph.build rules available targets).1 = .ok graph)
    (watched : Watched host options.shell graph usual)
    (times : ∀ state, usual state → ∀ node ∈ graph.nodes,
      host.modified node.name state = modified node.name)
    (present : ∀ node ∈ graph.nodes, node.isSource = true → modified node.name ≠ none)
    (start : usual before) :
    Ends (fun plan _ => plan.graph = graph ∧
        ∀ node ∈ graph.nodes, (plan.assessment node.name).mustBuild = true →
          ∀ prereq ∈ node.prereqs, (plan.assessment prereq).deferred = false ∧
            ((plan.assessment prereq).mustBuild = true ∨ modified prereq ≠ none))
      (ComparatorRaises host options.shell graph usual)
      (evaluate host console options graph before) := by
  have arranged := build_arranged built
  refine (watched.ends_evaluate arranged start).imp ?_
  rintro _ _ ⟨-, seen, shown, rfl⟩
  have supplied := supplied_assessments seen options arranged
    fun node member source => (build_source built node member source).1
  refine ⟨rfl, fun node member stale prereq needed => ?_⟩
  have active : ((seen.assessments options graph).of prereq).deferred = false :=
    supplied.inputs node member stale prereq needed
  refine ⟨active, ?_⟩
  obtain ⟨own, among, rfl⟩ := arranged.closed member needed
  have observed : seen.modified own.name = modified own.name := by
    obtain ⟨state, reached, time⟩ := shown.times own among
    exact time.trans (times state reached own among)
  rcases supplied.accounted own among with source | there | stale | waits
  · exact Or.inr (present own among source)
  · exact Or.inr (observed ▸ there)
  · exact Or.inl stale
  · rw [active] at waits
    cases waits

/-- The world of the generated source, apart from what has been printed. -/
def Unchanged (world : World) : Prop :=
  ∃ printed, world = { parserWorld with printed }

/-- Missing files may wait. -/
def waiting : PlanOptions where
  ignoreMissing := true

/-- There nobody is asked, and printing changes no file. -/
theorem watched_parserGraph : Watched World.host waiting.shell parserGraph Unchanged where
  printing := by
    rintro _ ⟨printed, rfl⟩ piece
    exact ⟨printed ++ [piece], rfl⟩
  asking := by
    intro node member comparator compares
    simp only [parserGraph, List.mem_cons, List.not_mem_nil, or_false] at member
    rcases member with rfl | rfl | rfl | rfl <;> cases compares

theorem evaluate_supplied_parserGraph :
    (Graph.build parserRules (· = "parser.y") ["check", "print"]).1 = .ok parserGraph ∧
    (∀ node ∈ parserGraph.nodes, node.isSource = true →
      World.host.modified node.name parserWorld ≠ none) ∧
    Ends (fun plan _ => plan.graph = parserGraph ∧
        ∀ node ∈ parserGraph.nodes, (plan.assessment node.name).mustBuild = true →
          ∀ prereq ∈ node.prereqs, (plan.assessment prereq).deferred = false ∧
            ((plan.assessment prereq).mustBuild = true ∨
              World.host.modified prereq parserWorld ≠ none))
      (ComparatorRaises World.host waiting.shell parserGraph Unchanged)
      (evaluate World.host {} waiting parserGraph parserWorld) := by
  have times : ∀ world, Unchanged world → ∀ node ∈ parserGraph.nodes,
      World.host.modified node.name world = World.host.modified node.name parserWorld := by
    rintro _ ⟨printed, rfl⟩ node _
    rfl
  have present : ∀ node ∈ parserGraph.nodes, node.isSource = true →
      World.host.modified node.name parserWorld ≠ none := by
    decide
  have start : Unchanged parserWorld := ⟨[], rfl⟩
  exact ⟨build_parserRules, present,
    evaluate_supplied build_parserRules watched_parserGraph times present start⟩

end BuildSystem
