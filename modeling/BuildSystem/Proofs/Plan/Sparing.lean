/-
**Letting missing files wait only spares work.**

Two plans are made for one graph, and missing intermediate files may wait in one of them only.  A
file that waits stands in with a time that the other plan does not know, and a comparator may be
asked about it; but in the other plan it must be built, and so must everything above it.

* `Lacking`, `lacking_of_defers` — a missing intermediate file; only such files wait.
* `Exact.stale_of_reason` — a reason that is found where files may wait is one for the other plan
  too.
* `Exact.reason_of_stale` — and the other way round, unless a missing intermediate file is below.
* `Lenient` — what holds when some nodes have been looked at, compared with a whole plan in which no
  file may wait.
* `Lenient.set`, `Lenient.wakes`, `lenient_assessments` — one node, building files after all, and
  all nodes.
* `waiting_only_spares` — nothing must be built that would not have to be built otherwise, and
  whatever is spared leads to a missing intermediate file.
-/

import BuildSystem.Proofs.Plan.Supply

namespace BuildSystem

open Plan

/-- **A missing intermediate file.** -/
structure Lacking (seen : Observation) (node : Node) : Prop where
  intermediate : node.intermediate = true
  ruled : node.isSource = false
  real : node.isVirtual = false
  absent : seen.modified node.name = none

variable {seen : Observation} {options : PlanOptions} {graph : Graph} {nodes : List Node}
  {node : Node} {strict assessments before after : Assessments}

/-- A node that leads to a missing intermediate file, or is one. -/
def LeadsToLacking (seen : Observation) (graph : Graph) (node : Node) : Prop :=
  ∃ other, Relation.ReflTransGen graph.Needs node other ∧ Lacking seen other

/-- A missing intermediate file is out of date by itself. -/
theorem Lacking.stale {forceAll : Bool} (lacking : Lacking seen node)
    (exact : Exact seen forceAll graph graph.nodes strict) (member : node ∈ graph.nodes) :
    (strict.of node.name).mustBuild = true :=
  (exact.stale node member).mpr
    ⟨lacking.ruled, Or.inl (.missing lacking.real lacking.absent)⟩

/-- That a file is missing is a reason exactly if it is one of which no time is recorded. -/
theorem missing_mem_reasons_iff :
    Reason.missing ∈ (seen.findings options assessments node).reasons ↔
      seen.recorded node = none ∧ node.isVirtual = false := by
  have below : Reason.missing ∉ node.uniquePrereqs.filterMap fun prereq =>
      reasonFor node (seen.recorded node) prereq (assessments.of prereq)
        (seen.differs node.name prereq) := by
    rw [List.mem_filterMap]
    rintro ⟨prereq, _, reason⟩
    unfold reasonFor at reason
    grind
  rw [seen.reasons_findings, List.mem_append, or_iff_left below]
  simp [ownReasons]

/-- A file that waits is missing. -/
theorem lacking_of_defers (ruled : node.isSource = false)
    (waits : defers options node (seen.findings options assessments node) = true) :
    Lacking seen node := by
  unfold defers at waits
  simp only [Bool.and_eq_true, decide_eq_true_iff] at waits
  obtain ⟨⟨missing, _⟩, intermediate⟩ := waits
  have listed : Reason.missing ∈ (seen.findings options assessments node).reasons := by
    rw [missing]
    exact List.mem_singleton_self _
  obtain ⟨absent, real⟩ := missing_mem_reasons_iff.mp listed
  rw [Observation.recorded, if_neg (by simp [real])] at absent
  exact ⟨intermediate, ruled, real, absent⟩

/-- **What holds when some nodes have been looked at, compared with a whole plan in which no file
may wait**: what waits is missing, recorded times are those of the files, nothing else must be
built, and what is spared leads to a missing intermediate file. -/
structure Lenient (seen : Observation) (graph : Graph) (strict : Assessments) (nodes : List Node)
    (assessments : Assessments) : Prop where
  waiting : ∀ name, (assessments.of name).deferred = true →
    ∃ own ∈ nodes, own.name = name ∧ Lacking seen own
  timed : ∀ node ∈ nodes,
    (assessments.of node.name).time = seen.recorded node ∨ Lacking seen node
  spares : ∀ name, (assessments.of name).mustBuild = true → (strict.of name).mustBuild = true
  misses : ∀ node ∈ nodes, (strict.of node.name).mustBuild = true →
    (assessments.of node.name).mustBuild = true ∨ LeadsToLacking seen graph node

/-! ### The reasons of both plans -/

/-- **A reason that is found where files may wait is one for the other plan too.**  The time that
stands in for a missing file may be a reason here; there the missing file itself is one. -/
theorem Exact.stale_of_reason (exact : Exact seen options.forceAll graph graph.nodes strict)
    (arranged : Arranged graph.nodes) (lenient : Lenient seen graph strict nodes assessments)
    (member : node ∈ graph.nodes) (ruled : node.isSource = false)
    (earlier : ∀ prereq, graph.Needs node prereq → prereq ∈ nodes)
    (reason : (seen.findings options assessments node).reasons ≠ []) :
    (strict.of node.name).mustBuild = true := by
  refine (exact.stale node member).mpr ⟨ruled, ?_⟩
  rcases (exists_reason_iff fun name needed => arranged.exists_needs member needed).mp reason with
    own | ⟨prereq, needs, found⟩
  · exact Or.inl (outOfDate_iff.mpr (Or.inl own))
  · rcases reasonFor_ne_none_iff.mp found with stale | ⟨own, time, differs | ⟨uncompared, newer⟩⟩
    · exact Or.inr ⟨prereq, needs, lenient.spares prereq.name stale⟩
    · exact Or.inl (outOfDate_iff.mpr (Or.inr ⟨prereq, needs, own, time, Or.inl differs⟩))
    · rcases lenient.timed prereq (earlier prereq needs) with recorded | lacking
      · rw [recorded] at newer
        exact Or.inl (outOfDate_iff.mpr
          (Or.inr ⟨prereq, needs, own, time, Or.inr ⟨uncompared, newer⟩⟩))
      · exact Or.inr ⟨prereq, needs, lacking.stale exact needs.1⟩

/-- **And the other way round, unless a missing intermediate file is below.** -/
theorem Exact.reason_of_stale (exact : Exact seen options.forceAll graph graph.nodes strict)
    (arranged : Arranged graph.nodes) (lenient : Lenient seen graph strict nodes assessments)
    (member : node ∈ graph.nodes)
    (earlier : ∀ prereq, graph.Needs node prereq → prereq ∈ nodes)
    (stale : (strict.of node.name).mustBuild = true) :
    (seen.findings options assessments node).reasons ≠ [] ∨ LeadsToLacking seen graph node := by
  rw [exists_reason_iff fun name needed => arranged.exists_needs member needed]
  rcases ((exact.stale node member).mp stale).2 with outOfDate | ⟨prereq, needs, stalePrereq⟩
  · rcases outOfDate_iff.mp outOfDate with own | ⟨prereq, needs, own, time, differs | newer⟩
    · exact Or.inl (Or.inl own)
    · exact Or.inl (Or.inr ⟨prereq, needs,
        reasonFor_ne_none_iff.mpr (Or.inr ⟨own, time, Or.inl differs⟩)⟩)
    · rcases lenient.timed prereq (earlier prereq needs) with recorded | lacking
      · rw [← recorded] at newer
        exact Or.inl (Or.inr ⟨prereq, needs,
          reasonFor_ne_none_iff.mpr (Or.inr ⟨own, time, Or.inr newer⟩)⟩)
      · exact Or.inr ⟨prereq, .single needs, lacking⟩
  · rcases lenient.misses prereq (earlier prereq needs) stalePrereq with
      found | ⟨other, leads, lacking⟩
    · exact Or.inl (Or.inr ⟨prereq, needs, reasonFor_ne_none_iff.mpr (Or.inl found)⟩)
    · exact Or.inr ⟨other, leads.head needs, lacking⟩

/-! ### Looking at nodes -/

namespace Lenient

theorem nil : Lenient seen graph strict [] [] where
  waiting := fun name waits => by cases waits
  timed := fun node member => by cases member
  spares := fun name stale => by cases stale
  misses := fun node member => by cases member

/-- One more node has been looked at. -/
theorem set (lenient : Lenient seen graph strict nodes assessments)
    (arranged : Arranged (nodes ++ [node])) {entry : Assessment}
    (waits : entry.deferred = true → Lacking seen node)
    (timed : entry.time = seen.recorded node ∨ Lacking seen node)
    (spares : entry.mustBuild = true → (strict.of node.name).mustBuild = true)
    (misses : (strict.of node.name).mustBuild = true →
      entry.mustBuild = true ∨ LeadsToLacking seen graph node) :
    Lenient seen graph strict (nodes ++ [node]) (assessments.set node.name entry) := by
  have last : node ∈ nodes ++ [node] := List.mem_append_right _ (List.mem_singleton_self node)
  -- What is known about one of the nodes is the entry, or was known before.
  have known : ∀ (holds : Assessment → Prop) (other), other ∈ nodes ++ [node] →
      (other = node → holds entry) → (other ∈ nodes → holds (assessments.of other.name)) →
        holds (Assessments.of (assessments.set node.name entry) other.name) := by
    intro holds other member new old
    rcases List.mem_append.mp member with early | last
    · rw [assessments.of_set_of_ne entry (arranged.ne_last early)]
      exact old early
    · obtain rfl := List.mem_singleton.mp last
      rw [Assessments.of_set_self]
      exact new rfl
  refine ⟨fun name deferred => ?_, fun other member => ?_, fun name stale => ?_,
    fun other member stale => ?_⟩
  · rw [Assessments.of_set] at deferred
    split at deferred
    · next same => exact ⟨node, last, same.symm, waits deferred⟩
    · obtain ⟨own, early, found⟩ := lenient.waiting name deferred
      exact ⟨own, List.mem_append_left _ early, found⟩
  · exact known (fun found => found.time = seen.recorded other ∨ Lacking seen other) other member
      (fun same => same ▸ timed) (lenient.timed other)
  · rw [Assessments.of_set] at stale
    split at stale
    · next same => exact same ▸ spares stale
    · exact lenient.spares name stale
  · exact known (fun found => found.mustBuild = true ∨ LeadsToLacking seen graph other) other member
      (fun same => same ▸ misses (same ▸ stale)) fun early => lenient.misses other early stale

/-- Deferred nodes are built after all: each of them is missing, so it must be built anyway. -/
theorem wake {root : String} {forceAll : Bool} (lenient : Lenient seen graph strict nodes before)
    (exact : Exact seen forceAll graph graph.nodes strict) (arranged : Arranged graph.nodes)
    (part : nodes ⊆ graph.nodes) (wakes : Wakes graph root before after) :
    Lenient seen graph strict nodes after := by
  have keeps : ∀ node ∈ nodes, (strict.of node.name).mustBuild = true →
      (after.of node.name).mustBuild = true ∨ LeadsToLacking seen graph node :=
    fun node member stale => (lenient.misses node member stale).imp_left wakes.keeps
  cases wakes with
  | @wake needing name newer _ _ _ _ _ deferred =>
    obtain ⟨own, among, rfl, lacking⟩ := lenient.waiting name deferred
    refine ⟨fun other waits => ?_, fun node member => ?_, fun other stale => ?_, keeps⟩
    · rw [Assessments.of_set] at waits
      split at waits
      · cases waits
      · exact lenient.waiting other waits
    · by_cases same : node.name = own.name
      · exact Or.inr (arranged.eq_of_name (part member) (part among) same ▸ lacking)
      · rw [Assessments.of_set_of_ne _ _ same]
        exact lenient.timed node member
    · rw [Assessments.of_set] at stale
      split at stale
      · next same => exact same ▸ lacking.stale exact (part among)
      · exact lenient.spares other stale
  | @note name newer =>
    have same : ∀ other, (Assessments.of (before.set name { before.of name with newer }) other) =
        { before.of other with
          newer := if other = name then newer else (before.of other).newer } := by
      intro other
      rw [Assessments.of_set]
      split
      · next equal => rw [equal]
      · rfl
    refine ⟨fun other waits => ?_, fun node member => ?_, fun other stale => ?_, keeps⟩
    · rw [same] at waits
      exact lenient.waiting other waits
    · rw [same]
      exact lenient.timed node member
    · rw [same] at stale
      exact lenient.spares other stale

theorem wakes {root : String} {forceAll : Bool} (lenient : Lenient seen graph strict nodes before)
    (exact : Exact seen forceAll graph graph.nodes strict) (arranged : Arranged graph.nodes)
    (part : nodes ⊆ graph.nodes)
    (wakes : Relation.ReflTransGen (Wakes graph root) before after) :
    Lenient seen graph strict nodes after := by
  induction wakes with
  | refl => exact lenient
  | tail _ step ih => exact ih.wake exact arranged part step

end Lenient

/-- **When all nodes have been looked at, what must be built is compared with the plan in which no
file may wait**, whatever was observed. -/
theorem lenient_assessments (seen : Observation) (options : PlanOptions)
    (exact : Exact seen options.forceAll graph graph.nodes strict)
    (arranged : Arranged graph.nodes)
    (unmarked : ∀ node ∈ graph.nodes, node.isSource = true → node.attributes = {}) :
    Lenient seen graph strict graph.nodes (seen.assessments options graph) := by
  refine seen.assessments_along Lenient.nil ?_
  intro nodes node rest assessments split lenient
  have member : node ∈ graph.nodes := by simp [split]
  have initial := arranged.upTo split
  have earlier : ∀ prereq, graph.Needs node prereq → prereq ∈ nodes := fun prereq needs =>
    ((split ▸ arranged : Arranged (nodes ++ node :: rest)).earlier
      (List.mem_append_right _ List.mem_cons_self) (split ▸ needs.1) needs.2).1
  unfold Observation.assess
  by_cases source : node.isSource = true
  · rw [if_pos source]
    have recorded : seen.recorded node = seen.modified node.name := by
      rw [Observation.recorded, Node.isVirtual, unmarked node member source]
      rfl
    refine lenient.set initial (fun waits => by cases waits) (Or.inl recorded.symm)
      (fun stale => by cases stale) fun stale => ?_
    rw [((exact.stale node member).mp stale).1] at source
    cases source
  · rw [if_neg source]
    rw [Bool.not_eq_true] at source
    rcases record_cases options assessments (seen.recorded node)
      (seen.findings options assessments node) arranged member with
      ⟨waits, entry, _, idle, recorded⟩ | ⟨entry, active, timed, builds, wakes⟩
    · have lacking := lacking_of_defers source waits
      rw [recorded]
      refine lenient.set initial (fun _ => lacking) (Or.inr lacking) (fun stale => ?_)
        fun _ => Or.inr ⟨node, .refl, lacking⟩
      rw [idle] at stale
      cases stale
    · have looked : Lenient seen graph strict (nodes ++ [node])
          (assessments.set node.name entry) := by
        refine lenient.set initial (fun waits => ?_) (Or.inl timed)
          (fun stale => exact.stale_of_reason arranged lenient member source earlier
            (builds.mp stale))
          fun stale => (exact.reason_of_stale arranged lenient member earlier stale).imp_left
            builds.mpr
        rw [active] at waits
        cases waits
      have part : nodes ++ [node] ⊆ graph.nodes := by simp [split]
      exact looked.wakes exact arranged part wakes

/-! ### Plans -/

variable {σ : Type} {host : Host σ} {rules : RuleSet} {available : String → Bool}
  {targets : List String} {usual : σ → Prop}

/-- **Letting missing files wait only spares work**: two plans are made for a graph, and what must
be built where missing files may wait must be built where they may not.  **What is spared leads to
a missing intermediate file.**  Everything observed stays the same, and the plans may be made in
any order. -/
theorem waiting_only_spares {first second : σ}
    (built : (Graph.build rules available targets).1 = .ok graph)
    (steady : Steady host options.shell graph seen usual) (console : Console)
    (firstUsual : usual first) (secondUsual : usual second) :
    ∃ lenient strict, (∃ after, evaluate host console { options with ignoreMissing := true } graph
        first = .ok lenient after) ∧
      (∃ after, evaluate host console { options with ignoreMissing := false } graph second =
        .ok strict after) ∧
      ∀ node ∈ graph.nodes,
        ((lenient.assessment node.name).mustBuild = true →
          (strict.assessment node.name).mustBuild = true) ∧
        ((strict.assessment node.name).mustBuild = true →
          (lenient.assessment node.name).mustBuild = true ∨
            ∃ other, Relation.ReflTransGen graph.Needs node other ∧
              other.intermediate = true ∧ seen.modified other.name = none) := by
  have arranged := build_arranged built
  have unmarked : ∀ node ∈ graph.nodes, node.isSource = true → node.attributes = {} :=
    fun node member source => (build_source built node member source).2
  obtain ⟨after, _, leniently⟩ :=
    @evaluate_eq σ host { options with ignoreMissing := true } graph usual seen steady arranged
      console _ firstUsual
  obtain ⟨later, _, strictly⟩ :=
    @evaluate_eq σ host { options with ignoreMissing := false } graph usual seen steady arranged
      console _ secondUsual
  have exact : Exact seen options.forceAll graph graph.nodes
      (seen.assessments { options with ignoreMissing := false } graph) :=
    @exact_assessments seen { options with ignoreMissing := false } graph arranged unmarked rfl
  have lenient := lenient_assessments seen { options with ignoreMissing := true } exact arranged
    unmarked
  refine ⟨_, _, ⟨after, leniently⟩, ⟨later, strictly⟩, fun node member =>
    ⟨lenient.spares node.name, fun stale => (lenient.misses node member stale).imp_right ?_⟩⟩
  rintro ⟨other, leads, lacking⟩
  exact ⟨other, leads, lacking.intermediate, lacking.absent⟩

/-- In the world of the generated source nothing is compared, and printing changes no time. -/
theorem steady_parserGraph : Steady World.host waiting.shell parserGraph
    ⟨fun name => World.host.modified name parserWorld, fun _ _ => false⟩ Unchanged where
  times := by
    rintro _ ⟨printed, rfl⟩ name
    rfl
  printing := watched_parserGraph.printing
  answers := by
    intro node member comparator compares
    simp only [parserGraph, List.mem_cons, List.not_mem_nil, or_false] at member
    rcases member with rfl | rfl | rfl | rfl <;> cases compares

/-- The first program is newer than the grammar, so it is spared; the source that is generated is
missing, and it leads to it. -/
theorem waiting_only_spares_parserGraph :
    (Graph.build parserRules (· = "parser.y") ["check", "print"]).1 = .ok parserGraph ∧
    Unchanged parserWorld ∧
    ∃ lenient strict, (∃ after, evaluate World.host {} { waiting with ignoreMissing := true }
        parserGraph parserWorld = .ok lenient after) ∧
      (∃ after, evaluate World.host {} { waiting with ignoreMissing := false } parserGraph
        parserWorld = .ok strict after) ∧
      ∀ node ∈ parserGraph.nodes,
        ((lenient.assessment node.name).mustBuild = true →
          (strict.assessment node.name).mustBuild = true) ∧
        ((strict.assessment node.name).mustBuild = true →
          (lenient.assessment node.name).mustBuild = true ∨
            ∃ other, Relation.ReflTransGen parserGraph.Needs node other ∧
              other.intermediate = true ∧ World.host.modified other.name parserWorld = none) :=
  have unchanged : Unchanged parserWorld := ⟨[], rfl⟩
  ⟨build_parserRules, unchanged,
    waiting_only_spares build_parserRules steady_parserGraph {} unchanged unchanged⟩

end BuildSystem
