/-
**What needs something that must be built must be built too.**

With one exception.  A missing file that waits is built after all when a target that must be built
needs it.  Targets that need the file too and stand behind that one must then be built as well, but
those that stand before it have been looked at already, and they are not looked at again.

* `Woken`, `woken_or_same` — building deferred nodes after all changes nothing else than deferred
  nodes that are needed.
* `Belated` — a prerequisite that was built after all when the node that needs it had been looked at.
* `Closed` — what holds when some nodes have been looked at.
* `Closed.set`, `Closed.wakes` — looking at one more node keeps it.
* `stale_closed` — so in every plan that is made, a node one of whose prerequisites must be built
  must be built and is not counted as made, unless the prerequisite is belated.
* `not_stale_closed` — and there are plans with belated prerequisites.
-/

import BuildSystem.Proofs.Plan.Observed
import BuildSystem.Proofs.Plan.Upward
import BuildSystem.Proofs.Schedule.Statuses

namespace BuildSystem

open Plan

variable {options : PlanOptions} {graph : Graph} {nodes : List Node} {node : Node}
  {assessments before after : Assessments} {root : String}

/-! ### What is built after all -/

/-- **A node was deferred and is built after all**, because `root` must be built and leads to it. -/
structure Woken (graph : Graph) (root : String) (before after : Assessments) (name : String) :
    Prop where
  waited : (before.of name).deferred = true
  active : (after.of name).deferred = false
  needed : ∃ target, (after.of name).reasons = [.needed target]
  leads : Relation.TransGen graph.Leads root name
  rootStale : (after.of root).mustBuild = true

/-- **Nothing else changes than what is woken.** -/
theorem woken_or_same (wakes : Relation.ReflTransGen (Wakes graph root) before after)
    (name : String) :
    Woken graph root before after name ∨
      ((after.of name).mustBuild = (before.of name).mustBuild ∧
        (after.of name).deferred = (before.of name).deferred ∧
        (after.of name).reasons = (before.of name).reasons) := by
  induction wakes with
  | refl => exact Or.inr ⟨rfl, rfl, rfl⟩
  | @tail middle after _ step ih =>
    have stays : (middle.of root).mustBuild = true → (after.of root).mustBuild = true := step.keeps
    cases step with
    | @wake node other newer member leads rootStale stale needed deferred =>
      rw [Assessments.of_set]
      by_cases same : name = other
      · subst same
        rw [if_pos rfl]
        -- What is deferred now was deferred at the start, as nothing woken is.
        have waited : (before.of name).deferred = true := by
          rcases ih with woken | ⟨_, unchanged, _⟩
          · exact woken.waited
          · exact unchanged ▸ deferred
        refine Or.inl ⟨waited, ?_, ⟨node.name, ?_⟩, ?_, stays rootStale⟩
        · rw [Assessments.of_set_self]
        · rw [Assessments.of_set_self]
        · exact Relation.TransGen.tail' leads ⟨node, member, rfl, needed⟩
      · rw [if_neg same]
        refine ih.imp_left fun woken => ⟨woken.waited, ?_, ?_, woken.leads, stays rootStale⟩
        · rw [middle.of_set_of_ne _ same]
          exact woken.active
        · rw [middle.of_set_of_ne _ same]
          exact woken.needed
    | @note other newer =>
      have same : (Assessments.of (middle.set other { middle.of other with newer }) name).mustBuild =
            (middle.of name).mustBuild ∧
          (Assessments.of (middle.set other { middle.of other with newer }) name).deferred =
            (middle.of name).deferred ∧
          (Assessments.of (middle.set other { middle.of other with newer }) name).reasons =
            (middle.of name).reasons := by
        rw [Assessments.of_set]
        split
        · next equal => exact equal ▸ ⟨rfl, rfl, rfl⟩
        · exact ⟨rfl, rfl, rfl⟩
      obtain ⟨builds, waits, reasons⟩ := same
      rw [builds, waits, reasons]
      refine ih.imp_left fun woken =>
        ⟨woken.waited, waits.trans woken.active, ?_, woken.leads, stays woken.rootStale⟩
      rw [reasons]
      exact woken.needed

/-! ### Looking at nodes -/

/-- **A prerequisite that was built after all when the node that needs it had been looked at**: the
prerequisite is an intermediate file, it must be built only because some target needs it, and a node
that must be built and leads to it stands behind the node. -/
structure Belated (graph : Graph) (nodes : List Node) (assessments : Assessments) (node : Node)
    (prereq : String) : Prop where
  intermediate : ∃ own ∈ nodes, own.name = prereq ∧ own.intermediate = true
  needed : ∃ target, (assessments.of prereq).reasons = [.needed target]
  later : ∃ earlier cause rest, nodes = earlier ++ cause :: rest ∧ node ∈ earlier ∧
    (assessments.of cause.name).mustBuild = true ∧ Relation.TransGen graph.Leads cause.name prereq

/-- **What holds when some nodes have been looked at**: only intermediate files are deferred, and
only on request, and a node must be built if one of its prerequisites must, unless it is belated. -/
structure Closed (options : PlanOptions) (graph : Graph) (nodes : List Node)
    (assessments : Assessments) : Prop where
  waiting : ∀ name, (assessments.of name).deferred = true →
    options.ignoreMissing = true ∧ ∃ own ∈ nodes, own.name = name ∧ own.intermediate = true
  above : ∀ node ∈ nodes, ∀ prereq ∈ node.prereqs, (assessments.of prereq).mustBuild = true →
    (assessments.of node.name).mustBuild = true ∨
      options.ignoreMissing = true ∧ Belated graph nodes assessments node prereq

namespace Closed

theorem nil : Closed options graph [] [] where
  waiting := fun name deferred => by cases deferred
  above := fun node member => by cases member

/-- One more node has been looked at. -/
theorem set (closed : Closed options graph nodes assessments)
    (arranged : Arranged (nodes ++ [node])) {entry : Assessment}
    (passes : ∀ prereq ∈ node.prereqs, (assessments.of prereq).mustBuild = true →
      entry.mustBuild = true)
    (waits : entry.deferred = true → options.ignoreMissing = true ∧ node.intermediate = true) :
    Closed options graph (nodes ++ [node]) (assessments.set node.name entry) := by
  have last : node ∈ nodes ++ [node] := List.mem_append_right _ (List.mem_singleton_self node)
  have others : ∀ name, name ≠ node.name →
      Assessments.of (assessments.set node.name entry) name = assessments.of name :=
    fun _ => assessments.of_set_of_ne entry
  refine ⟨fun name deferred => ?_, fun other member prereq needed stale => ?_⟩
  · by_cases same : name = node.name
    · rw [same, Assessments.of_set_self] at deferred
      obtain ⟨ignores, intermediate⟩ := waits deferred
      exact ⟨ignores, node, last, same.symm, intermediate⟩
    · rw [others name same] at deferred
      obtain ⟨ignores, own, ownMember, found⟩ := closed.waiting name deferred
      exact ⟨ignores, own, List.mem_append_left _ ownMember, found⟩
  · have differ : prereq ≠ node.name := arranged.prereq_ne_last member needed
    rw [others prereq differ] at stale
    rcases List.mem_append.mp member with old | new
    · rw [others other.name (arranged.ne_last old)]
      refine (closed.above other old prereq needed stale).imp_right ?_
      rintro ⟨ignores, ⟨own, ownMember, found⟩, reasons, earlier, cause, rest, split, early,
        causeStale, leads⟩
      have causeMember : cause ∈ nodes := by simp [split]
      refine ⟨ignores, ⟨own, List.mem_append_left _ ownMember, found⟩, ?_, earlier, cause,
        rest ++ [node], by simp [split], early, ?_, leads⟩
      · rw [others prereq differ]
        exact reasons
      · rw [others cause.name (arranged.ne_last causeMember)]
        exact causeStale
    · obtain rfl := List.mem_singleton.mp new
      rw [Assessments.of_set_self]
      exact Or.inl (passes prereq needed stale)

/-- Deferred nodes are built after all because of the last node.  Those that need them and stand
before it are belated. -/
theorem wakes (closed : Closed options graph (nodes ++ [node]) before)
    (wakes : Relation.ReflTransGen (Wakes graph node.name) before after) :
    Closed options graph (nodes ++ [node]) after := by
  refine ⟨fun name deferred => ?_, fun other member prereq needed stale => ?_⟩
  · rcases woken_or_same wakes name with woken | ⟨_, unchanged, _⟩
    · rw [woken.active] at deferred
      cases deferred
    · exact closed.waiting name (unchanged ▸ deferred)
  · rcases woken_or_same wakes prereq with woken | ⟨unchanged, _, reasons⟩
    · obtain ⟨ignores, intermediate⟩ := closed.waiting prereq woken.waited
      rcases List.mem_append.mp member with old | last
      · exact Or.inr ⟨ignores, intermediate, woken.needed, nodes, node, [], rfl, old,
          woken.rootStale, woken.leads⟩
      · obtain rfl := List.mem_singleton.mp last
        exact Or.inl woken.rootStale
    · refine (closed.above other member prereq needed (unchanged ▸ stale)).imp
        (fun early => Wakes.keeps_all wakes early) ?_
      rintro ⟨ignores, intermediate, found, earlier, cause, rest, split, early, causeStale, leads⟩
      refine ⟨ignores, intermediate, ?_, earlier, cause, rest, split, early,
        Wakes.keeps_all wakes causeStale, leads⟩
      rw [reasons]
      exact found

end Closed

/-- When all nodes have been looked at, what must be built is closed, whatever was observed. -/
theorem closed_assessments (seen : Observation) (options : PlanOptions)
    (arranged : Arranged graph.nodes)
    (bare : ∀ node ∈ graph.nodes, node.isSource = true → node.prereqs = []) :
    Closed options graph graph.nodes (seen.assessments options graph) := by
  refine seen.assessments_along Closed.nil ?_
  intro nodes node rest assessments split closed
  have member : node ∈ graph.nodes := by simp [split]
  have initial := arranged.upTo split
  unfold Observation.assess
  by_cases source : node.isSource = true
  · rw [if_pos source]
    refine closed.set initial (fun prereq needed => ?_) fun deferred => (by cases deferred)
    rw [bare node member source] at needed
    cases needed
  · rw [if_neg source]
    obtain ⟨entry, passes, waits, wakes⟩ :=
      record_wakes seen options assessments arranged member
    exact (closed.set initial passes waits).wakes wakes

/-! ### Plans -/

variable {σ : Type} {host : Host σ} {console : Console} {rules : RuleSet}
  {available : String → Bool} {targets : List String} {plan : Plan}

/-- **A node must be built if one of its prerequisites must, and then it is not counted as made**,
whatever happens while the plan is made.  The exception are belated prerequisites, which there are
only if missing files may wait. -/
theorem stale_closed {early late : σ}
    (built : (Graph.build rules available targets).1 = .ok plan.graph)
    (evaluated : evaluate host console options plan.graph early = .ok plan late) :
    ∀ node ∈ plan.graph.nodes, ∀ prereq ∈ node.prereqs,
      (plan.assessment prereq).mustBuild = true →
        ((plan.assessment node.name).mustBuild = true ∧
          Schedule.startStatus plan node = .pending) ∨
        options.ignoreMissing = true ∧
          Belated plan.graph plan.graph.nodes plan.assessments node prereq := by
  intro node member prereq needed stale
  have arranged := build_arranged built
  have bare : ∀ node ∈ plan.graph.nodes, node.isSource = true → node.prereqs = [] :=
    fun node member source => (build_source built node member source).1
  obtain ⟨seen, planned⟩ := evaluate_observed arranged evaluated
  have closed : Closed options plan.graph plan.graph.nodes plan.assessments := by
    rw [show plan.assessments = seen.assessments options plan.graph from
      congrArg Plan.assessments planned]
    exact closed_assessments seen options arranged bare
  refine (closed.above node member prereq needed stale).imp_left fun own => ⟨own, ?_⟩
  refine (Schedule.startStatus_eq_pending_iff plan node).mpr ⟨Bool.eq_false_iff.mpr ?_, own⟩
  intro source
  rw [bare node member source] at needed
  cases needed

/-! ### A generated source that two programs need -/

/-- A world in which the first program is there, and neither the second one nor the source that is
generated. -/
def parserWorld : World where
  files := [("parser.y", { time := 10 }), ("check", { time := 20 })]

/-- What is known about both programs in that world, if missing files may wait: the source waits,
the first program is newer than the grammar, and then the second one needs the source. -/
def parserPlan : Plan where
  graph := parserGraph
  assessments := [
    ("parser.y", { time := some 10 }),
    ("parser.c", { mustBuild := true, reasons := [.needed "print"], newer := ["parser.y"] }),
    ("check", { time := some 20 }),
    ("print", { mustBuild := true, reasons := [.missing], newer := ["parser.c"] })]

theorem evaluate_parserGraph :
    evaluate World.host {} { ignoreMissing := true } parserGraph parserWorld =
      .ok parserPlan parserWorld := by
  rfl

theorem stale_closed_parserPlan :
    (Graph.build parserRules (· = "parser.y") ["check", "print"]).1 = .ok parserPlan.graph ∧
    evaluate World.host {} { ignoreMissing := true } parserPlan.graph parserWorld =
      .ok parserPlan parserWorld ∧
    ∀ node ∈ parserPlan.graph.nodes, ∀ prereq ∈ node.prereqs,
      (parserPlan.assessment prereq).mustBuild = true →
        ((parserPlan.assessment node.name).mustBuild = true ∧
          Schedule.startStatus parserPlan node = .pending) ∨
        true = true ∧
          Belated parserPlan.graph parserPlan.graph.nodes parserPlan.assessments node prereq := by
  have built : (Graph.build parserRules (· = "parser.y") ["check", "print"]).1 =
      .ok parserPlan.graph := build_parserRules
  have evaluated : evaluate World.host {} { ignoreMissing := true } parserPlan.graph parserWorld =
      .ok parserPlan parserWorld := evaluate_parserGraph
  exact ⟨built, evaluated, stale_closed built evaluated⟩

/-- **What must be built is not always closed upwards**: the first program is counted as made, and
its only prerequisite is still to be built. -/
theorem not_stale_closed :
    ¬ ∀ (rules : RuleSet) (available : String → Bool) (targets : List String)
      (host : Host World) (console : Console) (options : PlanOptions) (plan : Plan)
      (early late : World),
      (Graph.build rules available targets).1 = .ok plan.graph →
      evaluate host console options plan.graph early = .ok plan late →
        ∀ node ∈ plan.graph.nodes, ∀ prereq ∈ node.prereqs,
          (plan.assessment prereq).mustBuild = true →
            (plan.assessment node.name).mustBuild = true := by
  intro closed
  have listed : parserNode "check" 1 ∈ parserPlan.graph.nodes := by
    simp [parserPlan, parserGraph]
  have needed : "parser.c" ∈ (parserNode "check" 1).prereqs := List.mem_singleton_self "parser.c"
  have marked : (parserPlan.assessment "check").mustBuild = true :=
    closed parserRules (· = "parser.y") ["check", "print"] World.host {} { ignoreMissing := true }
      parserPlan parserWorld parserWorld build_parserRules evaluate_parserGraph
      (parserNode "check" 1) listed "parser.c" needed rfl
  cases marked

end BuildSystem
