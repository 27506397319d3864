/-
**Every plan follows from an observation.**

A plan looks at every file once and asks a comparator about each prerequisite once.  So whatever a
host does while the plan is made, there are times and answers from which the plan follows, also if
commands change files on the way.

* `Observation.revised` — what is observed about one name does not matter for the other nodes.
* `Watched` — what printing and asking comparators keep, however comparators end.
* `Answers`, `Told`, `Shown` — what a comparator may answer, and what a host may show.
* `Watched.ends_findings`, `Watched.ends_evaluateNode` — one node.
* `Watched.ends_evaluate` — a plan is the plan of an observation that the host may show, unless a
  comparator's command raises a failure.
* `evaluate_observed` — the plan of any host is the plan of some observation.
* `Steady`, `evaluate_eq` — on a host on which everything observed stays the same a plan is made, and
  it is the plan of that observation.
-/

import BuildSystem.Proofs.Graph.Arrangement
import BuildSystem.Proofs.Plan.Evaluation

namespace BuildSystem

open Plan

variable {σ : Type} {host : Host σ} {console : Console} {options : PlanOptions} {graph : Graph}
  {usual : σ → Prop}

/-- An observation in which one name is observed as in another one. -/
def Observation.revised (seen new : Observation) (name : String) : Observation where
  modified := Function.update seen.modified name (new.modified name)
  differs := Function.update seen.differs name (new.differs name)

theorem Observation.assess_revised_self (seen new : Observation) (assessments : Assessments)
    (node : Node) : (seen.revised new node.name).assess options graph assessments node =
      new.assess options graph assessments node :=
  assess_congr (Function.update_self _ _ _)
    (fun _ _ _ _ => congrFun (Function.update_self _ _ _) _) assessments

theorem Observation.assess_revised_of_ne (seen new : Observation) (assessments : Assessments)
    {node : Node} {name : String} (differ : node.name ≠ name) :
    (seen.revised new name).assess options graph assessments node =
      seen.assess options graph assessments node :=
  assess_congr (Function.update_of_ne differ _ _)
    (fun _ _ _ _ => congrFun (Function.update_of_ne differ _ _) _) assessments

/-! ### Hosts that are watched -/

/-- **What printing and asking the comparators of a graph keep**, however the comparators end. -/
structure Watched (host : Host σ) (shell : List String) (graph : Graph) (usual : σ → Prop) :
    Prop where
  printing : ∀ state, usual state → ∀ piece, usual (host.print piece state)
  asking : ∀ node ∈ graph.nodes, ∀ comparator, node.comparator = some comparator →
    ∀ prereq ∈ node.prereqs, ∀ state, usual state →
      Ends (fun _ after => usual after) (fun _ _ => True)
        (host.attempt (shell ++ ["-c", comparison comparator node.name prereq])
          (host.environment state) state)

/-- **The command of a comparator of a graph raises a failure.** -/
def ComparatorRaises (host : Host σ) (shell : List String) (graph : Graph) (usual : σ → Prop)
    (failure : Failure) (after : σ) : Prop :=
  ∃ node ∈ graph.nodes, ∃ comparator, node.comparator = some comparator ∧
    ∃ prereq ∈ node.prereqs, ∃ before, usual before ∧
      host.attempt (shell ++ ["-c", comparison comparator node.name prereq])
        (host.environment before) before = .error failure after

/-- **A comparator answers whether a target and a prerequisite differ**: its command ends so in one
of the states. -/
def Answers (host : Host σ) (shell : List String) (usual : σ → Prop)
    (comparator target prereq : String) (answer : Bool) : Prop :=
  ∃ state completion after, usual state ∧
    host.attempt (shell ++ ["-c", comparison comparator target prereq]) (host.environment state)
      state = .ok completion after ∧ answer = (completion.exitCode != 0)

/-- **An answer that the comparator of a node gives**, if it gives any. -/
def Told (host : Host σ) (shell : List String) (usual : σ → Prop) (node : Node) (prereq : String)
    (answer : Bool) : Prop :=
  ∀ comparator, node.comparator = some comparator →
    ∀ other, Answers host shell usual comparator node.name prereq other →
      Answers host shell usual comparator node.name prereq answer

/-- **What a host may show of some nodes**: every time is that of the file in one of the states, and
every answer is one that the comparator gives in one of them. -/
structure Shown (host : Host σ) (shell : List String) (usual : σ → Prop) (nodes : List Node)
    (seen : Observation) : Prop where
  times : ∀ node ∈ nodes, ∃ state, usual state ∧
    seen.modified node.name = host.modified node.name state
  answers : ∀ node ∈ nodes, ∀ prereq,
    Told host shell usual node prereq (seen.differs node.name prereq)

/-- There is always such an answer: where no comparator gives one, any will do. -/
theorem exists_told (host : Host σ) (shell : List String) (usual : σ → Prop) (node : Node)
    (prereq : String) : ∃ answer, Told host shell usual node prereq answer := by
  by_cases answers : ∃ comparator answer, node.comparator = some comparator ∧
      Answers host shell usual comparator node.name prereq answer
  · obtain ⟨comparator, answer, compares, given⟩ := answers
    refine ⟨answer, fun other compares' _ _ => ?_⟩
    obtain rfl := Option.some.inj (compares.symm.trans compares')
    exact given
  · exact ⟨false, fun comparator compares answer given =>
      absurd ⟨comparator, answer, compares, given⟩ answers⟩

namespace Shown

variable {shell : List String} {nodes : List Node} {seen new : Observation} {node : Node}

theorem nil (seen : Observation) : Shown host shell usual [] seen where
  times := fun node member => by cases member
  answers := fun node member => by cases member

/-- One more node is observed. -/
theorem revised (shown : Shown host shell usual nodes seen)
    (others : ∀ other ∈ nodes, other.name ≠ node.name)
    (time : ∃ state, usual state ∧ new.modified node.name = host.modified node.name state)
    (told : ∀ prereq, Told host shell usual node prereq (new.differs node.name prereq)) :
    Shown host shell usual (nodes ++ [node]) (seen.revised new node.name) where
  times := by
    intro other among
    unfold Observation.revised
    dsimp only
    rcases List.mem_append.mp among with early | last
    · rw [Function.update_of_ne (others other early)]
      exact shown.times other early
    · obtain rfl := List.mem_singleton.mp last
      rw [Function.update_self]
      exact time
  answers := by
    intro other among
    unfold Observation.revised
    dsimp only
    rcases List.mem_append.mp among with early | last
    · rw [Function.update_of_ne (others other early)]
      exact shown.answers other early
    · obtain rfl := List.mem_singleton.mp last
      rw [Function.update_self]
      exact told

end Shown

namespace Watched

/-- Nothing need be kept. -/
theorem anything (host : Host σ) (shell : List String) (graph : Graph) :
    Watched host shell graph fun _ => True where
  printing := fun _ _ _ => trivial
  asking := by
    intro node _ comparator _ prereq _ state _
    cases host.attempt (shell ++ ["-c", comparison comparator node.name prereq])
      (host.environment state) state with
    | ok => exact .ok trivial
    | error => exact .error trivial

theorem prints (watched : Watched host options.shell graph usual) (pieces : List Printed)
    {state : σ} (start : usual state) :
    usual (pieces.foldl (fun current piece => host.print piece current) state) :=
  List.foldlRecOn pieces _ start fun state kept piece _ => watched.printing state kept piece

theorem ends_differs (watched : Watched host options.shell graph usual) {node : Node}
    (member : node ∈ graph.nodes) {comparator prereq : String}
    (compares : node.comparator = some comparator) (needed : prereq ∈ node.prereqs) {state : σ}
    (start : usual state) :
    Ends (fun answer after => usual after ∧
        Answers host options.shell usual comparator node.name prereq answer)
      (ComparatorRaises host options.shell graph usual)
      (differs host console options.shell comparator node.name prereq state) := by
  have asked := watched.asking node member comparator compares prereq needed state start
  unfold differs
  refine Ends.get (Ends.bind ?_)
  cases result : host.attempt (options.shell ++ ["-c", comparison comparator node.name prereq])
    (host.environment state) state with
  | ok completion after =>
    rw [result] at asked
    exact .ok (.ok ⟨watched.prints _ asked.of_ok, state, completion, after, start, result, rfl⟩)
  | error failure after =>
    exact .error ⟨node, member, comparator, compares, prereq, needed, state, start, result⟩

/-- One prerequisite: the comparator gives an answer, if it is asked. -/
theorem ends_inspect (watched : Watched host options.shell graph usual) {node : Node}
    (member : node ∈ graph.nodes) (assessments : Assessments) (time : Option Int)
    (findings : Findings) {prereq : String} (needed : prereq ∈ node.prereqs) {state : σ}
    (start : usual state) :
    Ends (fun result after => usual after ∧
        ∃ answer, Told host options.shell usual node prereq answer ∧ result =
          findings.add time prereq (reasonFor node time prereq (assessments.of prereq) answer))
      (ComparatorRaises host options.shell graph usual)
      (inspect host console options assessments node time findings prereq state) := by
  unfold inspect
  dsimp only
  cases asks : asked node time (assessments.of prereq) with
  | none =>
    obtain ⟨answer, told⟩ := exists_told host options.shell usual node prereq
    exact .ok ⟨start, answer, told, congrArg _ (reasonFor_eq_of_asked_eq_none asks _ _)⟩
  | some comparator =>
    have compares := of_asked_eq_some asks
    refine Ends.bind ((watched.ends_differs member compares needed start).imp ?_)
    rintro answer after ⟨kept, given⟩
    refine .ok ⟨kept, answer, fun other compares' _ _ => ?_, rfl⟩
    obtain rfl := Option.some.inj (compares.symm.trans compares')
    exact given

/-- All prerequisites: as each is looked at once, the answers are a function. -/
theorem ends_findings (watched : Watched host options.shell graph usual) {node : Node}
    (member : node ∈ graph.nodes) (assessments : Assessments) (time : Option Int)
    (first : Findings) {state : σ} (start : usual state) :
    Ends (fun result after => usual after ∧ ∃ answers : String → Bool,
        (∀ prereq, Told host options.shell usual node prereq (answers prereq)) ∧ result =
          node.uniquePrereqs.foldl (fun findings prereq => findings.add time prereq
            (reasonFor node time prereq (assessments.of prereq) (answers prereq))) first)
      (ComparatorRaises host options.shell graph usual)
      (node.uniquePrereqs.foldlM (inspect host console options assessments node time) first
        state) := by
  choose any anyTold using exists_told host options.shell usual node
  refine Ends.foldlM_along (fun before found later => usual later ∧ ∃ answers : String → Bool,
    (∀ prereq, Told host options.shell usual node prereq (answers prereq)) ∧
      found = before.foldl (fun findings prereq => findings.add time prereq
        (reasonFor node time prereq (assessments.of prereq) (answers prereq))) first) ?_ state
    ⟨start, any, anyTold, rfl⟩
  rintro before prereq after _ state split ⟨kept, answers, told, rfl⟩
  have needed : prereq ∈ node.prereqs := by
    have listed : prereq ∈ node.uniquePrereqs := by simp [split]
    exact mem_distinct.mp listed
  refine (watched.ends_inspect member assessments time _ needed kept).imp ?_
  rintro _ later ⟨kept, answer, toldNow, rfl⟩
  have once : prereq ∉ before := by
    have distinct := nodup_distinct node.prereqs
    rw [show BuildSystem.distinct node.prereqs = before ++ prereq :: after from split,
      List.nodup_append] at distinct
    exact fun member => distinct.2.2 prereq member prereq List.mem_cons_self rfl
  have toldAll : ∀ other, Told host options.shell usual node other
      (Function.update answers prereq answer other) := by
    intro other
    by_cases same : other = prereq
    · rw [same, Function.update_self]
      exact toldNow
    · rw [Function.update_of_ne same]
      exact told other
  refine ⟨kept, Function.update answers prereq answer, toldAll, ?_⟩
  rw [List.foldl_append, List.foldl_cons, List.foldl_nil, Function.update_self]
  have same : ∀ findings : Findings, ∀ other ∈ before,
      findings.add time other (reasonFor node time other (assessments.of other) (answers other)) =
      findings.add time other (reasonFor node time other (assessments.of other)
        (Function.update answers prereq answer other)) := by
    intro findings other member
    rw [Function.update_of_ne fun equal : other = prereq => once (equal ▸ member)]
  rw [List.foldl_ext _ _ first same]

/-- One node: what is found out follows from an observation, with the time that its file has then
and with answers of its comparator. -/
theorem ends_evaluateNode (watched : Watched host options.shell graph usual) {node : Node}
    (member : node ∈ graph.nodes) (assessments : Assessments) {state : σ} (start : usual state) :
    Ends (fun result after => usual after ∧ ∃ seen : Observation,
        seen.modified node.name = host.modified node.name state ∧
          (∀ prereq, Told host options.shell usual node prereq (seen.differs node.name prereq)) ∧
          result = seen.assess options graph assessments node)
      (ComparatorRaises host options.shell graph usual)
      (evaluateNode host console options graph assessments node state) := by
  unfold evaluateNode
  refine Ends.get ?_
  dsimp only
  by_cases source : node.isSource = true
  · rw [if_pos source]
    choose any told using exists_told host options.shell usual node
    refine .ok ⟨start, ⟨fun _ => host.modified node.name state, fun _ => any⟩, rfl, told, ?_⟩
    unfold Observation.assess
    rw [if_pos source]
  · rw [if_neg source]
    refine Ends.bind ((watched.ends_findings member assessments _ _ start).imp ?_)
    rintro findings after ⟨kept, answers, told, found⟩
    have seen : ∃ seen : Observation, seen.modified node.name = host.modified node.name state ∧
        (∀ prereq, Told host options.shell usual node prereq (seen.differs node.name prereq)) ∧
        record options graph assessments node
          (if node.isVirtual then none else host.modified node.name state) findings =
            seen.assess options graph assessments node := by
      refine ⟨⟨fun _ => host.modified node.name state, fun _ => answers⟩, rfl, told, ?_⟩
      unfold Observation.assess
      rw [if_neg source, found]
      rfl
    by_cases waits : defers options node findings = true
    · rw [if_pos waits]
      exact Ends.bind (.ok (.ok ⟨watched.prints _ kept, seen⟩))
    · rw [if_neg waits]
      exact .ok ⟨kept, seen⟩

/-- **A plan is the plan of an observation that the host may show**; the only failures are those of
comparators' commands. -/
theorem ends_evaluate (watched : Watched host options.shell graph usual)
    (arranged : Arranged graph.nodes) {before : σ} (start : usual before) :
    Ends (fun plan after => usual after ∧ ∃ seen,
        Shown host options.shell usual graph.nodes seen ∧
        plan = ⟨graph, seen.assessments options graph⟩)
      (ComparatorRaises host options.shell graph usual)
      (evaluate host console options graph before) := by
  have looked : Ends (fun result after => usual after ∧ ∃ seen,
        Shown host options.shell usual graph.nodes seen ∧
        result = graph.nodes.foldl (seen.assess options graph) [])
      (ComparatorRaises host options.shell graph usual)
      (graph.nodes.foldlM (evaluateNode host console options graph) [] before) := by
    refine Ends.foldlM_along (fun nodes found after => usual after ∧ ∃ seen,
      Shown host options.shell usual nodes seen ∧
      found = nodes.foldl (seen.assess options graph) []) ?_ before
      ⟨start, ⟨fun _ => none, fun _ _ => false⟩, .nil _, rfl⟩
    rintro nodes node later _ state split ⟨kept, seen, shown, rfl⟩
    have member : node ∈ graph.nodes := by simp [split]
    refine (watched.ends_evaluateNode member _ kept).imp ?_
    rintro _ after ⟨keptAfter, new, time, told, rfl⟩
    have initial := arranged.upTo split
    refine ⟨keptAfter, seen.revised new node.name,
      shown.revised (fun _ => initial.ne_last) ⟨state, kept, time⟩ told, ?_⟩
    -- The other nodes have other names, and do not notice.
    have same : ∀ found, ∀ other ∈ nodes, seen.assess options graph found other =
        (seen.revised new node.name).assess options graph found other :=
      fun found other member =>
        (seen.assess_revised_of_ne new found (initial.ne_last member)).symm
    rw [List.foldl_append, List.foldl_cons, List.foldl_nil, ← List.foldl_ext _ _ [] same]
    exact (seen.assess_revised_self new _ node).symm
  unfold evaluate
  refine Ends.bind (looked.imp ?_)
  rintro _ after ⟨kept, seen, shown, rfl⟩
  exact .ok ⟨watched.prints _ kept, seen, shown, rfl⟩

end Watched

/-- **The plan of any host is the plan of some observation.** -/
theorem evaluate_observed (arranged : Arranged graph.nodes) {plan : Plan} {before after : σ}
    (evaluated : evaluate host console options graph before = .ok plan after) :
    ∃ seen : Observation, plan = ⟨graph, seen.assessments options graph⟩ := by
  have ends : Ends _ _ (evaluate host console options graph before) :=
    (Watched.anything host options.shell graph).ends_evaluate arranged trivial
  rw [evaluated] at ends
  obtain ⟨-, seen, -, planned⟩ := ends.of_ok
  exact ⟨seen, planned⟩

/-! ### Steady hosts -/

/-- **Everything observed stays the same** in the states that printing and asking the comparators of
a graph lead to. -/
structure Steady (host : Host σ) (shell : List String) (graph : Graph) (seen : Observation)
    (usual : σ → Prop) : Prop where
  /-- The times of files are as observed. -/
  times : ∀ state, usual state → ∀ name, host.modified name state = seen.modified name
  printing : ∀ state, usual state → ∀ piece, usual (host.print piece state)
  /-- A comparator ends, and its exit code depends on the target and the prerequisite only. -/
  answers : ∀ node ∈ graph.nodes, ∀ comparator, node.comparator = some comparator →
    ∀ prereq ∈ node.prereqs, ∀ state, usual state → ∃ completion after,
      host.attempt (shell ++ ["-c", comparison comparator node.name prereq])
        (host.environment state) state = .ok completion after ∧ usual after ∧
      (completion.exitCode != 0) = seen.differs node.name prereq

namespace Steady

variable {seen other : Observation} {before : σ}

theorem watched (steady : Steady host options.shell graph seen usual) :
    Watched host options.shell graph usual where
  printing := steady.printing
  asking := by
    intro node member comparator compares prereq needed state start
    obtain ⟨completion, after, answered, kept, -⟩ :=
      steady.answers node member comparator compares prereq needed state start
    rw [answered]
    exact .ok kept

/-- No comparator raises a failure. -/
theorem not_raises (steady : Steady host options.shell graph seen usual) {failure : Failure}
    {after : σ} : ¬ ComparatorRaises host options.shell graph usual failure after := by
  rintro ⟨node, member, comparator, compares, prereq, needed, state, start, raises⟩
  obtain ⟨completion, later, answered, -⟩ :=
    steady.answers node member comparator compares prereq needed state start
  rw [answered] at raises
  cases raises

/-- Whatever the host shows, it is what is observed. -/
theorem assess_eq (steady : Steady host options.shell graph seen usual)
    (shown : Shown host options.shell usual graph.nodes other) {node : Node}
    (member : node ∈ graph.nodes) (assessments : Assessments) :
    other.assess options graph assessments node = seen.assess options graph assessments node := by
  obtain ⟨state, reached, time⟩ := shown.times node member
  refine Observation.assess_congr (time.trans (steady.times state reached _)) ?_ assessments
  intro comparator compares prereq needed
  obtain ⟨completion, after, answered, -⟩ :=
    steady.answers node member comparator compares prereq needed state reached
  obtain ⟨later, found, last, reachedLater, given, told⟩ := shown.answers node member prereq
    comparator compares _ ⟨state, completion, after, reached, answered, rfl⟩
  obtain ⟨_, _, answeredLater, -, observed⟩ :=
    steady.answers node member comparator compares prereq needed later reachedLater
  obtain ⟨rfl, -⟩ := EStateM.Result.ok.inj (given.symm.trans answeredLater)
  exact told.trans observed

end Steady

/-- **On a steady host a plan is made, and it follows from the observation.** -/
theorem evaluate_eq {seen : Observation}
    (steady : Steady host options.shell graph seen usual) (arranged : Arranged graph.nodes)
    (console : Console) {state : σ} (start : usual state) :
    ∃ after, usual after ∧ evaluate host console options graph state =
      .ok ⟨graph, seen.assessments options graph⟩ after := by
  have ends : Ends (fun plan after => usual after ∧ ∃ other,
      Shown host options.shell usual graph.nodes other ∧
        plan = ⟨graph, other.assessments options graph⟩) (fun _ _ => False)
      (evaluate host console options graph state) :=
    (steady.watched.ends_evaluate arranged start).mono (fun _ _ planned => planned)
      fun _ _ raises => steady.not_raises raises
  obtain ⟨_, after, evaluated, kept, other, shown, rfl⟩ := ends.exists_ok
  have same : other.assessments options graph = seen.assessments options graph :=
    List.foldl_ext _ _ _ fun assessments node member => steady.assess_eq shown member assessments
  exact ⟨after, kept, same ▸ evaluated⟩

end BuildSystem
