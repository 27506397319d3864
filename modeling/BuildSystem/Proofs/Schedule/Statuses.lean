/-
**Every status has its reason.**

* `Effect.of_isFinal` — a final status stays.
* `Explained` — at every moment of a build: what need not be built has succeeded, work has begun
  only after all prerequisites succeeded, what was given up has a prerequisite that was not built,
  and exactly the targets that failed are recorded as failures.
* `Explained.effect`, `explained_start`, `Passage.explained` — it holds at the start, and every
  change keeps it.
-/

import BuildSystem.Proofs.Schedule.History

namespace BuildSystem.Schedule

variable {plan : Plan} {graph : Graph} {options : Options} {one : Moment} {after : State}

/-- **A final status stays.** -/
theorem Effect.of_isFinal (effect : Effect one.state after)
    (consistent : Consistent graph options one) {name : String}
    (final : (one.state.status name).isFinal = true) :
    after.status name = one.state.status name := by
  cases effect with
  | none same => exact same name
  | skips node rest first changed =>
    rw [changed]
    split
    · next same =>
      rw [same, (consistent.first_pending first).2] at final
      cases final
    · rfl
  | begins node rest first free changed =>
    rw [changed]
    split
    · next same =>
      rw [same, (consistent.first_pending first).2] at final
      cases final
    · rfl
  | settles node result building ended changed =>
    rw [changed]
    split
    · next same =>
      rw [same, building] at final
      cases final
    · rfl

theorem Effect.of_succeeded (effect : Effect one.state after)
    (consistent : Consistent graph options one) {name : String}
    (succeeded : one.state.status name = .succeeded) : after.status name = .succeeded := by
  have final : (one.state.status name).isFinal = true := by
    rw [succeeded]
    rfl
  rw [effect.of_isFinal consistent final, succeeded]

theorem Effect.of_blocks (effect : Effect one.state after)
    (consistent : Consistent graph options one) {name : String}
    (blocks : (one.state.status name).blocks = true) : (after.status name).blocks = true := by
  have final : (one.state.status name).isFinal = true := by
    cases status : one.state.status name with
    | failed => rfl
    | skipped => rfl
    | unvisited => rw [status] at blocks; cases blocks
    | pending => rw [status] at blocks; cases blocks
    | building => rw [status] at blocks; cases blocks
    | succeeded => rw [status] at blocks; cases blocks
  rw [effect.of_isFinal consistent final, blocks]

/-- **Every status has its reason**, and exactly the targets that failed are recorded as
failures. -/
structure Explained (plan : Plan) (state : State) : Prop where
  upToDate : ∀ node ∈ plan.graph.nodes, startStatus plan node ≠ .pending →
    state.status node.name = .succeeded
  begun : ∀ node ∈ plan.graph.nodes, startStatus plan node = .pending →
    state.status node.name ≠ .pending → state.status node.name ≠ .skipped →
      ∀ prereq ∈ node.prereqs, state.status prereq = .succeeded
  skipped : ∀ node ∈ plan.graph.nodes, state.status node.name = .skipped →
    ∃ prereq ∈ node.prereqs, (state.status prereq).blocks = true
  failures : ∀ name, name ∈ state.failures.keys ↔ state.status name = .failed
  /-- Only nodes have a status. -/
  known : ∀ name, state.status name ≠ .unvisited → ∃ node ∈ plan.graph.nodes, node.name = name

namespace Explained

theorem failures_iff (explained : Explained plan one.state)
    (consistent : Consistent plan.graph options one) (effect : Effect one.state after)
    (name : String) : name ∈ after.failures.keys ↔ after.status name = .failed := by
  have before := explained.failures name
  cases effect with
  | none same kept => rw [kept, same, before]
  | skips node rest first changed _ kept =>
    rw [kept, changed, before]
    split
    · next same => simp [same, (consistent.first_pending first).2]
    · rfl
  | begins node rest first free changed kept =>
    rw [kept, changed, before]
    split
    · next same => simp [same, (consistent.first_pending first).2]
    · rfl
  | settles node result building ended changed recorded =>
    rw [recorded, changed]
    by_cases failed : result.status = .failed
    · rw [if_pos failed, failed, Table.mem_keys_set, before]
      by_cases same : name = node.name
      · simp [same]
      · simp [same]
    · rw [if_neg failed, before]
      by_cases same : name = node.name
      · simp [same, building, failed]
      · rw [if_neg same]

/-- Work begins only after all prerequisites succeeded; it is enough to know of the moment before,
as what succeeded stays so. -/
theorem begun_effect (explained : Explained plan one.state) (arranged : Arranged plan.graph.nodes)
    (consistent : Consistent plan.graph options one) (effect : Effect one.state after) {node : Node}
    (member : node ∈ plan.graph.nodes) (stale : startStatus plan node = .pending)
    (begun : after.status node.name ≠ .pending) (given : after.status node.name ≠ .skipped) :
    ∀ prereq ∈ node.prereqs, one.state.status prereq = .succeeded := by
  intro prereq needed
  have before := explained.begun node member stale
  cases effect with
  | none same =>
    rw [same] at begun given
    exact before begun given prereq needed
  | skips other rest first changed =>
    rw [changed] at begun given
    by_cases same : node.name = other.name
    · exact absurd (if_pos same) given
    · rw [if_neg same] at begun given
      exact before begun given prereq needed
  | begins other rest first free changed =>
    by_cases same : node.name = other.name
    · obtain rfl := arranged.eq_of_name member (consistent.first_pending first).1 same
      exact consistent.orderly.prereqs_succeeded first free prereq needed
    · rw [changed, if_neg same] at begun given
      exact before begun given prereq needed
  | settles other result building ended changed =>
    by_cases same : node.name = other.name
    · have working := same ▸ building
      exact before (by simp [working]) (by simp [working]) prereq needed
    · rw [changed, if_neg same] at begun given
      exact before begun given prereq needed

/-- What is given up has a prerequisite that was not built, already the moment before. -/
theorem skipped_effect (explained : Explained plan one.state) (arranged : Arranged plan.graph.nodes)
    (consistent : Consistent plan.graph options one) (effect : Effect one.state after) {node : Node}
    (member : node ∈ plan.graph.nodes) (given : after.status node.name = .skipped) :
    ∃ prereq ∈ node.prereqs, (one.state.status prereq).blocks = true := by
  have before := explained.skipped node member
  cases effect with
  | none same => exact before (same node.name ▸ given)
  | skips other rest first changed blocked =>
    by_cases same : node.name = other.name
    · obtain rfl := arranged.eq_of_name member (consistent.first_pending first).1 same
      exact blocked
    · rw [changed, if_neg same] at given
      exact before given
  | begins other rest first free changed =>
    rw [changed] at given
    split at given
    · cases given
    · exact before given
  | settles other result building ended changed =>
    rw [changed] at given
    split at given
    · rcases ended with succeeded | failed
      · rw [succeeded] at given
        cases given
      · rw [failed] at given
        cases given
    · exact before given

/-- Only nodes get a status. -/
theorem known_effect (explained : Explained plan one.state)
    (consistent : Consistent plan.graph options one) (effect : Effect one.state after)
    {name : String} (visited : after.status name ≠ .unvisited) :
    ∃ node ∈ plan.graph.nodes, node.name = name := by
  cases effect with
  | none same => exact explained.known name (same name ▸ visited)
  | skips other rest first changed =>
    rw [changed] at visited
    split at visited
    · next same => exact ⟨other, (consistent.first_pending first).1, same.symm⟩
    · exact explained.known name visited
  | begins other rest first free changed =>
    rw [changed] at visited
    split at visited
    · next same => exact ⟨other, (consistent.first_pending first).1, same.symm⟩
    · exact explained.known name visited
  | settles other result building ended changed =>
    rw [changed] at visited
    split at visited
    · next same => exact explained.known name (by simp [same, building])
    · exact explained.known name visited

/-- **Every change keeps it.** -/
theorem effect (explained : Explained plan one.state) (arranged : Arranged plan.graph.nodes)
    (consistent : Consistent plan.graph options one) (effect : Effect one.state after) :
    Explained plan after where
  upToDate := fun node member idle =>
    effect.of_succeeded consistent (explained.upToDate node member idle)
  begun := fun node member stale begun given prereq needed => effect.of_succeeded consistent
    (explained.begun_effect arranged consistent effect member stale begun given prereq needed)
  skipped := by
    intro node member given
    obtain ⟨prereq, needed, blocks⟩ :=
      explained.skipped_effect arranged consistent effect member given
    exact ⟨prereq, needed, effect.of_blocks consistent blocks⟩
  failures := explained.failures_iff consistent effect
  known := fun _ visited => explained.known_effect consistent effect visited

end Explained

/-! ### The start and the way on -/

theorem startStatus_eq_pending_iff (plan : Plan) (node : Node) :
    startStatus plan node = .pending ↔
      node.isSource = false ∧ (plan.assessment node.name).mustBuild = true := by
  unfold startStatus Node.initialStatus
  cases node.isSource with
  | true => simp [Status.isFinal]
  | false =>
    cases (plan.assessment node.name).mustBuild with
    | true => simp [Status.isFinal]
    | false => simp [Status.isFinal]

theorem startStatus_eq (plan : Plan) (node : Node) :
    startStatus plan node = .succeeded ∨ startStatus plan node = .pending := by
  unfold startStatus Node.initialStatus
  cases node.isSource with
  | true => exact Or.inl rfl
  | false =>
    cases (plan.assessment node.name).mustBuild with
    | true => exact Or.inr rfl
    | false => exact Or.inl rfl

/-- A node that has not succeeded has a rule and must be built. -/
theorem Explained.of_open {state : State} (explained : Explained plan state) {node : Node}
    (member : node ∈ plan.graph.nodes) (unmade : state.status node.name ≠ .succeeded) :
    node.isSource = false ∧ (plan.assessment node.name).mustBuild = true := by
  rw [← startStatus_eq_pending_iff]
  by_contra idle
  exact unmade (explained.upToDate node member idle)

/-- At the start only nodes have a status. -/
theorem known_start (plan : Plan) (options : Options) {name : String}
    (visited : (State.start plan options).status name ≠ .unvisited) :
    ∃ node ∈ plan.graph.nodes, node.name = name := by
  have known : name ∈ (startStatuses plan).keys := by
    by_contra unknown
    unfold State.status State.start at visited
    rw [Table.get?_eq_none unknown] at visited
    exact visited rfl
  simpa [startStatuses, Table.keys] using known

/-- At the start no target has failed or has been given up. -/
theorem blocks_start (options : Options) (arranged : Arranged plan.graph.nodes) (name : String) :
    ((State.start plan options).status name).blocks = false := by
  by_cases visited : (State.start plan options).status name = .unvisited
  · rw [visited]
    rfl
  · obtain ⟨node, member, rfl⟩ := known_start plan options visited
    rw [status_start options arranged member]
    rcases startStatus_eq plan node with succeeded | pending
    · rw [succeeded]
      rfl
    · rw [pending]
      rfl

theorem explained_start (options : Options) (arranged : Arranged plan.graph.nodes) :
    Explained plan (State.start plan options) where
  upToDate := by
    intro node member idle
    rw [status_start options arranged member]
    exact (startStatus_eq plan node).resolve_right idle
  begun := by
    intro node member stale begun
    rw [status_start options arranged member] at begun
    exact absurd stale begun
  skipped := by
    intro node member given
    have free := blocks_start options arranged node.name
    rw [given] at free
    cases free
  failures := by
    intro name
    constructor
    · intro member
      cases member
    · intro failed
      have free := blocks_start options arranged name
      rw [failed] at free
      cases free
  known := fun name visited => known_start plan options visited

/-- **At every moment that a build can come to, every status has its reason.** -/
theorem Passage.explained (arranged : Arranged plan.graph.nodes) {past : List State}
    {moment : Moment}
    (passage : Passage plan.graph options (State.start plan options) past moment) :
    Explained plan moment.state := by
  induction passage with
  | start => exact explained_start options arranged
  | step passage change ih =>
    have consistent := passage.consistent arranged
    exact ih.effect arranged consistent (change.effect consistent)

/-- The targets that are to be settled have rules and must be built. -/
theorem Passage.of_due (arranged : Arranged plan.graph.nodes) {past : List State} {moment : Moment}
    (passage : Passage plan.graph options (State.start plan options) past moment) :
    ∀ node ∈ moment.due.nodes, node ∈ plan.graph.nodes ∧ node.isSource = false ∧
      (plan.assessment node.name).mustBuild = true := by
  intro node due
  obtain ⟨member, building⟩ := (passage.consistent arranged).building_of_due node due
  exact ⟨member, (passage.explained arranged).of_open member (by simp [building])⟩

end BuildSystem.Schedule
