/-
**What was done in a build.**

A log lists the work whose results have settled targets: jobs that were done, and results of jobs
that were taken by other targets of their groups.

* `Deed`, `Log` — the log of a build, as it comes to its scenes; `Course.log`, `Log.course` — every
  course has one, and nothing else has.
* `Event.status_of_quiet` — other events give no target a result.
* `Recorded`, `Log.recorded` — the targets in a log have been settled, each once, and no others that
  must be built have been.
-/

import BuildSystem.Proofs.Schedule.Statuses

namespace BuildSystem.Schedule

variable {σ : Type}

/-! ### Logs -/

/-- **Work whose result has settled a target.** -/
inductive Deed where
  /-- The job for the target was done, with the result. -/
  | job (node : Node) (result : JobResult)
  /-- The target took the result of a job for another one. -/
  | share (node : Node) (result : JobResult)

/-- The target that was settled. -/
def Deed.node : Deed → Node
  | job node _ => node
  | share node _ => node

/-- The next event settles no target. -/
def Stage.Quiet : Stage → Prop
  | idle | finishing _ _ => True
  | working _ | sharing _ _ => False

/-- **The scenes that a build can come to**, with what was done on the way. -/
inductive Log (setting : Setting σ) (start : State) (origin : σ) : List Deed → Scene σ → Prop
  | start : Log setting start origin [] ⟨origin, start, .idle⟩
  | print {deeds : List Deed} {world : σ} {state : State} {stage : Stage}
      (log : Log setting start origin deeds ⟨world, state, stage⟩) (piece : Printed) :
      Log setting start origin deeds ⟨setting.host.print piece world, state, stage⟩
  | quiet {deeds : List Deed} {one two : Scene σ} (log : Log setting start origin deeds one)
      (quiet : one.stage.Quiet) (event : Event setting one two) :
      Log setting start origin deeds two
  | work {deeds : List Deed} {world later : σ} {job : Job} {result : JobResult}
      {before after : State} (log : Log setting start origin deeds ⟨world, before, .working job⟩)
      (worked : contain setting.workers job world = .ok result later) (ended : Ended result)
      (made : before.settle setting.graph setting.options job.node result = .ok after) :
      Log setting start origin (deeds ++ [.job job.node result])
        ⟨later, after, .worked job result⟩
  | adopt {deeds : List Deed} {world later : σ} {node : Node} {rest : List Node}
      {result own : JobResult} {before after : State}
      (log : Log setting start origin deeds ⟨world, before, .sharing result (node :: rest)⟩)
      (shared : setting.workers.share result node world = .ok own later) (ended : Ended own)
      (made : before.settle setting.graph setting.options node own = .ok after) :
      Log setting start origin (deeds ++ [.share node result]) ⟨later, after, .shared result rest⟩

section Logs

variable {setting : Setting σ} {plan : Plan} {graph : Graph} {options : Options} {origin : σ}
  {start : State} {past : List State} {deeds : List Deed} {scene : Scene σ}

/-- Every course has a log. -/
theorem Course.log (course : Course setting start origin past scene) :
    ∃ deeds, Log setting start origin deeds scene := by
  induction course with
  | start => exact ⟨[], .start⟩
  | print course piece ih =>
    obtain ⟨deeds, log⟩ := ih
    exact ⟨deeds, log.print piece⟩
  | event course event ih =>
    obtain ⟨deeds, log⟩ := ih
    cases event with
    | skip enabled made => exact ⟨deeds, log.quiet trivial (.skip enabled made)⟩
    | share enabled made => exact ⟨deeds, log.quiet trivial (.share enabled made)⟩
    | ride enabled made => exact ⟨deeds, log.quiet trivial (.ride enabled made)⟩
    | dispatch enabled made => exact ⟨deeds, log.quiet trivial (.dispatch enabled made)⟩
    | land flying => exact ⟨deeds, log.quiet trivial (.land flying)⟩
    | work worked ended made => exact ⟨_, log.work worked ended made⟩
    | finish ended => exact ⟨deeds, log.quiet trivial (.finish ended)⟩
    | adopt shared ended made => exact ⟨_, log.adopt shared ended made⟩

/-- A log is the log of a course. -/
theorem Log.course (log : Log setting start origin deeds scene) :
    ∃ past, Course setting start origin past scene := by
  induction log with
  | start => exact ⟨[], .start⟩
  | print log piece ih =>
    obtain ⟨past, course⟩ := ih
    exact ⟨past, course.print piece⟩
  | quiet log quiet event ih =>
    obtain ⟨past, course⟩ := ih
    exact ⟨_, course.event event⟩
  | work log worked ended made ih =>
    obtain ⟨past, course⟩ := ih
    exact ⟨_, course.event (.work worked ended made)⟩
  | adopt log shared ended made ih =>
    obtain ⟨past, course⟩ := ih
    exact ⟨_, course.event (.adopt shared ended made)⟩

theorem Log.passage (same : setting.graph = plan.graph)
    (log : Log setting (State.start plan setting.options) origin deeds scene) :
    ∃ past, Passage plan.graph setting.options (State.start plan setting.options) past
      scene.moment := by
  obtain ⟨past, course⟩ := log.course
  exact ⟨past, same ▸ course.passage⟩

/-! ### Targets that have been settled -/

/-- **The targets in a log have been settled, each once**, and all those that must be built and have
succeeded or failed are in it. -/
structure Recorded (plan : Plan) (state : State) (deeds : List Deed) : Prop where
  once : (deeds.map (·.node.name)).Nodup
  settled : ∀ deed ∈ deeds, deed.node ∈ plan.graph.nodes ∧
    startStatus plan deed.node = .pending ∧ (state.status deed.node.name).isFinal = true
  covered : ∀ node ∈ plan.graph.nodes, startStatus plan node = .pending →
    state.status node.name = .succeeded ∨ state.status node.name = .failed →
      ∃ deed ∈ deeds, deed.node = node

/-- A quiet event gives no target a result. -/
theorem Event.status_of_quiet {one two : Scene σ}
    (consistent : Consistent setting.graph setting.options one.moment) (quiet : one.stage.Quiet)
    (event : Event setting one two) {name : String}
    (ended : two.state.status name = .succeeded ∨ two.state.status name = .failed) :
    one.state.status name = two.state.status name := by
  have of_put : ∀ {own : String} {status : Status}, status ≠ .succeeded → status ≠ .failed →
      two.state.status name = (if name = own then status else one.state.status name) →
        one.state.status name = two.state.status name := by
    intro own status unmade unfailed changed
    rw [changed] at ended ⊢
    split at ended
    · exact absurd ended (not_or.mpr ⟨unmade, unfailed⟩)
    · next differ => rw [if_neg differ]
  cases event with
  | skip enabled made =>
    obtain ⟨waiting, ready, rfl⟩ := consistent.eq_of_skip enabled made
    exact of_put (by decide) (by decide) (State.status_put _ _ _ _)
  | share enabled made =>
    obtain rfl := consistent.eq_of_share enabled made
    exact of_put (by decide) (by decide) (State.status_put _ _ _ _)
  | ride enabled made =>
    obtain rfl := consistent.eq_of_ride enabled made
    exact of_put (by decide) (by decide) (State.status_put _ _ _ _)
  | dispatch enabled made =>
    obtain rfl := consistent.eq_of_dispatch enabled made
    exact of_put (by decide) (by decide) (State.status_put _ _ _ _)
  | land flying => rfl
  | work worked ended made => exact quiet.elim
  | finish ended => rfl
  | adopt shared ended made => exact quiet.elim

namespace Recorded

variable {before after : State}

variable (options) in
theorem nil (arranged : Arranged plan.graph.nodes) :
    Recorded plan (State.start plan options) [] where
  once := List.nodup_nil
  settled := fun deed member => by cases member
  covered := by
    intro node member stale ended
    rw [status_start options arranged member, stale] at ended
    rcases ended with succeeded | failed
    · cases succeeded
    · cases failed

/-- No target is settled. -/
theorem quiet (recorded : Recorded plan before deeds)
    (final : ∀ name, (before.status name).isFinal = true → (after.status name).isFinal = true)
    (ended : ∀ name, after.status name = .succeeded ∨ after.status name = .failed →
      before.status name = after.status name) : Recorded plan after deeds where
  once := recorded.once
  settled := by
    intro deed member
    obtain ⟨deedMember, stale, settled⟩ := recorded.settled deed member
    exact ⟨deedMember, stale, final _ settled⟩
  covered := fun node member stale made =>
    recorded.covered node member stale (ended node.name made ▸ made)

/-- The target that is due is settled. -/
theorem settle (recorded : Recorded plan before deeds) (arranged : Arranged plan.graph.nodes)
    {deed : Deed} {rest : List Node} {group : Option Recipe.Group}
    {result : JobResult} (passage : Passage plan.graph options (State.start plan options) past
      ⟨before, ⟨deed.node :: rest, group⟩⟩)
    (ended : Ended result)
    (made : before.settle plan.graph options deed.node result = .ok after) :
    Recorded plan after (deeds ++ [deed]) := by
  have consistent := passage.consistent arranged
  obtain ⟨member, building⟩ := consistent.building_of_due deed.node List.mem_cons_self
  have open' := (passage.explained arranged).of_open member (by simp [building])
  have changed : ∀ name, after.status name =
      if name = deed.node.name then result.status else before.status name := by
    obtain ⟨waiting, ready, rfl⟩ := consistent.eq_of_settle made
    exact fun name => State.status_put _ _ _ _
  refine ⟨?_, fun other listed => ?_, fun node nodeMember stale settled => ?_⟩
  · rw [List.map_append, List.map_singleton]
    refine List.nodup_append_comm.mp (List.nodup_cons.mpr ⟨fun again => ?_, recorded.once⟩)
    -- The targets in the log are not being worked on any longer.
    obtain ⟨other, otherMember, same⟩ := List.mem_map.mp again
    have settled := (recorded.settled other otherMember).2.2
    rw [same, building] at settled
    cases settled
  · rw [changed]
    rcases List.mem_append.mp listed with old | new
    · obtain ⟨otherMember, stale, settled⟩ := recorded.settled other old
      refine ⟨otherMember, stale, ?_⟩
      split
      · exact ended.isFinal
      · exact settled
    · obtain rfl := List.mem_singleton.mp new
      refine ⟨member, (startStatus_eq_pending_iff plan _).mpr open', ?_⟩
      rw [if_pos rfl]
      exact ended.isFinal
  · by_cases same : node.name = deed.node.name
    · exact ⟨deed, List.mem_append_right _ (List.mem_singleton_self deed),
        (arranged.eq_of_name nodeMember member same).symm⟩
    · rw [changed, if_neg same] at settled
      obtain ⟨other, otherMember, found⟩ := recorded.covered node nodeMember stale settled
      exact ⟨other, List.mem_append_left _ otherMember, found⟩

end Recorded

/-- **The targets in a log are those that have been settled.** -/
theorem Log.recorded (same : setting.graph = plan.graph) (arranged : Arranged plan.graph.nodes)
    (log : Log setting (State.start plan setting.options) origin deeds scene) :
    Recorded plan scene.state deeds := by
  induction log with
  | start => exact .nil setting.options arranged
  | print log piece ih => exact ih
  | @quiet deeds one two log quiet event ih =>
    obtain ⟨past, passage⟩ := log.passage same
    have consistent := passage.consistent arranged
    have effect := (same ▸ event.change).effect consistent
    refine ih.quiet (fun name final => ?_) fun name =>
      Event.status_of_quiet (same ▸ consistent) quiet event
    have stays : two.state.status name = one.state.status name :=
      effect.of_isFinal consistent final
    rw [stays]
    exact final
  | work log worked ended made ih =>
    obtain ⟨past, passage⟩ := log.passage same
    exact ih.settle arranged passage ended (same ▸ made)
  | adopt log shared ended made ih =>
    obtain ⟨past, passage⟩ := log.passage same
    exact ih.settle arranged passage ended (same ▸ made)

end Logs

end BuildSystem.Schedule
