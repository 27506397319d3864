/-
**What holds at every moment of a build.**

* `Consistent` — the invariant: the state is orderly; what is due, in flight or riding is being
  worked on; groups on which targets ride have a job; and every slot is free or taken.
* `Consistent.eq_of_skip` and the like — the states that changes lead to.
* `Consistent.change` — every change keeps the invariant.
* `consistent_start`, `Passage.consistent` — so it holds at every moment.
-/

import BuildSystem.Proofs.Schedule.Orderly

namespace BuildSystem.Schedule

/-! ### Opened groups -/

namespace State

variable {node : Node} {riding : Table Recipe.Group (List Node)}

/-- The group of the target is opened, and no other one. -/
theorem mem_keys_openGroup {group : Recipe.Group} :
    group ∈ (openGroup node riding).keys ↔
      group ∈ riding.keys ∨ Recipe.group? node = some group := by
  unfold openGroup
  split
  · next own grouped =>
    rw [Table.mem_keys_set, grouped, Option.some_inj, or_comm, eq_comm]
  · next none => simp [none]

theorem nodup_keys_openGroup (distinct : riding.keys.Nodup) :
    (openGroup node riding).keys.Nodup := by
  unfold openGroup
  split
  · exact Table.nodup_keys_set distinct _ _
  · exact distinct

/-- A group that was not open has no riders, and opening it changes none. -/
theorem perm_openGroup
    (alone : ∀ group, Recipe.group? node = some group → group ∉ riding.keys) :
    ((openGroup node riding).flatMap (·.2)).Perm (riding.flatMap (·.2)) := by
  unfold openGroup
  split
  · next group grouped =>
    have before := Table.perm_flatMap_erase group riding
    rw [Table.get?_eq_none (alone group grouped)] at before
    exact (Table.perm_flatMap_set group [] riding).trans before.symm
  · exact .refl _

end State

/-! ### Moments -/

/-- The targets that are being worked on: those that are to be settled next, those of the jobs in
flight, and those that ride on a job. -/
def Moment.atWork (moment : Moment) : List Node :=
  moment.due.nodes ++ (moment.state.running.map (·.node) ++ moment.state.riding.flatMap (·.2))

/-- **What holds at every moment of a build.** -/
structure Consistent (graph : Graph) (options : Options) (moment : Moment) : Prop where
  orderly : moment.state.Orderly graph
  working : moment.state.Working graph moment.atWork
  groups : moment.state.riding.keys.Nodup
  /-- A group on which targets ride has a job in flight, or one that has just been finished. -/
  carried : ∀ group ∈ moment.state.riding.keys, moment.due.group = some group ∨
    ∃ job ∈ moment.state.running, Recipe.group? job.node = some group
  slots : moment.state.running.length + moment.state.freeSlots.length = options.slots.length

namespace Consistent

variable {graph : Graph} {options : Options} {before after : State} {node : Node}

theorem first_pending {moment : Moment} (consistent : Consistent graph options moment)
    {rest : List Node} (first : moment.state.ready = node :: rest) :
    node ∈ graph.nodes ∧ moment.state.status node.name = .pending := by
  obtain ⟨member, pending, _⟩ :=
    (consistent.orderly.counted.ready node).mp (first ▸ List.mem_cons_self)
  exact ⟨member, pending⟩

/-! The states that the changes lead to. -/

theorem eq_of_skip (consistent : Consistent graph options ⟨before, {}⟩) {blocker : String}
    (enabled : Enabled before (.skip node blocker)) (made : before.skip graph node = .ok after) :
    ∃ (waiting : Table String Nat) (ready : List Node),
      after = { before.put node.name .skipped with waiting, ready } := by
  cases enabled with
  | skip first going needed blocks =>
    exact State.skip_frame (consistent.first_pending first).2 made

theorem eq_of_share (consistent : Consistent graph options ⟨before, {}⟩) {result : JobResult}
    (enabled : Enabled before (.share node result)) (made : before.begin node = .ok after) :
    after = before.popReady.put node.name .building := by
  cases enabled with
  | share first going free grouped found =>
    rw [State.begin_eq (consistent.first_pending first).2] at made
    exact (Except.ok.inj made).symm

theorem eq_of_ride (consistent : Consistent graph options ⟨before, {}⟩) {group : Recipe.Group}
    (enabled : Enabled before (.ride node group)) (made : before.ride node group = .ok after) :
    after = { before.popReady.put node.name .building with
      riding := before.riding.set group (before.riders group ++ [node]) } := by
  cases enabled with
  | ride first going free grouped carried =>
    rw [State.ride_eq (consistent.first_pending first).2] at made
    exact (Except.ok.inj made).symm

theorem eq_of_dispatch (consistent : Consistent graph options ⟨before, {}⟩) {slot : Nat}
    {cost : Int} (enabled : Enabled before (.dispatch node slot))
    (made : before.dispatch node slot cost = .ok after) :
    after = { before.popReady.put node.name .building with
      running := before.running ++ [⟨node, slot, before.clock + cost⟩]
      freeSlots := before.freeSlots.tail
      dispatched := before.dispatched ++ [node.name]
      riding := State.openGroup node before.riding } := by
  cases enabled with
  | dispatch first going free unfinished alone slotFree =>
    rw [State.dispatch_eq (consistent.first_pending first).2] at made
    exact (Except.ok.inj made).symm

theorem building_of_due {moment : Moment} (consistent : Consistent graph options moment) :
    ∀ node ∈ moment.due.nodes,
      node ∈ graph.nodes ∧ moment.state.status node.name = .building :=
  fun node due => (consistent.working.iff node).mp (List.mem_append_left _ due)

theorem eq_of_settle {rest : List Node} {group : Option Recipe.Group} {result : JobResult}
    (consistent : Consistent graph options ⟨before, ⟨node :: rest, group⟩⟩)
    (made : before.settle graph options node result = .ok after) :
    ∃ (waiting : Table String Nat) (ready : List Node),
      after = { (before.record options node result).put node.name result.status with
        waiting, ready } :=
  State.settle_frame (consistent.building_of_due node List.mem_cons_self).2 made

/-! The changes keep the invariant. -/

theorem skip (consistent : Consistent graph options ⟨before, {}⟩) (arranged : Arranged graph.nodes)
    {blocker : String} (enabled : Enabled before (.skip node blocker))
    (made : before.skip graph node = .ok after) : Consistent graph options ⟨after, {}⟩ := by
  obtain ⟨waiting, ready, same⟩ := consistent.eq_of_skip enabled made
  cases enabled with
  | skip first going needed blocks =>
    have orderly := consistent.orderly.skip arranged first made
    subst same
    exact ⟨orderly, consistent.working.skip (consistent.first_pending first).2
      (fun other => State.status_put _ _ _ _), consistent.groups, consistent.carried,
      consistent.slots⟩

theorem working_begin (consistent : Consistent graph options ⟨before, {}⟩)
    (arranged : Arranged graph.nodes) {rest : List Node} (first : before.ready = node :: rest)
    (statuses : after.statuses = (before.popReady.put node.name .building).statuses) :
    after.Working graph
      (node :: (before.running.map (·.node) ++ before.riding.flatMap (·.2))) := by
  obtain ⟨member, pending⟩ := consistent.first_pending first
  refine consistent.working.begin arranged member pending fun name => ?_
  rw [show before.status name = before.popReady.status name from rfl, ← State.status_put]
  unfold State.status
  rw [statuses]

theorem share (consistent : Consistent graph options ⟨before, {}⟩) (arranged : Arranged graph.nodes)
    {result : JobResult} (enabled : Enabled before (.share node result))
    (made : before.begin node = .ok after) : Consistent graph options ⟨after, ⟨[node], none⟩⟩ := by
  obtain rfl := consistent.eq_of_share enabled made
  cases enabled with
  | share first going free grouped found =>
    exact ⟨consistent.orderly.begin arranged first free rfl rfl rfl rfl fun _ => Or.inl,
      consistent.working_begin arranged first rfl, consistent.groups, consistent.carried,
      consistent.slots⟩

theorem ride (consistent : Consistent graph options ⟨before, {}⟩) (arranged : Arranged graph.nodes)
    {group : Recipe.Group} (enabled : Enabled before (.ride node group))
    (made : before.ride node group = .ok after) : Consistent graph options ⟨after, {}⟩ := by
  obtain rfl := consistent.eq_of_ride enabled made
  cases enabled with
  | ride first going free grouped carried =>
    have sameKeys : (before.riding.set group (before.riders group ++ [node])).keys =
        before.riding.keys := by
      rw [Table.keys_set, if_pos carried]
    have riders : ((before.riding.set group (before.riders group ++ [node])).flatMap (·.2)).Perm
        (node :: before.riding.flatMap (·.2)) := by
      refine (Table.perm_flatMap_set group _ before.riding).trans ?_
      rw [List.append_assoc]
      exact List.perm_middle.trans ((Table.perm_flatMap_erase group before.riding).symm.cons node)
    refine ⟨consistent.orderly.begin arranged first free rfl rfl rfl rfl fun _ => Or.inl,
      (consistent.working_begin arranged first rfl).perm ?_ rfl, sameKeys ▸ consistent.groups, ?_,
      consistent.slots⟩
    · exact (riders.append_left _).trans List.perm_middle
    · intro other member
      exact consistent.carried other (sameKeys ▸ member)

theorem dispatch (consistent : Consistent graph options ⟨before, {}⟩)
    (arranged : Arranged graph.nodes) {slot : Nat} {cost : Int}
    (enabled : Enabled before (.dispatch node slot))
    (made : before.dispatch node slot cost = .ok after) : Consistent graph options ⟨after, {}⟩ := by
  obtain rfl := consistent.eq_of_dispatch enabled made
  cases enabled with
  | dispatch first going free unfinished alone slotFree =>
    refine ⟨consistent.orderly.begin arranged first free rfl rfl rfl rfl ?_,
      (consistent.working_begin arranged first rfl).perm ?_ rfl, State.nodup_keys_openGroup
        consistent.groups, ?_, ?_⟩
    · intro name submitted
      rcases List.mem_append.mp submitted with old | new
      · exact Or.inl old
      · exact Or.inr (List.mem_singleton.mp new)
    · show ((before.running ++ [(⟨node, slot, before.clock + cost⟩ : Job)]).map (·.node) ++
        (State.openGroup node before.riding).flatMap (·.2)).Perm _
      rw [List.map_append]
      refine ((State.perm_openGroup alone).append_left _).trans ?_
      rw [List.append_assoc]
      exact List.perm_middle
    · intro group member
      refine Or.inr ?_
      rcases State.mem_keys_openGroup.mp member with old | own
      · rcases consistent.carried group old with due | ⟨job, flying, carries⟩
        · cases due
        · exact ⟨job, List.mem_append_left _ flying, carries⟩
      · exact ⟨_, List.mem_append_right _ (List.mem_singleton_self _), own⟩
    · have slots : before.running.length + before.freeSlots.length = _ := consistent.slots
      show (before.running ++ [_]).length + before.freeSlots.tail.length = _
      rw [slotFree, List.length_cons] at slots
      rw [slotFree, List.tail_cons, List.length_append, List.length_singleton]
      omega

theorem land (consistent : Consistent graph options ⟨before, {}⟩) {job : Job}
    (flying : job ∈ before.running) : Consistent graph options
      ⟨before.land job, ⟨[job.node], Recipe.group? job.node⟩⟩ where
  orderly := consistent.orderly.congr rfl rfl rfl rfl consistent.orderly.ended
  working := by
    refine consistent.working.perm ?_ rfl
    have landed : (before.running.map (·.node)).Perm
        (job.node :: (before.running.erase job).map (·.node)) :=
      (List.perm_cons_erase flying).map _
    exact (landed.append_right _).symm
  groups := consistent.groups
  carried := by
    intro group member
    rcases consistent.carried group member with due | ⟨other, otherFlying, carries⟩
    · cases due
    · by_cases same : other = job
      · exact Or.inl (same ▸ carries)
      · exact Or.inr ⟨other, (List.mem_erase_of_ne same).mpr otherFlying, carries⟩
  slots := by
    have slots : before.running.length + before.freeSlots.length = _ := consistent.slots
    have some := List.length_pos_of_mem flying
    show (before.running.erase job).length + (before.freeSlots ++ [job.slot]).length = _
    rw [List.length_erase_of_mem flying, List.length_append, List.length_singleton]
    omega

theorem settle {rest : List Node} {group : Option Recipe.Group} {result : JobResult}
    (consistent : Consistent graph options ⟨before, ⟨node :: rest, group⟩⟩)
    (arranged : Arranged graph.nodes) (ended : Ended result)
    (made : before.settle graph options node result = .ok after) :
    Consistent graph options ⟨after, ⟨rest, group⟩⟩ := by
  have building := (consistent.building_of_due node List.mem_cons_self).2
  have orderly := consistent.orderly.settle arranged building ended made
  obtain ⟨waiting, ready, rfl⟩ := consistent.eq_of_settle made
  exact ⟨orderly, consistent.working.close arranged ended.isFinal
    (fun name => State.status_put _ _ _ _), consistent.groups, consistent.carried,
    consistent.slots⟩

theorem finish {group : Recipe.Group} {result : JobResult}
    (consistent : Consistent graph options ⟨before, ⟨[], some group⟩⟩) (ended : Ended result) :
    Consistent graph options
      ⟨before.finishGroup group result, ⟨before.riders group, none⟩⟩ where
  orderly := by
    refine consistent.orderly.congr rfl rfl rfl rfl fun other found => ?_
    show (before.finished.set group result).get? other = some found → _
    rw [Table.get?_set]
    split
    · intro same
      exact Option.some.inj same ▸ ended
    · exact consistent.orderly.ended other found
  working := by
    refine consistent.working.perm ?_ rfl
    show (before.riders group ++ (before.running.map (·.node) ++
      (before.riding.erase group).flatMap (·.2))).Perm
        (before.running.map (·.node) ++ before.riding.flatMap (·.2))
    refine (List.perm_append_comm_assoc _ _ _).trans ?_
    exact ((Table.perm_flatMap_erase group before.riding).symm).append_left _
  groups := by
    show (before.riding.erase group).keys.Nodup
    rw [Table.keys_erase]
    exact consistent.groups.erase group
  carried := by
    intro other member
    have kept : other ∈ before.riding.keys.erase group :=
      Table.keys_erase group before.riding ▸ member
    rw [consistent.groups.mem_erase_iff] at kept
    rcases consistent.carried other kept.2 with due | flying
    · exact absurd (Option.some.inj due).symm kept.1
    · exact Or.inr flying
  slots := consistent.slots

/-- **Every change keeps the invariant.** -/
theorem change {one two : Moment} (consistent : Consistent graph options one)
    (arranged : Arranged graph.nodes) (change : Change graph options one two) :
    Consistent graph options two := by
  cases change with
  | skip enabled made => exact consistent.skip arranged enabled made
  | share enabled made => exact consistent.share arranged enabled made
  | ride enabled made => exact consistent.ride arranged enabled made
  | dispatch enabled made => exact consistent.dispatch arranged enabled made
  | land flying => exact consistent.land flying
  | settle ended made => exact consistent.settle arranged ended made
  | finish ended => exact consistent.finish ended

end Consistent

/-! ### The start -/

section Start

variable {plan : Plan} (options : Options)

theorem status_start (arranged : Arranged plan.graph.nodes) {node : Node}
    (member : node ∈ plan.graph.nodes) :
    (State.start plan options).status node.name = startStatus plan node := by
  show ((startStatuses plan).get? node.name).getD .unvisited = _
  unfold startStatuses
  rw [Table.get?_map_mem arranged.nodup member]
  rfl

/-- No node is unvisited at the start, and none is being worked on. -/
theorem status_start_ne (arranged : Arranged plan.graph.nodes) {node : Node}
    (member : node ∈ plan.graph.nodes) :
    (State.start plan options).status node.name ≠ .unvisited ∧
      (State.start plan options).status node.name ≠ .building := by
  rw [status_start options arranged member]
  unfold startStatus Node.initialStatus
  cases node.isSource with
  | true => simp [Status.isFinal]
  | false =>
    cases (plan.assessment node.name).mustBuild with
    | true => decide
    | false => decide

theorem openCount_start (arranged : Arranged plan.graph.nodes) {node : Node}
    (member : node ∈ plan.graph.nodes) :
    openCount (startStatuses plan) node = ((State.start plan options).openPrereqs node).length := by
  unfold openCount State.openPrereqs
  refine congrArg List.length (List.filter_congr fun prereq needed => ?_)
  obtain ⟨other, otherMember, rfl⟩ := arranged.closed member (mem_distinct.mp needed)
  rw [status_start options arranged otherMember]
  unfold startStatuses
  rw [Table.get?_map_mem arranged.nodup otherMember]
  rfl

theorem counted_start (arranged : Arranged plan.graph.nodes) :
    (State.start plan options).Counted plan.graph where
  waits := by
    intro node member pending
    rw [status_start options arranged member] at pending
    have listed : node ∈ plan.graph.nodes.filter fun node => startStatus plan node = .pending :=
      List.mem_filter.mpr ⟨member, decide_eq_true pending⟩
    have distinct : ((plan.graph.nodes.filter fun node =>
        startStatus plan node = .pending).map (·.name)).Nodup :=
      arranged.nodup.sublist (List.filter_sublist.map _)
    rw [← openCount_start options arranged member]
    unfold State.waitingFor State.start
    dsimp only
    rw [Table.get?_map_mem distinct listed]
    rfl
  ready := by
    intro node
    show node ∈ (List.filter _ _).filter _ ↔ _
    rw [List.mem_filter, List.mem_filter, and_assoc]
    refine and_congr_right fun member => ?_
    rw [decide_eq_true_iff, decide_eq_true_iff, status_start options arranged member,
      openCount_start options arranged member, List.length_eq_zero_iff]
  nodup := ((arranged.nodup.of_map _).filter _).filter _

/-- **The invariant holds at the start.** -/
theorem consistent_start (arranged : Arranged plan.graph.nodes) :
    Consistent plan.graph options ⟨State.start plan options, {}⟩ where
  orderly := by
    refine ⟨fun node member => (status_start_ne options arranged member).1,
      counted_start options arranged, fun node member works => ?_, fun group result found => ?_⟩
    · rcases works with building | submitted
      · exact absurd building (status_start_ne options arranged member).2
      · cases submitted
    · cases found
  working := by
    refine ⟨List.nodup_nil, fun node => ⟨fun member => ?_, fun both => ?_⟩⟩
    · cases member
    · exact absurd both.2 (status_start_ne options arranged both.1).2
  groups := List.nodup_nil
  carried := fun group member => by cases member
  slots := Nat.zero_add _

/-- **The invariant holds at every moment that a build can come to.** -/
theorem Passage.consistent (arranged : Arranged plan.graph.nodes) {options : Options}
    {past : List State} {moment : Moment}
    (passage : Passage plan.graph options (State.start plan options) past moment) :
    Consistent plan.graph options moment := by
  induction passage with
  | start => exact consistent_start options arranged
  | step passage change ih => exact ih.change arranged change

end Start

end BuildSystem.Schedule
