/-
**Statuses, counts, and the targets that are being worked on.**

* `begin_eq`, `ride_eq`, `dispatch_eq`, `skip_eq`, `settle_eq` — the changes of a state succeed on
  targets with the right status; `skip_frame`, `settle_frame` — what the last two do to a state.
* `Working` — the nodes in some list are exactly those that are being worked on, each once.
* `Orderly` — counts are right, and work has begun only after all prerequisites succeeded.
* `Orderly.begin`, `Orderly.settle`, `Orderly.skip`, `Orderly.congr` — the changes keep a state
  orderly.
-/

import BuildSystem.Proofs.Schedule.Change

namespace BuildSystem.Schedule

/-! ### Results of the changes -/

namespace State

variable {graph : Graph} {state : State} {node : Node}

theorem begin_eq (pending : state.status node.name = .pending) :
    state.begin node = .ok (state.popReady.put node.name .building) := by
  have opened : (state.popReady.status node.name).isFinal = false :=
    isFinal_of_pending pending
  unfold begin
  rw [changeStatus_eq opened]

theorem ride_eq (pending : state.status node.name = .pending) (group : Recipe.Group) :
    state.ride node group = .ok { state.popReady.put node.name .building with
      riding := state.riding.set group (state.riders group ++ [node]) } := by
  unfold ride
  rw [begin_eq pending]
  rfl

theorem dispatch_eq (pending : state.status node.name = .pending) (slot : Nat) (cost : Int) :
    state.dispatch node slot cost = .ok { state.popReady.put node.name .building with
      running := state.running ++ [⟨node, slot, state.clock + cost⟩]
      freeSlots := state.freeSlots.tail
      dispatched := state.dispatched ++ [node.name]
      riding := openGroup node state.riding } := by
  unfold dispatch
  rw [begin_eq pending]
  rfl

theorem skip_eq (pending : state.status node.name = .pending) :
    state.skip graph node =
      .ok ((state.popReady.put node.name .skipped).release graph node.name) := by
  have opened : (state.popReady.status node.name).isFinal = false :=
    isFinal_of_pending pending
  unfold skip
  rw [changeStatus_eq opened]
  rfl

theorem settle_eq (building : state.status node.name = .building) (options : Options)
    (result : JobResult) :
    state.settle graph options node result =
      .ok (((state.record options node result).put node.name result.status).release graph
        node.name) := by
  have opened : ((state.record options node result).status node.name).isFinal = false :=
    isFinal_of_building building
  unfold settle
  rw [changeStatus_eq opened]
  rfl

/-- **All that giving up a target does to a state.** -/
theorem skip_frame {after : State} (pending : state.status node.name = .pending)
    (made : state.skip graph node = .ok after) : ∃ (waiting : Table String Nat) (ready : List Node),
      after = { state.put node.name .skipped with waiting, ready } := by
  rw [skip_eq pending] at made
  obtain rfl := Except.ok.inj made
  exact release_frame graph node.name (state.popReady.put node.name .skipped)

/-- **All that settling a target does to a state.** -/
theorem settle_frame {after : State} {options : Options} {result : JobResult}
    (building : state.status node.name = .building)
    (made : state.settle graph options node result = .ok after) :
    ∃ (waiting : Table String Nat) (ready : List Node),
      after = { (state.record options node result).put node.name result.status with
        waiting, ready } := by
  rw [settle_eq building] at made
  obtain rfl := Except.ok.inj made
  exact release_frame graph node.name
    ((state.record options node result).put node.name result.status)

/-! ### Targets that are being worked on -/

/-- **The nodes in a list are exactly those that are being worked on**, each once. -/
structure Working (graph : Graph) (state : State) (nodes : List Node) : Prop where
  nodup : nodes.Nodup
  iff : ∀ node, node ∈ nodes ↔ node ∈ graph.nodes ∧ state.status node.name = .building

namespace Working

variable {nodes others : List Node} {after : State}

/-- The order does not matter, nor does anything but statuses. -/
theorem perm (working : state.Working graph nodes) (same : others.Perm nodes)
    (statuses : after.statuses = state.statuses) : after.Working graph others where
  nodup := same.nodup_iff.mpr working.nodup
  iff := by
    intro node
    unfold State.status
    rw [same.mem_iff, statuses]
    exact working.iff node

theorem begin (working : state.Working graph nodes) (arranged : Arranged graph.nodes)
    (member : node ∈ graph.nodes) (pending : state.status node.name = .pending)
    (changed : ∀ name, after.status name =
      if name = node.name then .building else state.status name) :
    after.Working graph (node :: nodes) where
  nodup := by
    refine List.nodup_cons.mpr ⟨fun working' => ?_, working.nodup⟩
    have building := ((working.iff node).mp working').2
    rw [pending] at building
    cases building
  iff := by
    intro other
    rw [List.mem_cons, working.iff, changed]
    by_cases same : other.name = node.name
    · rw [if_pos same]
      constructor
      · rintro (rfl | both)
        · exact ⟨member, rfl⟩
        · exact ⟨both.1, rfl⟩
      · rintro ⟨otherMember, _⟩
        exact Or.inl (arranged.eq_of_name otherMember member same)
    · rw [if_neg same]
      constructor
      · rintro (rfl | both)
        · exact absurd rfl same
        · exact both
      · exact Or.inr

theorem close {status : Status} (working : state.Working graph (node :: nodes))
    (arranged : Arranged graph.nodes) (final : status.isFinal = true)
    (changed : ∀ name, after.status name = if name = node.name then status else state.status name) :
    after.Working graph nodes where
  nodup := (List.nodup_cons.mp working.nodup).2
  iff := by
    intro other
    have member := ((working.iff node).mp List.mem_cons_self).1
    have once := (List.nodup_cons.mp working.nodup).1
    have known := working.iff other
    rw [List.mem_cons] at known
    rw [changed]
    constructor
    · intro later
      obtain ⟨otherMember, building⟩ := known.mp (Or.inr later)
      rw [if_neg]
      · exact ⟨otherMember, building⟩
      · intro same
        rw [arranged.eq_of_name otherMember member same] at later
        exact once later
    · rintro ⟨otherMember, building⟩
      split at building
      · rw [building] at final
        cases final
      · next differ =>
        rcases known.mpr ⟨otherMember, building⟩ with rfl | later
        · exact absurd rfl differ
        · exact later

theorem skip (working : state.Working graph nodes) {name : String}
    (pending : state.status name = .pending)
    (changed : ∀ other, after.status other =
      if other = name then .skipped else state.status other) :
    after.Working graph nodes where
  nodup := working.nodup
  iff := by
    intro other
    rw [working.iff, changed]
    refine and_congr_right fun _ => ?_
    split
    · next same =>
      rw [same, pending]
      exact ⟨fun building => (by cases building), fun building => (by cases building)⟩
    · rfl

end Working

/-! ### Statuses and counts -/

/-- What is neither open nor blocking has succeeded. -/
theorem eq_succeeded {status : Status} (final : status.isFinal = true)
    (free : status.blocks = false) : status = .succeeded := by
  cases status with
  | succeeded => rfl
  | unvisited => cases final
  | pending => cases final
  | building => cases final
  | failed => cases free
  | skipped => cases free

/-- **Counts are right, and work has begun only after all prerequisites succeeded.** -/
structure Orderly (graph : Graph) (state : State) : Prop where
  known : ∀ node ∈ graph.nodes, state.status node.name ≠ .unvisited
  counted : state.Counted graph
  begun : ∀ node ∈ graph.nodes, state.status node.name = .building ∨ node.name ∈ state.dispatched →
    ∀ prereq ∈ node.prereqs, state.status prereq = .succeeded
  ended : ∀ group result, state.finished.get? group = some result → Ended result

namespace Orderly

variable {after : State}

/-- The prerequisites of the first ready target have all succeeded, unless it is to be given up. -/
theorem prereqs_succeeded (orderly : state.Orderly graph) {rest : List Node}
    (first : state.ready = node :: rest) (free : state.Unblocked node) :
    ∀ prereq ∈ node.prereqs, state.status prereq = .succeeded := by
  intro prereq needed
  obtain ⟨_, _, done⟩ := (orderly.counted.ready node).mp (first ▸ List.mem_cons_self)
  refine eq_succeeded ?_ (free prereq needed)
  by_contra opened
  have member := mem_openPrereqs.mpr ⟨needed, Bool.eq_false_iff.mpr opened⟩
  rw [done] at member
  cases member

/-- One change of an open status: what had succeeded still has. -/
theorem of_put (orderly : state.Orderly graph) {name : String} {status : Status}
    (opened : (state.status name).isFinal = false) (visited : status ≠ .unvisited)
    (changed : ∀ other, after.status other = if other = name then status else state.status other)
    (counted : after.Counted graph)
    (fresh : ∀ node ∈ graph.nodes,
      after.status node.name = .building ∨ node.name ∈ after.dispatched →
        (state.status node.name = .building ∨ node.name ∈ state.dispatched) ∨
          ∀ prereq ∈ node.prereqs, state.status prereq = .succeeded)
    (finished : after.finished = state.finished) : after.Orderly graph where
  known := by
    intro node member
    rw [changed]
    split
    · exact visited
    · exact orderly.known node member
  counted := counted
  begun := by
    intro node member works prereq needed
    have succeeded : state.status prereq = .succeeded := by
      rcases fresh node member works with before | new
      · exact orderly.begun node member before prereq needed
      · exact new prereq needed
    rw [changed, if_neg]
    · exact succeeded
    · rintro rfl
      rw [succeeded] at opened
      cases opened
  ended := finished ▸ orderly.ended

theorem begin (orderly : state.Orderly graph) (arranged : Arranged graph.nodes) {rest : List Node}
    (first : state.ready = node :: rest) (free : state.Unblocked node)
    (statuses : after.statuses = (state.popReady.put node.name .building).statuses)
    (waiting : after.waiting = state.waiting) (ready : after.ready = state.ready.tail)
    (finished : after.finished = state.finished)
    (dispatched : ∀ name ∈ after.dispatched, name ∈ state.dispatched ∨ name = node.name) :
    after.Orderly graph := by
  obtain ⟨member, pending, _⟩ := (orderly.counted.ready node).mp (first ▸ List.mem_cons_self)
  have changed : ∀ name, after.status name =
      if name = node.name then .building else state.status name := by
    intro name
    rw [show state.status name = state.popReady.status name from rfl, ← status_put]
    unfold State.status
    rw [statuses]
  have opened := isFinal_of_pending pending
  refine orderly.of_put opened (by decide) changed
    ((orderly.counted.begin arranged first).congr statuses waiting ready) ?_ finished
  intro other otherMember works
  by_cases same : other.name = node.name
  · rw [arranged.eq_of_name otherMember member same]
    exact Or.inr (orderly.prereqs_succeeded first free)
  · rw [changed, if_neg same] at works
    rcases works with building | submitted
    · exact Or.inl (Or.inl building)
    · exact Or.inl (Or.inr ((dispatched _ submitted).resolve_right same))

/-- An open status becomes final: no work begins. -/
theorem of_final (orderly : state.Orderly graph) {name : String} {status : Status}
    (opened : (state.status name).isFinal = false) (final : status.isFinal = true)
    (changed : ∀ other, after.status other = if other = name then status else state.status other)
    (counted : after.Counted graph) (dispatched : after.dispatched = state.dispatched)
    (finished : after.finished = state.finished) : after.Orderly graph := by
  refine orderly.of_put opened ?_ changed counted (fun node _ works => ?_) finished
  · rintro rfl
    cases final
  · rw [changed, dispatched] at works
    split at works
    · rcases works with rfl | submitted
      · cases final
      · exact Or.inl (Or.inr submitted)
    · exact Or.inl works

theorem settle (orderly : state.Orderly graph) (arranged : Arranged graph.nodes)
    {options : Options} {result : JobResult} (building : state.status node.name = .building)
    (ended : Ended result) (made : state.settle graph options node result = .ok after) :
    after.Orderly graph := by
  have opened := isFinal_of_building building
  have begun : state.status node.name ≠ .pending := by
    rw [building]
    decide
  have recorded : (state.record options node result).Counted graph :=
    orderly.counted.congr rfl rfl rfl
  rw [settle_eq building] at made
  obtain rfl := Except.ok.inj made
  obtain ⟨waiting, ready, released⟩ := release_frame graph node.name
    ((state.record options node result).put node.name result.status)
  refine orderly.of_final opened ended.isFinal (fun other => ?_)
    (recorded.close arranged opened begun ended.isFinal) ?_ ?_
  · rw [status_release, status_put]
    rfl
  · rw [released]
    rfl
  · rw [released]
    rfl

theorem skip (orderly : state.Orderly graph) (arranged : Arranged graph.nodes) {rest : List Node}
    (first : state.ready = node :: rest) (made : state.skip graph node = .ok after) :
    after.Orderly graph := by
  obtain ⟨_, pending, _⟩ := (orderly.counted.ready node).mp (first ▸ List.mem_cons_self)
  have opened := isFinal_of_pending pending
  rw [skip_eq pending] at made
  obtain rfl := Except.ok.inj made
  -- For the counts this is as if the work on the target began and ended.
  have building : (state.popReady.put node.name .building).status node.name = .building := by
    rw [status_put, if_pos rfl]
  have counted : (((state.popReady.put node.name .building).put node.name .skipped).release graph
      node.name).Counted graph := by
    refine (orderly.counted.begin arranged first).close arranged ?_ ?_ rfl
    · rw [building]
      rfl
    · rw [building]
      decide
  rw [put_put] at counted
  obtain ⟨waiting, ready, released⟩ := release_frame graph node.name
    (state.popReady.put node.name .skipped)
  refine orderly.of_final opened (show Status.skipped.isFinal = true from rfl)
    (fun other => ?_) counted ?_ ?_
  · rw [status_release, status_put]
    rfl
  · rw [released]
    rfl
  · rw [released]
    rfl

/-- Changes of jobs, slots and riders change no statuses and no counts. -/
theorem congr (orderly : state.Orderly graph) (statuses : after.statuses = state.statuses)
    (waiting : after.waiting = state.waiting) (ready : after.ready = state.ready)
    (dispatched : after.dispatched = state.dispatched)
    (ended : ∀ group result, after.finished.get? group = some result → Ended result) :
    after.Orderly graph := by
  have sameStatus : ∀ name, after.status name = state.status name := by
    intro name
    unfold State.status
    rw [statuses]
  refine ⟨fun node member => ?_, orderly.counted.congr statuses waiting ready,
    fun node member works prereq needed => ?_, ended⟩
  · rw [sameStatus]
    exact orderly.known node member
  · rw [sameStatus, dispatched] at works
    rw [sameStatus]
    exact orderly.begun node member works prereq needed

end Orderly

end State

end BuildSystem.Schedule
