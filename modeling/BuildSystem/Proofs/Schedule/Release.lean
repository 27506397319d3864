/-
**Counting the prerequisites for which targets wait.**

* `openPrereqs` — the prerequisites of a node that are not final yet.
* `Counted` — every pending target counts its open prerequisites, and exactly the pending targets
  without any are ready.
* `release_eq` — all that a release does to a state: it counts down, and makes ready what waited for
  one prerequisite only.
* `Counted.begin`, `Counted.close` — the counts stay right when the work on a ready target begins,
  and when the work on a target ends.
* `roundLimit_release` — a release leaves no more moves to make than there were.
-/

import BuildSystem.Proofs.Graph.Arrangement
import BuildSystem.Schedule.State

namespace BuildSystem.Schedule.State

variable {state : State} {name : String} {status : Status}

/-! ### Statuses -/

theorem status_put (state : State) (name other : String) (status : Status) :
    (state.put name status).status other = if other = name then status else state.status other := by
  unfold put State.status
  rw [Table.get?_set]
  split
  · rfl
  · rfl

/-- Of two statuses of one target the second counts. -/
@[simp] theorem put_put (state : State) (name : String) (first second : Status) :
    (state.put name first).put name second = state.put name second := by
  unfold put
  rw [Table.set_set]

theorem changeStatus_eq (unsettled : (state.status name).isFinal = false) (status : Status) :
    state.changeStatus name status = .ok (state.put name status) := by
  unfold changeStatus Status.change
  rw [unsettled, if_neg Bool.false_ne_true]
  rfl

theorem isFinal_of_pending (pending : state.status name = .pending) :
    (state.status name).isFinal = false := by
  rw [pending]
  rfl

theorem isFinal_of_building (building : state.status name = .building) :
    (state.status name).isFinal = false := by
  rw [building]
  rfl

/-! ### Releases -/

/-- Whether a node waits for one prerequisite only. -/
def waitsForOne (state : State) (node : Node) : Bool :=
  state.status node.name = .pending && state.waitingFor node.name = 1

/-- A target that is told of a final prerequisite counts down if it is pending, and is ready if it
waited for one prerequisite only. -/
theorem arrive_eq (state : State) (node : Node) :
    ∃ waiting : Table String Nat, state.arrive node =
        { state with waiting, ready := state.ready ++ [node].filter state.waitsForOne } ∧
      ∀ name, (waiting.get? name).getD 0 =
        if name = node.name ∧ state.status name = .pending then state.waitingFor name - 1
        else state.waitingFor name := by
  unfold arrive waitsForOne
  by_cases pending : state.status node.name = .pending
  · rw [if_pos pending]
    split
    · next none =>
      refine ⟨state.waiting, by simp [none], fun name => ?_⟩
      split
      · next same =>
        rw [same.1, none]
        exact none
      · rfl
    · next one =>
      refine ⟨state.waiting.set node.name 0, by simp [one, pending], fun name => ?_⟩
      rw [Table.get?_set]
      by_cases same : name = node.name
      · rw [if_pos same, if_pos ⟨same, same ▸ pending⟩, same, one]
        rfl
      · rw [if_neg same, if_neg fun both => same both.1]
        rfl
    · next count more =>
      refine ⟨state.waiting.set node.name (count + 1), by simp [more], fun name => ?_⟩
      rw [Table.get?_set]
      by_cases same : name = node.name
      · rw [if_pos same, if_pos ⟨same, same ▸ pending⟩, same, more]
        rfl
      · rw [if_neg same, if_neg fun both => same both.1]
        rfl
  · refine ⟨state.waiting, by simp [pending], fun name => ?_⟩
    rw [if_neg]
    · rfl
    · rintro ⟨rfl, waits⟩
      exact pending waits

theorem foldl_arrive_eq (nodes : List Node) (distinct : (nodeNames nodes).Nodup) (state : State) :
    ∃ waiting : Table String Nat, nodes.foldl arrive state =
        { state with waiting, ready := state.ready ++ nodes.filter state.waitsForOne } ∧
      ∀ name, (waiting.get? name).getD 0 =
        if name ∈ nodeNames nodes ∧ state.status name = .pending then state.waitingFor name - 1
        else state.waitingFor name := by
  induction nodes generalizing state with
  | nil => exact ⟨state.waiting, by simp, fun name => by simp [waitingFor]⟩
  | cons node rest ih =>
    rw [nodeNames_cons, List.nodup_cons] at distinct
    obtain ⟨first, arrived, firstCounts⟩ := state.arrive_eq node
    obtain ⟨waiting, told, counts⟩ := ih distinct.2 (state.arrive node)
    have sameStatus : ∀ name, (state.arrive node).status name = state.status name := by
      intro name
      rw [arrived]
      rfl
    -- The other targets do not notice that the first one has counted down.
    have sameCount : ∀ name, name ≠ node.name →
        (state.arrive node).waitingFor name = state.waitingFor name := by
      intro name differ
      rw [arrived]
      exact (firstCounts name).trans (if_neg fun both => differ both.1)
    have sameOnes : rest.filter (state.arrive node).waitsForOne =
        rest.filter state.waitsForOne := by
      refine List.filter_congr fun other later => ?_
      have differ : other.name ≠ node.name := fun same =>
        distinct.1 (mem_nodeNames.mpr ⟨other, later, same⟩)
      unfold waitsForOne
      rw [sameStatus, sameCount other.name differ]
    refine ⟨waiting, ?_, fun name => ?_⟩
    · have split : (node :: rest).filter state.waitsForOne =
          [node].filter state.waitsForOne ++ rest.filter state.waitsForOne :=
        List.filter_append [node] rest
      rw [List.foldl_cons, told, sameOnes, arrived, split, List.append_assoc]
    · rw [counts name, sameStatus]
      by_cases same : name = node.name
      · have once : name ∉ nodeNames rest := same ▸ distinct.1
        have count : (state.arrive node).waitingFor name = (first.get? name).getD 0 := by
          rw [arrived]
          rfl
        rw [if_neg fun both => once both.1, count, firstCounts]
        simp [same]
      · rw [sameCount name same]
        simp [same]

/-- **All that a release does to a state.** -/
theorem release_eq {graph : Graph} (arranged : Arranged graph.nodes) (name : String)
    (state : State) :
    ∃ waiting : Table String Nat, state.release graph name =
        { state with
          waiting
          ready := state.ready ++ graph.nodes.filter fun node =>
            node.prereqs.contains name && state.waitsForOne node } ∧
      ∀ node ∈ graph.nodes, (waiting.get? node.name).getD 0 =
        if name ∈ node.prereqs ∧ state.status node.name = .pending then
          state.waitingFor node.name - 1
        else state.waitingFor node.name := by
  have distinct : (nodeNames (graph.nodes.filter (·.prereqs.contains name))).Nodup :=
    arranged.nodup.sublist (List.filter_sublist.map _)
  obtain ⟨waiting, told, counts⟩ := foldl_arrive_eq _ distinct state
  refine ⟨waiting, ?_, fun node member => ?_⟩
  · unfold release
    rw [told, List.filter_filter]
    congr 2
    refine List.filter_congr fun node _ => Bool.and_comm _ _
  · rw [counts]
    refine if_congr (and_congr_left fun _ => ?_) rfl rfl
    rw [mem_nodeNames]
    constructor
    · rintro ⟨other, otherMember, named⟩
      obtain ⟨otherMember, needs⟩ := List.mem_filter.mp otherMember
      rw [arranged.eq_of_name otherMember member named] at needs
      exact List.contains_iff_mem.mp needs
    · intro needs
      exact ⟨node, List.mem_filter.mpr ⟨member, List.contains_iff_mem.mpr needs⟩, rfl⟩

/-- A release changes only the counts and the ready queue. -/
theorem release_frame (graph : Graph) (name : String) (state : State) :
    ∃ (waiting : Table String Nat) (ready : List Node),
      state.release graph name = { state with waiting, ready } := by
  unfold release
  generalize graph.nodes.filter (·.prereqs.contains name) = nodes
  induction nodes generalizing state with
  | nil => exact ⟨state.waiting, state.ready, rfl⟩
  | cons node rest ih =>
    obtain ⟨_, arrived, _⟩ := state.arrive_eq node
    obtain ⟨waiting, ready, told⟩ := ih (state.arrive node)
    refine ⟨waiting, ready, ?_⟩
    rw [List.foldl_cons, told, arrived]

@[simp] theorem status_release (graph : Graph) (name other : String) (state : State) :
    (state.release graph name).status other = state.status other := by
  obtain ⟨waiting, ready, released⟩ := release_frame graph name state
  rw [released]
  rfl

/-! ### The bound on the number of moves -/

/-- An assignment changes the sum of the counts by the difference at its key. -/
theorem total_set {table : Table String Nat} {old : Nat} (found : table.get? name = some old)
    (value : Nat) : total (table.set name value) + old = total table + value := by
  induction table with
  | nil => cases found
  | cons entry rest ih =>
    obtain ⟨k, first⟩ := entry
    unfold Table.get? at found
    unfold Table.set
    by_cases same : k = name
    · rw [if_pos same] at found
      rw [if_pos same, ← Option.some.inj found, total, total]
      omega
    · rw [if_neg same] at found
      have further := ih found
      rw [if_neg same, total, total]
      omega

theorem get?_waiting {count : Nat} (waits : state.waitingFor name = count + 1) :
    state.waiting.get? name = some (count + 1) := by
  unfold waitingFor at waits
  cases found : state.waiting.get? name with
  | none =>
    rw [found] at waits
    cases waits
  | some value =>
    rw [found] at waits
    exact congrArg some waits

/-- A target that is told of a final prerequisite trades a count for a place in the queue at
most. -/
theorem roundLimit_arrive (state : State) (node : Node) :
    (state.arrive node).roundLimit ≤ state.roundLimit := by
  unfold arrive
  split
  · split
    · exact Nat.le_refl _
    · next one =>
      have sum := total_set (get?_waiting one) 0
      unfold roundLimit
      simp only [List.length_append, List.length_singleton]
      omega
    · next count more =>
      have sum := total_set (get?_waiting more) (count + 1)
      unfold roundLimit
      dsimp only
      omega
  · exact Nat.le_refl _

/-- **A release leaves no more moves to make than there were.** -/
theorem roundLimit_release (graph : Graph) (name : String) (state : State) :
    (state.release graph name).roundLimit ≤ state.roundLimit := by
  unfold release
  generalize graph.nodes.filter (·.prereqs.contains name) = nodes
  induction nodes generalizing state with
  | nil => exact Nat.le_refl _
  | cons node rest ih => exact Nat.le_trans (ih (state.arrive node)) (state.roundLimit_arrive node)

/-! ### Right counts -/

/-- The prerequisites of a node that are not final, each once. -/
def openPrereqs (state : State) (node : Node) : List String :=
  node.uniquePrereqs.filter fun prereq => !(state.status prereq).isFinal

/-- **Pending targets count their open prerequisites, and those without any are ready.** -/
structure Counted (graph : Graph) (state : State) : Prop where
  waits : ∀ node ∈ graph.nodes, state.status node.name = .pending →
    state.waitingFor node.name = (state.openPrereqs node).length
  ready : ∀ node, node ∈ state.ready ↔
    node ∈ graph.nodes ∧ state.status node.name = .pending ∧ state.openPrereqs node = []
  nodup : state.ready.Nodup

/-- A change that keeps a target open keeps the open prerequisites of all nodes. -/
theorem openPrereqs_put_of_open (opened : (state.status name).isFinal = false)
    (stays : status.isFinal = false) (node : Node) :
    (state.put name status).openPrereqs node = state.openPrereqs node := by
  unfold openPrereqs
  refine List.filter_congr fun prereq _ => ?_
  rw [status_put]
  split
  · next same => rw [same, opened, stays]
  · rfl

/-- When an open target becomes final, the nodes that need it have one open prerequisite less. -/
theorem openPrereqs_put_of_final (final : status.isFinal = true) (node : Node) :
    (state.put name status).openPrereqs node = (state.openPrereqs node).erase name := by
  have distinct : (state.openPrereqs node).Nodup := (nodup_distinct node.prereqs).filter _
  rw [distinct.erase_eq_filter]
  unfold openPrereqs
  rw [List.filter_filter]
  refine List.filter_congr fun prereq _ => ?_
  rw [status_put]
  by_cases same : prereq = name
  · simp [same, final]
  · simp [same]

theorem mem_openPrereqs {node : Node} {prereq : String} :
    prereq ∈ state.openPrereqs node ↔
      prereq ∈ node.prereqs ∧ (state.status prereq).isFinal = false := by
  unfold openPrereqs Node.uniquePrereqs
  rw [List.mem_filter, mem_distinct, Bool.not_eq_true']

namespace Counted

variable {graph : Graph}

/-- The counts depend on the statuses, the waiting table and the ready queue only. -/
theorem congr {other : State} (counted : state.Counted graph)
    (statuses : other.statuses = state.statuses) (waiting : other.waiting = state.waiting)
    (ready : other.ready = state.ready) : other.Counted graph := by
  have sameStatus : ∀ name, other.status name = state.status name := by
    intro name
    unfold State.status
    rw [statuses]
  have sameOpen : ∀ node, other.openPrereqs node = state.openPrereqs node := by
    intro node
    unfold openPrereqs
    simp only [sameStatus]
  refine ⟨fun node member pending => ?_, fun node => ?_, ready ▸ counted.nodup⟩
  · unfold waitingFor
    rw [waiting, sameOpen]
    exact counted.waits node member (sameStatus node.name ▸ pending)
  · rw [ready, sameStatus, sameOpen]
    exact counted.ready node

/-- **The counts stay right when the work on the first ready target begins.** -/
theorem begin (counted : state.Counted graph) (arranged : Arranged graph.nodes) {node : Node}
    {rest : List Node} (first : state.ready = node :: rest) :
    (state.popReady.put node.name .building).Counted graph := by
  obtain ⟨member, pending, done⟩ := (counted.ready node).mp (first ▸ List.mem_cons_self)
  have distinct := counted.nodup
  rw [first, List.nodup_cons] at distinct
  have opened : (state.popReady.status node.name).isFinal = false :=
    isFinal_of_pending pending
  have sameOpen : ∀ other, (state.popReady.put node.name .building).openPrereqs other =
      state.openPrereqs other := openPrereqs_put_of_open opened rfl
  have popped : (state.popReady.put node.name .building).ready = rest := by
    show state.ready.tail = rest
    rw [first]
    rfl
  -- The statuses of all other targets are as before.
  have stillPending : ∀ other : Node, (state.popReady.put node.name .building).status other.name =
      .pending ↔ other.name ≠ node.name ∧ state.status other.name = .pending := by
    intro other
    rw [status_put]
    split
    · next same => simp [same]
    · next differ => exact ⟨fun waits => ⟨differ, waits⟩, fun both => both.2⟩
  refine ⟨fun other otherMember waits => ?_, fun other => ?_, popped ▸ distinct.2⟩
  · rw [sameOpen]
    exact counted.waits other otherMember ((stillPending other).mp waits).2
  · rw [popped, sameOpen, stillPending]
    have queued := counted.ready other
    rw [first, List.mem_cons] at queued
    constructor
    · intro later
      obtain ⟨otherMember, waits, free⟩ := queued.mp (Or.inr later)
      refine ⟨otherMember, ⟨fun same => ?_, waits⟩, free⟩
      rw [arranged.eq_of_name otherMember member same] at later
      exact distinct.1 later
    · rintro ⟨otherMember, ⟨differ, waits⟩, free⟩
      rcases queued.mpr ⟨otherMember, waits, free⟩ with rfl | later
      · exact absurd rfl differ
      · exact later

section Close

variable (counted : state.Counted graph) (arranged : Arranged graph.nodes)
  (opened : (state.status name).isFinal = false) (begun : state.status name ≠ .pending)
  (final : status.isFinal = true)

include begun final in
/-- Only targets that were pending are pending when the work on another target ends. -/
theorem status_close_iff (other : String) :
    ((state.put name status).release graph name).status other = .pending ↔
      state.status other = .pending := by
  rw [status_release, status_put]
  split
  · next same =>
    refine ⟨fun waits => ?_, fun waits => absurd (same ▸ waits) begun⟩
    rw [waits] at final
    cases final
  · rfl

include final in
theorem openPrereqs_close (node : Node) :
    ((state.put name status).release graph name).openPrereqs node =
      (state.openPrereqs node).erase name := by
  rw [← openPrereqs_put_of_final final]
  unfold openPrereqs
  simp only [status_release]

include counted arranged opened begun final in
/-- A target that needs the one whose work ends has counted it, as it was open. -/
theorem waitingFor_close (node : Node) (member : node ∈ graph.nodes)
    (waits : state.status node.name = .pending) :
    ((state.put name status).release graph name).waitingFor node.name =
      ((state.openPrereqs node).erase name).length := by
  obtain ⟨waiting, released, counts⟩ := release_eq arranged name (state.put name status)
  have told : ((state.put name status).release graph name).waitingFor node.name =
      (waiting.get? node.name).getD 0 := by
    rw [released]
    rfl
  have stillWaits : (state.put name status).status node.name = .pending := by
    rw [← status_release graph name, status_close_iff begun final]
    exact waits
  have before : (state.put name status).waitingFor node.name =
      (state.openPrereqs node).length := counted.waits node member waits
  rw [told, counts node member, before]
  by_cases needs : name ∈ node.prereqs
  · rw [if_pos ⟨needs, stillWaits⟩,
      List.length_erase_of_mem (mem_openPrereqs.mpr ⟨needs, opened⟩)]
  · rw [if_neg fun both => needs both.1,
      List.erase_of_not_mem fun member => needs (mem_openPrereqs.mp member).1]

include counted arranged opened begun final in
/-- The targets that become ready were pending and had no other open prerequisite. -/
theorem ready_close : ∃ unlocked : List Node,
    ((state.put name status).release graph name).ready = state.ready ++ unlocked ∧
      unlocked.Nodup ∧ ∀ node, node ∈ unlocked ↔ node ∈ graph.nodes ∧
        state.status node.name = .pending ∧ state.openPrereqs node = [name] := by
  obtain ⟨waiting, released, _⟩ := release_eq arranged name (state.put name status)
  refine ⟨graph.nodes.filter fun node =>
      node.prereqs.contains name && (state.put name status).waitsForOne node, ?_,
    (arranged.nodup.of_map _).filter _, fun node => ?_⟩
  · rw [released]
    rfl
  · rw [List.mem_filter]
    refine and_congr_right fun member => ?_
    have before : ∀ waits : state.status node.name = .pending,
        (state.put name status).waitingFor node.name = (state.openPrereqs node).length :=
      counted.waits node member
    unfold waitsForOne
    rw [Bool.and_eq_true, Bool.and_eq_true, decide_eq_true_iff, decide_eq_true_iff,
      ← status_release graph name, status_close_iff begun final, List.contains_iff_mem]
    constructor
    · rintro ⟨needs, waits, one⟩
      have counts := mem_openPrereqs.mpr ⟨needs, opened⟩
      obtain ⟨only, isOnly⟩ := List.length_eq_one_iff.mp ((before waits).symm.trans one)
      rw [isOnly, List.mem_singleton] at counts
      exact ⟨waits, isOnly.trans (counts ▸ rfl)⟩
    · rintro ⟨waits, isOnly⟩
      have needs := mem_openPrereqs.mp (isOnly ▸ List.mem_singleton_self name)
      refine ⟨needs.1, waits, ?_⟩
      rw [before waits, isOnly]
      rfl

include counted arranged opened begun final in
/-- **The counts stay right when the work on a target ends.** -/
theorem close : ((state.put name status).release graph name).Counted graph := by
  obtain ⟨unlocked, ready, distinct, unlocks⟩ :=
    ready_close counted arranged opened begun final
  refine ⟨fun node member waits => ?_, fun node => ?_, ?_⟩
  · rw [openPrereqs_close final]
    exact waitingFor_close counted arranged opened begun final node member
      ((status_close_iff begun final _).mp waits)
  · rw [ready, List.mem_append, counted.ready, unlocks, status_close_iff begun final,
      openPrereqs_close final, ← and_or_left, ← and_or_left, List.erase_eq_nil_iff]
  · rw [ready, List.nodup_append]
    refine ⟨counted.nodup, distinct, ?_⟩
    rintro node early other late rfl
    have none := ((counted.ready node).mp early).2.2
    have some := ((unlocks node).mp late).2.2
    rw [none] at some
    cases some

end Close

end Counted

end BuildSystem.Schedule.State
