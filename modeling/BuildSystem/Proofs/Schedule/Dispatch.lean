/-
**No target has two jobs, and no group has two.**

A group is taken from the moment at which a job is submitted for one of its targets: first targets
ride on the job, and then its result is there.

* `State.Taken` — a group has a job in flight or the result of one.
* `Submitted` — what holds of the submitted jobs in every state of a build.
* `Submitted.congr`, `Submitted.dispatch` — changes without and with a new job keep it.
* `Passage.submitted` — so it holds at every moment.
* `AtMostOnce` — what it says about the jobs in the end.
-/

import BuildSystem.Proofs.Schedule.Statuses

namespace BuildSystem.Schedule

variable {plan : Plan} {graph : Graph} {options : Options} {one two : Moment}
  {before after : State}

/-- A group has a job in flight, or the result of one. -/
def State.Taken (state : State) (group : Recipe.Group) : Prop :=
  group ∈ state.riding.keys ∨ state.finished.get? group ≠ none

/-- **What holds of the submitted jobs**: they are for targets that must be built and on which work
has begun, no two are for one target, and their groups are taken and differ. -/
structure Submitted (plan : Plan) (state : State) : Prop where
  nodup : state.dispatched.Nodup
  begun : ∀ name ∈ state.dispatched, state.status name ≠ .pending ∧
    ∃ node ∈ plan.graph.nodes, node.name = name ∧ startStatus plan node = .pending
  taken : ∀ node ∈ plan.graph.nodes, node.name ∈ state.dispatched →
    ∀ group, Recipe.group? node = some group → state.Taken group
  alone : ∀ first ∈ plan.graph.nodes, first.name ∈ state.dispatched →
    ∀ second ∈ plan.graph.nodes, second.name ∈ state.dispatched →
      ∀ group, Recipe.group? first = some group → Recipe.group? second = some group →
        first = second

/-- Work that has begun is never taken back. -/
theorem Effect.of_pending (effect : Effect before after) {name : String}
    (pending : after.status name = .pending) : before.status name = .pending := by
  cases effect with
  | none same => exact same name ▸ pending
  | skips node rest first changed =>
    rw [changed] at pending
    split at pending
    · cases pending
    · exact pending
  | begins node rest first free changed =>
    rw [changed] at pending
    split at pending
    · cases pending
    · exact pending
  | settles node result building ended changed =>
    rw [changed] at pending
    split at pending
    · have final := ended.isFinal
      rw [pending] at final
      cases final
    · exact pending

namespace Submitted

/-- No job has been submitted. -/
theorem start (plan : Plan) (options : Options) : Submitted plan (State.start plan options) where
  nodup := List.nodup_nil
  begun := fun name member => by cases member
  taken := fun node _ submitted => by cases submitted
  alone := fun first _ submitted => by cases submitted

/-- Without a new job, it is enough that no group is given back. -/
theorem congr (submitted : Submitted plan before)
    (dispatched : after.dispatched = before.dispatched)
    (opens : ∀ name, after.status name = .pending → before.status name = .pending)
    (taken : ∀ group, before.Taken group → after.Taken group) : Submitted plan after where
  nodup := dispatched ▸ submitted.nodup
  begun := by
    intro name member
    obtain ⟨begun, found⟩ := submitted.begun name (dispatched ▸ member)
    exact ⟨fun pending => begun (opens name pending), found⟩
  taken := fun node member early group grouped =>
    taken group (submitted.taken node member (dispatched ▸ early) group grouped)
  alone := fun first firstMember one second secondMember two =>
    submitted.alone first firstMember (dispatched ▸ one) second secondMember (dispatched ▸ two)

/-- A job is submitted for a target on which no work has begun, and for a group that is not
taken. -/
theorem dispatch (submitted : Submitted plan before) (arranged : Arranged plan.graph.nodes)
    {node : Node} (member : node ∈ plan.graph.nodes) (stale : startStatus plan node = .pending)
    (pending : before.status node.name = .pending)
    (free : ∀ group, Recipe.group? node = some group → ¬ before.Taken group)
    (dispatched : after.dispatched = before.dispatched ++ [node.name])
    (begins : after.status node.name ≠ .pending)
    (opens : ∀ name, after.status name = .pending → before.status name = .pending)
    (taken : ∀ group, before.Taken group ∨ Recipe.group? node = some group → after.Taken group) :
    Submitted plan after := by
  have fresh : node.name ∉ before.dispatched := fun early => (submitted.begun _ early).1 pending
  have cases' : ∀ other ∈ plan.graph.nodes, other.name ∈ after.dispatched →
      other.name ∈ before.dispatched ∨ other = node := by
    intro other otherMember late
    rw [dispatched] at late
    rcases List.mem_append.mp late with early | new
    · exact Or.inl early
    · exact Or.inr (arranged.eq_of_name otherMember member (List.mem_singleton.mp new))
  refine ⟨?_, fun name late => ?_, fun other otherMember late group grouped => ?_, ?_⟩
  · rw [dispatched]
    exact List.nodup_append_comm.mp (List.nodup_cons.mpr ⟨fresh, submitted.nodup⟩)
  · rw [dispatched] at late
    rcases List.mem_append.mp late with early | new
    · obtain ⟨begun, found⟩ := submitted.begun name early
      exact ⟨fun pending => begun (opens name pending), found⟩
    · obtain rfl := List.mem_singleton.mp new
      exact ⟨begins, node, member, rfl, stale⟩
  · rcases cases' other otherMember late with early | rfl
    · exact taken group (Or.inl (submitted.taken other otherMember early group grouped))
    · exact taken group (Or.inr grouped)
  · intro first firstMember one second secondMember two group firstGroup secondGroup
    rcases cases' first firstMember one with firstEarly | rfl
    · rcases cases' second secondMember two with secondEarly | rfl
      · exact submitted.alone first firstMember firstEarly second secondMember secondEarly group
          firstGroup secondGroup
      · exact absurd (submitted.taken first firstMember firstEarly group firstGroup)
          (free group secondGroup)
    · rcases cases' second secondMember two with secondEarly | rfl
      · exact absurd (submitted.taken second secondMember secondEarly group secondGroup)
          (free group firstGroup)
      · rfl

end Submitted

/-- **Every change keeps what holds of the submitted jobs.** -/
theorem Change.submitted (arranged : Arranged plan.graph.nodes)
    (consistent : Consistent plan.graph options one) (explained : Explained plan one.state)
    (change : Change plan.graph options one two) (submitted : Submitted plan one.state) :
    Submitted plan two.state := by
  have opens : ∀ name, two.state.status name = .pending → one.state.status name = .pending :=
    fun name => (change.effect consistent).of_pending
  cases change with
  | skip enabled made =>
    obtain ⟨waiting, ready, rfl⟩ := consistent.eq_of_skip enabled made
    exact submitted.congr rfl opens fun _ => id
  | share enabled made =>
    obtain rfl := consistent.eq_of_share enabled made
    exact submitted.congr rfl opens fun _ => id
  | ride enabled made =>
    obtain rfl := consistent.eq_of_ride enabled made
    exact submitted.congr rfl opens fun group =>
      Or.imp_left fun old => Table.mem_keys_set.mpr (Or.inr old)
  | @dispatch node slot cost before after enabled made =>
    obtain rfl := consistent.eq_of_dispatch enabled made
    cases enabled with
    | dispatch first going free unfinished alone slotFree =>
      obtain ⟨member, pending⟩ := consistent.first_pending first
      have stale : startStatus plan node = .pending := by
        by_contra idle
        rw [explained.upToDate node member idle] at pending
        cases pending
      refine submitted.dispatch arranged member stale pending ?_ rfl ?_ opens ?_
      · rintro group grouped (rides | finished)
        · exact alone group grouped rides
        · exact finished (unfinished group grouped)
      · show (before.popReady.put node.name .building).status node.name ≠ .pending
        rw [State.status_put, if_pos rfl]
        decide
      · rintro group ((rides | finished) | own)
        · exact Or.inl (State.mem_keys_openGroup.mpr (Or.inl rides))
        · exact Or.inr finished
        · exact Or.inl (State.mem_keys_openGroup.mpr (Or.inr own))
  | land flying => exact submitted.congr rfl opens fun _ => id
  | settle ended made =>
    obtain ⟨waiting, ready, rfl⟩ := consistent.eq_of_settle made
    exact submitted.congr rfl opens fun _ => id
  | @finish group result before ended =>
    refine submitted.congr rfl opens ?_
    -- The group of the finished job is given up as one with riders, but now it has a result.
    intro other taken
    by_cases same : other = group
    · refine Or.inr ?_
      show (before.finished.set group result).get? other ≠ none
      rw [same, Table.get?_set_self]
      exact Option.some_ne_none result
    · refine taken.imp (fun rides => ?_) fun finished => ?_
      · show other ∈ (before.riding.erase group).keys
        rw [Table.keys_erase]
        exact (List.mem_erase_of_ne same).mpr rides
      · show (before.finished.set group result).get? other ≠ none
        rw [Table.get?_set_of_ne same]
        exact finished

/-- **At every moment that a build can come to, no target and no group has two jobs.** -/
theorem Passage.submitted (arranged : Arranged plan.graph.nodes) {past : List State}
    {moment : Moment}
    (passage : Passage plan.graph options (State.start plan options) past moment) :
    Submitted plan moment.state := by
  induction passage with
  | start => exact .start plan options
  | step passage change ih =>
    exact change.submitted arranged (passage.consistent arranged) (passage.explained arranged) ih

/-- **The targets for which jobs were submitted**: all of them must be built, none occurs twice, and
no two of them are made by one run of a recipe. -/
structure AtMostOnce (plan : Plan) (dispatched : List String) : Prop where
  nodup : dispatched.Nodup
  stale : ∀ name ∈ dispatched, ∃ node ∈ plan.stale, node.name = name
  alone : ∀ first ∈ plan.graph.nodes, first.name ∈ dispatched →
    ∀ second ∈ plan.graph.nodes, second.name ∈ dispatched →
      ∀ group, Recipe.group? first = some group → Recipe.group? second = some group →
        first = second

theorem Submitted.atMostOnce {state : State} (submitted : Submitted plan state) :
    AtMostOnce plan state.dispatched where
  nodup := submitted.nodup
  stale := by
    intro name member
    obtain ⟨_, node, nodeMember, named, pending⟩ := submitted.begun name member
    exact ⟨node, List.mem_filter.mpr
      ⟨nodeMember, ((startStatus_eq_pending_iff plan node).mp pending).2⟩, named⟩
  alone := submitted.alone

end BuildSystem.Schedule
