/-
**What a running build may do next.**

* `Enabled`, `enabled_next` — the conditions under which a move is chosen.
* `Moment` — a state, and what is still to be done for a job that has been finished.
* `Change` — the single changes of which moves consist.  Any job in flight may be the next one that
  is finished, and any work may succeed or fail.
* `Passage` — the moments that a build can come to, with the states that it has left behind.
-/

import BuildSystem.Proofs.Schedule.Release
import BuildSystem.Schedule.Run

namespace BuildSystem.Schedule

/-! ### Moves -/

/-- No prerequisite of a node has failed or has been given up. -/
def State.Unblocked (state : State) (node : Node) : Prop :=
  ∀ prereq ∈ node.prereqs, (state.status prereq).blocks = false

/-- **The conditions under which a move is chosen.** -/
inductive Enabled (state : State) : Move → Prop
  /-- The first ready target has a prerequisite that was not built. -/
  | skip {node : Node} {rest : List Node} {blocker : String} (first : state.ready = node :: rest)
      (going : state.aborted = false) (needed : blocker ∈ node.prereqs)
      (blocks : (state.status blocker).blocks = true) : Enabled state (.skip node blocker)
  /-- The job of its group is finished. -/
  | share {node : Node} {rest : List Node} {group : Recipe.Group} {result : JobResult}
      (first : state.ready = node :: rest) (going : state.aborted = false)
      (free : state.Unblocked node) (grouped : Recipe.group? node = some group)
      (found : state.finished.get? group = some result) : Enabled state (.share node result)
  /-- The job of its group is in flight. -/
  | ride {node : Node} {rest : List Node} {group : Recipe.Group}
      (first : state.ready = node :: rest) (going : state.aborted = false)
      (free : state.Unblocked node) (grouped : Recipe.group? node = some group)
      (carried : group ∈ state.riding.keys) : Enabled state (.ride node group)
  /-- Its group, if it has one, has no job yet, and there is a free slot. -/
  | dispatch {node : Node} {rest : List Node} {slot : Nat} {slots : List Nat}
      (first : state.ready = node :: rest) (going : state.aborted = false)
      (free : state.Unblocked node)
      (unfinished : ∀ group, Recipe.group? node = some group → state.finished.get? group = none)
      (alone : ∀ group, Recipe.group? node = some group → group ∉ state.riding.keys)
      (slotFree : state.freeSlots = slot :: slots) : Enabled state (.dispatch node slot)
  /-- A job is in flight. -/
  | await (flying : state.running ≠ []) : Enabled state .await
  /-- No job is in flight, and none can be submitted. -/
  | stop (landed : state.running = [])
      (stuck : state.ready = [] ∨ state.aborted = true ∨ state.freeSlots = []) : Enabled state .stop

namespace State

theorem enabled_wait {state : State}
    (stuck : state.ready = [] ∨ state.aborted = true ∨ state.freeSlots = []) :
    Enabled state state.wait := by
  unfold wait
  split
  · next landed => exact .stop (List.isEmpty_iff.mp landed) stuck
  · next flying => exact .await fun landed => flying (List.isEmpty_iff.mpr landed)

/-- **The next move is enabled.** -/
theorem enabled_next (state : State) : Enabled state state.next := by
  unfold next
  split
  · next none => exact enabled_wait (Or.inl none)
  · next node rest first =>
    split
    · next aborted => exact enabled_wait (Or.inr (Or.inl aborted))
    · next going =>
      rw [Bool.not_eq_true] at going
      split
      · next blocker found =>
        exact .skip first going (mem_distinct.mp (List.mem_of_find?_eq_some found))
          (by simpa using List.find?_some found)
      · next unblocked =>
        have free : state.Unblocked node := fun prereq needed => by
          simpa using List.find?_eq_none.mp unblocked prereq (mem_distinct.mpr needed)
        dsimp only
        split
        · next result found =>
          obtain ⟨group, grouped, found⟩ := Option.bind_eq_some_iff.mp found
          exact .share first going free grouped found
        · next unfinished =>
          split
          · next group carried =>
            obtain ⟨grouped, carried⟩ := Option.filter_eq_some_iff.mp carried
            exact .ride first going free grouped (Table.contains_iff.mp carried)
          · next alone =>
            split
            · next slot slots slotFree =>
              refine .dispatch first going free (fun group grouped => ?_) (fun group grouped => ?_)
                slotFree
              · rw [grouped] at unfinished
                exact unfinished
              · intro carried
                have rides := Option.filter_eq_none_iff.mp alone group grouped
                exact rides (Table.contains_iff.mpr carried)
            · next full => exact enabled_wait (Or.inr (Or.inr full))

/-- Where nothing is left to do, no job is in flight. -/
theorem landed_of_stop {state : State} (stops : state.next = .stop) : state.running = [] := by
  have enabled := state.enabled_next
  rw [stops] at enabled
  cases enabled with
  | stop landed stuck => exact landed

end State

/-! ### Changes -/

/-- Work that has come to an end has succeeded or failed. -/
def Ended (result : JobResult) : Prop :=
  result.status = .succeeded ∨ result.status = .failed

theorem Ended.isFinal {result : JobResult} (ended : Ended result) :
    result.status.isFinal = true := by
  rcases ended with succeeded | failed
  · rw [succeeded]
    rfl
  · rw [failed]
    rfl

/-- What is still to be done for a job that has been finished. -/
structure Due where
  /-- The targets that are to be settled next, in order. -/
  nodes : List Node := []
  /-- The group of the job, if its riders are to be settled after these. -/
  group : Option Recipe.Group := none

/-- A state, and what is still to be done before the next move. -/
structure Moment where
  state : State
  due : Due := {}

/-- **The changes of which moves consist.** -/
inductive Change (graph : Graph) (options : Options) : Moment → Moment → Prop
  | skip {node : Node} {blocker : String} {before after : State}
      (enabled : Enabled before (.skip node blocker)) (made : before.skip graph node = .ok after) :
      Change graph options ⟨before, {}⟩ ⟨after, {}⟩
  /-- A target takes the result of its group, and is to be settled. -/
  | share {node : Node} {result : JobResult} {before after : State}
      (enabled : Enabled before (.share node result)) (made : before.begin node = .ok after) :
      Change graph options ⟨before, {}⟩ ⟨after, ⟨[node], none⟩⟩
  | ride {node : Node} {group : Recipe.Group} {before after : State}
      (enabled : Enabled before (.ride node group)) (made : before.ride node group = .ok after) :
      Change graph options ⟨before, {}⟩ ⟨after, {}⟩
  | dispatch {node : Node} {slot : Nat} {cost : Int} {before after : State}
      (enabled : Enabled before (.dispatch node slot))
      (made : before.dispatch node slot cost = .ok after) :
      Change graph options ⟨before, {}⟩ ⟨after, {}⟩
  /-- Any job in flight is finished, and its target is to be settled. -/
  | land {job : Job} {before : State} (flying : job ∈ before.running) :
      Change graph options ⟨before, {}⟩
        ⟨before.land job, ⟨[job.node], Recipe.group? job.node⟩⟩
  | settle {node : Node} {rest : List Node} {group : Option Recipe.Group} {result : JobResult}
      {before after : State} (ended : Ended result)
      (made : before.settle graph options node result = .ok after) :
      Change graph options ⟨before, ⟨node :: rest, group⟩⟩ ⟨after, ⟨rest, group⟩⟩
  /-- The riders of a group are to be settled. -/
  | finish {group : Recipe.Group} {result : JobResult} {before : State} (ended : Ended result) :
      Change graph options ⟨before, ⟨[], some group⟩⟩
        ⟨before.finishGroup group result, ⟨before.riders group, none⟩⟩

/-- **The moments that a build can come to**, with the states that it has left behind, in order. -/
inductive Passage (graph : Graph) (options : Options) (start : State) : List State → Moment → Prop
  | start : Passage graph options start [] ⟨start, {}⟩
  | step {past : List State} {before after : Moment}
      (passage : Passage graph options start past before)
      (change : Change graph options before after) :
      Passage graph options start (past ++ [before.state]) after

end BuildSystem.Schedule
