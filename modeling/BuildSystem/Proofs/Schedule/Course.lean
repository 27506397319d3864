/-
**The course of a build: its changes together with the work that is done.**

A moment says which results may come; a scene also holds the outside world, and an event says which
work has given a result and what the work has done to the world.

* `Stage`, `Scene` — the outside world, the state, and what is still to be done before the next
  move, with the result that is to be given to others.
* `Event` — the changes of which moves consist, each with its work.
* `Event.change` — every event is a change.
* `Course` — the scenes that a build can come to; `Course.passage` forgets the world.
* `Fault` — work that raises a failure in a scene.
* `Course.keeps` — what printing and events keep holds in every scene.
-/

import BuildSystem.Proofs.Schedule.Invariant

namespace BuildSystem.Schedule

variable {σ : Type}

/-! ### Scenes -/

/-- What is still to be done before the next move. -/
inductive Stage where
  | idle
  /-- The work of a job is to be done, and its target is to be settled. -/
  | working (job : Job)
  /-- The result of a job is to be recorded for its group. -/
  | finishing (group : Recipe.Group) (result : JobResult)
  /-- A result is to be shared with targets, and these are to be settled, in order. -/
  | sharing (result : JobResult) (nodes : List Node)

namespace Stage

/-- The targets that are due, and the group. -/
def due : Stage → Due
  | idle => {}
  | working job => ⟨[job.node], Recipe.group? job.node⟩
  | finishing group _ => ⟨[], some group⟩
  | sharing _ nodes => ⟨nodes, none⟩

/-- After the work of a job: the result is recorded for its group, if it has one. -/
def worked (job : Job) (result : JobResult) : Stage :=
  match Recipe.group? job.node with
  | some group => finishing group result
  | none => idle

/-- While a result is shared; afterwards nothing is to be done. -/
def shared (result : JobResult) : List Node → Stage
  | [] => idle
  | node :: rest => sharing result (node :: rest)

@[simp] theorem due_worked (job : Job) (result : JobResult) :
    (worked job result).due = ⟨[], Recipe.group? job.node⟩ := by
  unfold worked
  cases grouped : Recipe.group? job.node with
  | none => rfl
  | some group => rfl

@[simp] theorem due_shared (result : JobResult) (nodes : List Node) :
    (shared result nodes).due = ⟨nodes, none⟩ := by
  cases nodes with
  | nil => rfl
  | cons node rest => rfl

end Stage

/-- The outside world, the state, and what is still to be done. -/
structure Scene (σ : Type) where
  outside : σ
  state : State
  stage : Stage := .idle

/-- A scene without the world and the results. -/
def Scene.moment (scene : Scene σ) : Moment :=
  ⟨scene.state, scene.stage.due⟩

/-! ### Events -/

/-- **The changes of which moves consist, each with its work.** -/
inductive Event (setting : Setting σ) : Scene σ → Scene σ → Prop
  | skip {world : σ} {node : Node} {blocker : String} {before after : State}
      (enabled : Enabled before (.skip node blocker))
      (made : before.skip setting.graph node = .ok after) :
      Event setting ⟨world, before, .idle⟩ ⟨world, after, .idle⟩
  | share {world : σ} {node : Node} {result : JobResult} {before after : State}
      (enabled : Enabled before (.share node result)) (made : before.begin node = .ok after) :
      Event setting ⟨world, before, .idle⟩ ⟨world, after, .sharing result [node]⟩
  | ride {world : σ} {node : Node} {group : Recipe.Group} {before after : State}
      (enabled : Enabled before (.ride node group)) (made : before.ride node group = .ok after) :
      Event setting ⟨world, before, .idle⟩ ⟨world, after, .idle⟩
  | dispatch {world : σ} {node : Node} {slot : Nat} {cost : Int} {before after : State}
      (enabled : Enabled before (.dispatch node slot))
      (made : before.dispatch node slot cost = .ok after) :
      Event setting ⟨world, before, .idle⟩ ⟨world, after, .idle⟩
  | land {world : σ} {job : Job} {before : State} (flying : job ∈ before.running) :
      Event setting ⟨world, before, .idle⟩ ⟨world, before.land job, .working job⟩
  /-- The work of a job is done, and its target is settled. -/
  | work {world later : σ} {job : Job} {result : JobResult} {before after : State}
      (worked : contain setting.workers job world = .ok result later) (ended : Ended result)
      (made : before.settle setting.graph setting.options job.node result = .ok after) :
      Event setting ⟨world, before, .working job⟩ ⟨later, after, .worked job result⟩
  | finish {world : σ} {group : Recipe.Group} {result : JobResult} {before : State}
      (ended : Ended result) :
      Event setting ⟨world, before, .finishing group result⟩
        ⟨world, before.finishGroup group result, .shared result (before.riders group)⟩
  /-- A target takes a shared result, and is settled. -/
  | adopt {world later : σ} {node : Node} {rest : List Node} {result own : JobResult}
      {before after : State} (shared : setting.workers.share result node world = .ok own later)
      (ended : Ended own)
      (made : before.settle setting.graph setting.options node own = .ok after) :
      Event setting ⟨world, before, .sharing result (node :: rest)⟩
        ⟨later, after, .shared result rest⟩

/-- **Every event is a change.** -/
theorem Event.change {setting : Setting σ} {one two : Scene σ} (event : Event setting one two) :
    Change setting.graph setting.options one.moment two.moment := by
  cases event with
  | skip enabled made => exact .skip enabled made
  | share enabled made => exact .share enabled made
  | ride enabled made => exact .ride enabled made
  | dispatch enabled made => exact .dispatch enabled made
  | land flying => exact .land flying
  | work worked ended made =>
    unfold Scene.moment
    rw [Stage.due_worked]
    exact .settle ended made
  | finish ended =>
    unfold Scene.moment
    rw [Stage.due_shared]
    exact .finish ended
  | adopt shared ended made =>
    unfold Scene.moment
    rw [Stage.due_shared]
    exact .settle ended made

/-! ### Courses -/

/-- **The scenes that a build can come to**, with the states that it has left behind, in order. -/
inductive Course (setting : Setting σ) (start : State) (origin : σ) :
    List State → Scene σ → Prop
  | start : Course setting start origin [] ⟨origin, start, .idle⟩
  | print {past : List State} {world : σ} {state : State} {stage : Stage}
      (course : Course setting start origin past ⟨world, state, stage⟩) (piece : Printed) :
      Course setting start origin past ⟨setting.host.print piece world, state, stage⟩
  | event {past : List State} {one two : Scene σ} (course : Course setting start origin past one)
      (event : Event setting one two) : Course setting start origin (past ++ [one.state]) two

/-- Work that raises a failure in a scene. -/
inductive Fault (setting : Setting σ) (failure : Failure) : Scene σ → Prop
  | work {world later : σ} {state : State} {job : Job}
      (failed : contain setting.workers job world = .error failure later) :
      Fault setting failure ⟨world, state, .working job⟩
  | share {world later : σ} {state : State} {node : Node} {rest : List Node} {result : JobResult}
      (failed : setting.workers.share result node world = .error failure later) :
      Fault setting failure ⟨world, state, .sharing result (node :: rest)⟩

namespace Course

variable {setting : Setting σ} {start : State} {origin : σ} {past : List State} {scene : Scene σ}

/-- A course without the world and the results is a passage. -/
theorem passage (course : Course setting start origin past scene) :
    Passage setting.graph setting.options start past scene.moment := by
  induction course with
  | start => exact .start
  | print course piece ih => exact ih
  | event course event ih => exact ih.step event.change

theorem say {world : σ} {state : State} {stage : Stage}
    (course : Course setting start origin past ⟨world, state, stage⟩) (pieces : List Printed) :
    Course setting start origin past
      ⟨pieces.foldl (fun current piece => setting.host.print piece current) world, state,
        stage⟩ := by
  induction pieces generalizing world with
  | nil => exact course
  | cons piece rest ih => exact ih (course.print piece)

/-- **What printing and events keep holds in every scene of a course.** -/
theorem keeps {holds : Scene σ → Prop} (course : Course setting start origin past scene)
    (begins : holds ⟨origin, start, .idle⟩)
    (prints : ∀ world state stage piece, holds ⟨world, state, stage⟩ →
      holds ⟨setting.host.print piece world, state, stage⟩)
    (events : ∀ past one two, Course setting start origin past one → holds one →
      Event setting one two → holds two) : holds scene := by
  induction course with
  | start => exact begins
  | print course piece ih => exact prints _ _ _ piece ih
  | event course event ih => exact events _ _ _ course ih event

end Course

end BuildSystem.Schedule
