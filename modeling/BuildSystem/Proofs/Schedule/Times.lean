/-
**The times on record for targets.**

When the recipe of a target has run, the time of the target's file is put on record.  A time of zero
counts as missing there: another time stands in for it, that of the clock, or the one on record for
the target whose job was done.

* `Leads`, `Leads.keeps_succeeded` — printing and events lead from one scene to another, and keep
  the times on record.
* `Making` — the two scenes between which a target is made, and the time that stands in.
* `Workers.Timely`, `timely_ofPlan` — the times of the results of work.
* `Clocked`, `Course.clocked` — every success that may be shared has a time.
* `Event.making`, `Making.records` — a target succeeds by being made, and then has the time of its
  file on record, or the one that stands in.
* `Timed`, `Course.timed` — so has every target that has been made, as long as the build goes on.
* `runPlan_timed` — so it is after every run, whether or not it breaks off.
* `not_recordsFileTimes` — a file whose time is zero does not have its time on record.
-/

import BuildSystem.Proofs.Schedule.Carrying
import BuildSystem.Proofs.Schedule.Containment

namespace BuildSystem

/-! ### The times of results -/

theorem recordedTime_file {time : Int} (there : time ≠ 0) (otherwise : Option Int) :
    recordedTime (some time) otherwise = some time :=
  if_neg there

theorem recordedTime_missing {time : Option Int} (missing : time = none ∨ time = some 0)
    (otherwise : Option Int) : recordedTime time otherwise = otherwise := by
  rcases missing with rfl | rfl
  · rfl
  · rfl

theorem recordedTime_ne_none (time : Option Int) (standIn : Int) :
    recordedTime time (some standIn) ≠ none := by
  cases time with
  | none => exact Option.some_ne_none standIn
  | some value =>
    show (if value = 0 then some standIn else some value) ≠ none
    split
    · exact Option.some_ne_none standIn
    · exact Option.some_ne_none value

namespace Executor

variable {σ : Type} {executor : Executor} {host : Host σ} {node : Node}

/-- **The time of a recipe that has run** is that of the target's file, with the clock as a
stand-in. -/
theorem ends_runRecipe_timed (host : Host σ) (node : Node) (newer : List String) (recipe : String)
    (slot : Nat) (world : σ) :
    Ends (fun result after => result.status = .succeeded → result.time =
        recordedTime (if node.isVirtual then none else host.modified node.name after)
          (some (host.now after)))
      (fun _ _ => True) (executor.runRecipe host node newer recipe slot world) := by
  refine Ends.get (Ends.andThen world fun completion after => ?_)
  by_cases ran : completion.exitCode = 0
  · rw [if_pos ran]
    exact .ok fun _ => rfl
  · rw [if_neg ran]
    exact Ends.andThen after fun _ later => .ok fun succeeded => by cases succeeded

/-- Work that succeeds has a time. -/
theorem ends_execute_timed (running : executor.dryRun = false) (making : executor.touchOnly = false)
    (host : Host σ) (node : Node) (newer : List String) (slot : Nat) (world : σ) :
    Ends (fun result after => result.status = .succeeded → result.time ≠ none ∧
        (node.recipe ≠ none → node.isVirtual = false →
          result.time = recordedTime (host.modified node.name after) (some (host.now after))))
      (fun _ _ => True) (executor.execute host node newer slot world) := by
  unfold execute
  rw [if_neg (by simp [running]), if_neg (by simp [making])]
  cases given : node.recipe with
  | none =>
    rw [Recipe.command, given]
    exact .ok fun _ => ⟨Option.some_ne_none _, fun recipe => absurd rfl recipe⟩
  | some recipe =>
    rw [Recipe.command, given]
    refine (ends_runRecipe_timed host node newer _ slot world).imp ?_
    intro result after timed succeeded
    rw [timed succeeded]
    refine ⟨recordedTime_ne_none _ _, fun _ real => ?_⟩
    rw [if_neg (by simp [real])]

/-- **The time of a success that is shared** is that of the target's file, with the time of the
success as a stand-in. -/
theorem share_timed (running : executor.dryRun = false) (making : executor.touchOnly = false)
    {result : JobResult} (succeeded : result.status = .succeeded) (real : node.isVirtual = false)
    (world : σ) :
    executor.share host result node world =
      .ok { result with
        name := node.name
        output := ""
        time := recordedTime (host.modified node.name world) result.time } world := by
  unfold share
  rw [if_neg (not_not.mpr succeeded), if_neg (by simp [running, real]), making]
  rfl

end Executor

namespace Schedule

variable {σ : Type}

/-! ### Workers -/

/-- **The times of the results of work**: those of the targets' files, unless these count as
missing. -/
structure Workers.Timely (workers : Workers σ) (host : Host σ) : Prop where
  execute : ∀ node slot world, Ends
    (fun result after => result.status = .succeeded → result.time ≠ none ∧
      (node.recipe ≠ none → node.isVirtual = false →
        result.time = recordedTime (host.modified node.name after) (some (host.now after))))
    (fun _ _ => True) (workers.execute node slot world)
  share : ∀ result node world, result.status = .succeeded → node.isVirtual = false →
    Ends
      (fun own after => own.time = recordedTime (host.modified node.name after) result.time)
      (fun _ _ => True) (workers.share result node world)

theorem timely_ofPlan {executor : Executor} (running : executor.dryRun = false)
    (making : executor.touchOnly = false) (host : Host σ) (console : Console) (options : Options)
    (plan : Plan) (cost : String → Int) (order : Order σ) :
    (Setting.ofPlan host console options executor plan cost order).workers.Timely host where
  execute := fun node slot world =>
    Executor.ends_execute_timed running making host node _ slot world
  share := fun result node world succeeded real => by
    show Ends _ _ (executor.share host result node world)
    rw [Executor.share_timed running making succeeded real world]
    exact .ok rfl

/-! ### The making of a target -/

/-- **Printing and events lead from one scene to another.** -/
inductive Leads (setting : Setting σ) (one : Scene σ) : Scene σ → Prop
  | refl : Leads setting one one
  | print {world : σ} {state : State} {stage : Stage}
      (leads : Leads setting one ⟨world, state, stage⟩) (piece : Printed) :
      Leads setting one ⟨setting.host.print piece world, state, stage⟩
  | event {two three : Scene σ} (leads : Leads setting one two) (event : Event setting two three) :
      Leads setting one three

/-- **A target is made between two scenes**: its job succeeds, or it takes the success of another
one.  A time stands in for that of its file: the clock when the job is done, or the time of the
success that is taken. -/
inductive Making (setting : Setting σ) : Node → (one two : Scene σ) → (standIn : Int) → Prop
  | job {world later : σ} {job : Job} {result : JobResult} {before after : State}
      (worked : setting.workers.execute job.node job.slot world = .ok result later)
      (succeeded : result.status = .succeeded)
      (made : before.settle setting.graph setting.options job.node result = .ok after) :
      Making setting job.node ⟨world, before, .working job⟩ ⟨later, after, .worked job result⟩
        (setting.host.now later)
  | share {world later : σ} {node : Node} {rest : List Node} {result own : JobResult}
      {before after : State} {standIn : Int}
      (shared : setting.workers.share result node world = .ok own later)
      (succeeded : own.status = .succeeded) (dated : result.time = some standIn)
      (made : before.settle setting.graph setting.options node own = .ok after) :
      Making setting node ⟨world, before, .sharing result (node :: rest)⟩
        ⟨later, after, .shared result rest⟩ standIn

/-- The time on record for a target is that of its file in a world, unless there is none or it is
zero; then it is the time that stands in. -/
structure Records (host : Host σ) (world : σ) (standIn : Int) (name : String) (state : State) :
    Prop where
  file : ∀ time, host.modified name world = some time → time ≠ 0 →
    state.times.get? name = some (some time)
  standIn : host.modified name world = none ∨ host.modified name world = some 0 →
    state.times.get? name = some (some standIn)

/-- **A target has been made on the way to a scene, and has the time of its file on record**, as it
was in the world in which the making ended. -/
structure Timed (setting : Setting σ) (start : State) (origin : σ) (scene : Scene σ) (node : Node) :
    Prop where
  made : ∃ early one two standIn, Course setting start origin early one ∧
    Making setting node one two standIn ∧ Leads setting two scene
  recorded : ∀ early one two standIn, Course setting start origin early one →
    Making setting node one two standIn → Leads setting two scene →
      Records setting.host two.outside standIn node.name scene.state

section Courses

variable {setting : Setting σ} {plan : Plan} {start : State} {origin : σ} {past : List State}
  {scene one two : Scene σ} {node : Node}

/-- A making is an event. -/
theorem Making.event {standIn : Int} (making : Making setting node one two standIn) :
    Event setting one two := by
  cases making with
  | @job world later job result before after worked succeeded made =>
    refine .work ?_ (Or.inl succeeded) made
    show EStateM.tryCatch (setting.workers.execute job.node job.slot) _ world = _
    unfold EStateM.tryCatch
    rw [worked]
  | share shared succeeded dated made => exact .adopt shared (Or.inl succeeded) made

/-- Settling a target leaves the times on record for others. -/
theorem Consistent.times_settle {graph : Graph} {options : Options} {before after : State}
    {rest : List Node} {group : Option Recipe.Group} {result : JobResult}
    (consistent : Consistent graph options ⟨before, ⟨node :: rest, group⟩⟩)
    (made : before.settle graph options node result = .ok after) {name : String}
    (differ : name ≠ node.name) : after.times.get? name = before.times.get? name := by
  obtain ⟨waiting, ready, rfl⟩ := consistent.eq_of_settle made
  show (if result.time.isSome then before.times.set node.name result.time
    else before.times).get? name = _
  split
  · exact Table.get?_set_of_ne differ _ _
  · rfl

/-- What has succeeded keeps its status and the time on record for it. -/
theorem Event.keeps_succeeded (consistent : Consistent setting.graph setting.options one.moment)
    (event : Event setting one two) {name : String}
    (succeeded : one.state.status name = .succeeded) :
    two.state.status name = .succeeded ∧
      two.state.times.get? name = one.state.times.get? name := by
  refine ⟨(event.change.effect consistent).of_succeeded consistent succeeded, ?_⟩
  have other : ∀ {node : Node}, one.state.status node.name = .building → name ≠ node.name := by
    rintro node building rfl
    rw [building] at succeeded
    cases succeeded
  by_cases quiet : one.stage.Quiet
  · rw [(event.records_of_quiet consistent quiet).1]
  · cases event with
    | work worked ended made =>
      exact consistent.times_settle made (other (consistent.status_settle made).1)
    | adopt shared ended made =>
      exact consistent.times_settle made (other (consistent.status_settle made).1)
    | _ => exact absurd trivial quiet

theorem Course.consistent (same : setting.graph = plan.graph) (arranged : Arranged plan.graph.nodes)
    (course : Course setting (State.start plan setting.options) origin past scene) :
    Consistent setting.graph setting.options scene.moment := by
  have passage := course.passage
  rw [same] at passage ⊢
  exact passage.consistent arranged

theorem Leads.course {early : List State} (course : Course setting start origin early one)
    (leads : Leads setting one two) : ∃ past, Course setting start origin past two := by
  induction leads with
  | refl => exact ⟨early, course⟩
  | print leads piece ih =>
    obtain ⟨past, further⟩ := ih
    exact ⟨past, further.print piece⟩
  | event leads event ih =>
    obtain ⟨past, further⟩ := ih
    exact ⟨_, further.event event⟩

/-- **What has succeeded stays so**, and so does the time on record for it. -/
theorem Leads.keeps_succeeded {early : List State} (same : setting.graph = plan.graph)
    (arranged : Arranged plan.graph.nodes)
    (course : Course setting (State.start plan setting.options) origin early one)
    (leads : Leads setting one two) {name : String}
    (succeeded : one.state.status name = .succeeded) :
    two.state.status name = .succeeded ∧
      two.state.times.get? name = one.state.times.get? name := by
  induction leads with
  | refl => exact ⟨succeeded, rfl⟩
  | print leads piece ih => exact ih
  | event leads event ih =>
    obtain ⟨past, further⟩ := leads.course course
    obtain ⟨status, time⟩ := event.keeps_succeeded (further.consistent same arranged) ih.1
    exact ⟨status, time.trans ih.2⟩

/-! ### Results that may be shared -/

/-- The result that is to be given to others. -/
def Stage.result? : Stage → Option JobResult
  | idle | working _ => none
  | finishing _ result | sharing result _ => some result

/-- Every success that may be shared has a time. -/
structure Clocked (scene : Scene σ) : Prop where
  finished : ∀ group result, scene.state.finished.get? group = some result →
    result.status = .succeeded → result.time ≠ none
  stage : ∀ result, scene.stage.result? = some result →
    result.status = .succeeded → result.time ≠ none

theorem Stage.result?_worked {job : Job} {result taken : JobResult}
    (given : (worked job result).result? = some taken) : taken = result := by
  unfold worked at given
  cases grouped : Recipe.group? job.node with
  | none =>
    rw [grouped] at given
    cases given
  | some group =>
    rw [grouped] at given
    exact (Option.some.inj given).symm

theorem Stage.result?_shared {result taken : JobResult} {nodes : List Node}
    (given : (shared result nodes).result? = some taken) : taken = result := by
  cases nodes with
  | nil => cases given
  | cons node rest => exact (Option.some.inj given).symm

/-- **Every event keeps the times of the successes that may be shared.** -/
theorem Clocked.event (timely : setting.workers.Timely setting.host)
    (consistent : Consistent setting.graph setting.options one.moment) (clocked : Clocked one)
    (event : Event setting one two) : Clocked two := by
  have idle : ∀ result, Stage.idle.result? = some result →
      result.status = .succeeded → result.time ≠ none := fun _ given => by cases given
  cases event with
  | skip enabled made =>
    obtain ⟨waiting, ready, rfl⟩ := consistent.eq_of_skip enabled made
    exact ⟨clocked.finished, idle⟩
  | share enabled made =>
    obtain rfl := consistent.eq_of_share enabled made
    refine ⟨clocked.finished, fun result given => ?_⟩
    obtain rfl := Option.some.inj given
    cases enabled with
    | share first going free own found => exact clocked.finished _ _ found
  | ride enabled made =>
    obtain rfl := consistent.eq_of_ride enabled made
    exact ⟨clocked.finished, idle⟩
  | dispatch enabled made =>
    obtain rfl := consistent.eq_of_dispatch enabled made
    exact ⟨clocked.finished, idle⟩
  | land flying => exact ⟨clocked.finished, fun _ given => by cases given⟩
  | @work world later job result before after worked ended made =>
    obtain ⟨waiting, ready, rfl⟩ := consistent.eq_of_settle made
    refine ⟨clocked.finished, fun taken given succeeded => ?_⟩
    obtain rfl := Stage.result?_worked given
    rcases contain_cases worked with worked | ⟨failure, raised, survives, rfl⟩
    · exact ((worked ▸ timely.execute job.node job.slot world).of_ok succeeded).1
    · cases succeeded
  | @finish world group result before ended =>
    refine ⟨fun other found given => ?_, fun taken given => ?_⟩
    · have given : (before.finished.set group result).get? other = some found := given
      rw [Table.get?_set] at given
      split at given
      · obtain rfl := Option.some.inj given
        exact clocked.stage _ rfl
      · exact clocked.finished other found given
    · obtain rfl := Stage.result?_shared given
      exact clocked.stage _ rfl
  | adopt shared ended made =>
    obtain ⟨waiting, ready, rfl⟩ := consistent.eq_of_settle made
    refine ⟨clocked.finished, fun taken given => ?_⟩
    obtain rfl := Stage.result?_shared given
    exact clocked.stage _ rfl

/-- **Every success that may be shared in a scene has a time.** -/
theorem Course.clocked (timely : setting.workers.Timely setting.host)
    (same : setting.graph = plan.graph) (arranged : Arranged plan.graph.nodes)
    (course : Course setting (State.start plan setting.options) origin past scene) :
    Clocked scene :=
  course.keeps ⟨fun _ _ found => (by cases found), fun _ given => (by cases given)⟩
    (fun _ _ _ _ clocked => ⟨clocked.finished, clocked.stage⟩)
    fun _ _ _ further clocked event =>
      clocked.event timely (further.consistent same arranged) event

/-! ### What is on record -/

/-- A target has succeeded when it has been made. -/
theorem Making.succeeded {standIn : Int} (making : Making setting node one two standIn)
    (consistent : Consistent setting.graph setting.options one.moment) :
    two.state.status node.name = .succeeded := by
  cases making with
  | job worked succeeded made => exact (State.Holds.settle consistent made).status.trans succeeded
  | share shared succeeded dated made =>
    exact (State.Holds.settle consistent made).status.trans succeeded

/-- A target that succeeds when one is settled is the one. -/
theorem Consistent.eq_of_settle_succeeded {graph : Graph} {options : Options}
    {before after : State} {other : Node} {rest : List Node} {group : Option Recipe.Group}
    {result : JobResult} (arranged : Arranged graph.nodes)
    (consistent : Consistent graph options ⟨before, ⟨other :: rest, group⟩⟩)
    (made : before.settle graph options other result = .ok after) (member : node ∈ graph.nodes)
    (unmade : before.status node.name ≠ .succeeded)
    (succeeded : after.status node.name = .succeeded) :
    node = other ∧ result.status = .succeeded := by
  rw [(consistent.status_settle made).2] at succeeded
  split at succeeded
  · next own =>
    exact ⟨arranged.eq_of_name member
      (consistent.building_of_due other List.mem_cons_self).1 own, succeeded⟩
  · exact absurd succeeded unmade

/-- **A target succeeds by being made.** -/
theorem Event.making (lawful : setting.workers.Lawful) (arranged : Arranged setting.graph.nodes)
    (consistent : Consistent setting.graph setting.options one.moment) (clocked : Clocked one)
    (event : Event setting one two) (member : node ∈ setting.graph.nodes)
    (unmade : one.state.status node.name ≠ .succeeded)
    (succeeded : two.state.status node.name = .succeeded) :
    ∃ standIn, Making setting node one two standIn := by
  by_cases quiet : one.stage.Quiet
  · have unchanged := event.status_of_quiet consistent quiet (Or.inl succeeded)
    exact absurd (unchanged.trans succeeded) unmade
  · cases event with
    | work worked ended made =>
      obtain ⟨rfl, success⟩ :=
        consistent.eq_of_settle_succeeded arranged made member unmade succeeded
      rcases contain_cases worked with worked | ⟨failure, raised, survives, rfl⟩
      · exact ⟨_, .job worked success made⟩
      · cases success
    | @adopt world later other rest result own before after shared ended made =>
      obtain ⟨rfl, success⟩ :=
        consistent.eq_of_settle_succeeded arranged made member unmade succeeded
      have status : own.status = result.status := (shared ▸ lawful.share result node world).of_ok
      obtain ⟨standIn, dated⟩ :=
        Option.ne_none_iff_exists'.mp (clocked.stage result rfl (status ▸ success))
      exact ⟨standIn, .share shared success dated made⟩
    | _ => exact absurd trivial quiet

/-- **A target that is made has the time of its file on record.** -/
theorem Making.records (lawful : setting.workers.Lawful)
    (timely : setting.workers.Timely setting.host)
    (consistent : Consistent setting.graph setting.options one.moment) {standIn : Int}
    (making : Making setting node one two standIn) (recipe : node.recipe ≠ none)
    (real : node.isVirtual = false) :
    two.state.times.get? node.name =
      some (recordedTime (setting.host.modified node.name two.outside) (some standIn)) := by
  cases making with
  | @job world later job result before after worked succeeded made =>
    have timed := ((worked ▸ timely.execute job.node job.slot world).of_ok succeeded).2 recipe real
    have holds := State.Holds.settle consistent made
    exact timed ▸ holds.time (timed ▸ recordedTime_ne_none _ _)
  | @share world later node rest result own before after standIn shared succeeded dated made =>
    have status : own.status = result.status := (shared ▸ lawful.share result node world).of_ok
    have timed := (shared ▸ timely.share result node world (status ▸ succeeded) real).of_ok
    rw [dated] at timed
    have holds := State.Holds.settle consistent made
    exact timed ▸ holds.time (timed ▸ recordedTime_ne_none _ _)

/-- Every target that must be built and has succeeded has been made. -/
theorem Course.exists_making (lawful : setting.workers.Lawful)
    (timely : setting.workers.Timely setting.host) (same : setting.graph = plan.graph)
    (arranged : Arranged plan.graph.nodes)
    (course : Course setting (State.start plan setting.options) origin past scene)
    (member : node ∈ plan.graph.nodes) (stale : startStatus plan node = .pending)
    (succeeded : scene.state.status node.name = .succeeded) :
    ∃ early one two standIn,
      Course setting (State.start plan setting.options) origin early one ∧
        Making setting node one two standIn ∧ Leads setting two scene := by
  induction course with
  | start =>
    rw [status_start _ arranged member, stale] at succeeded
    cases succeeded
  | print course piece ih =>
    obtain ⟨early, one, two, standIn, before, making, leads⟩ := ih succeeded
    exact ⟨early, one, two, standIn, before, making, leads.print piece⟩
  | @event past one two course event ih =>
    by_cases made : one.state.status node.name = .succeeded
    · obtain ⟨early, first, second, standIn, before, making, leads⟩ := ih made
      exact ⟨early, first, second, standIn, before, making, leads.event event⟩
    · obtain ⟨standIn, making⟩ := event.making lawful (same ▸ arranged)
        (course.consistent same arranged) (course.clocked timely same arranged) (same ▸ member)
        made succeeded
      exact ⟨past, one, two, standIn, course, making, .refl⟩

/-- **Every target that must be built and has succeeded has the time of its file on record.** -/
theorem Course.timed (lawful : setting.workers.Lawful)
    (timely : setting.workers.Timely setting.host) (same : setting.graph = plan.graph)
    (arranged : Arranged plan.graph.nodes)
    (course : Course setting (State.start plan setting.options) origin past scene)
    (member : node ∈ plan.graph.nodes) (stale : startStatus plan node = .pending)
    (recipe : node.recipe ≠ none) (real : node.isVirtual = false)
    (succeeded : scene.state.status node.name = .succeeded) :
    Timed setting (State.start plan setting.options) origin scene node where
  made := course.exists_making lawful timely same arranged member stale succeeded
  recorded := by
    intro early one two standIn before making leads
    have consistent := before.consistent same arranged
    have record := making.records lawful timely consistent recipe real
    have later : Course setting (State.start plan setting.options) origin _ two :=
      before.event making.event
    rw [← (leads.keeps_succeeded same arranged later (making.succeeded consistent)).2] at record
    refine ⟨fun time there nonzero => ?_, fun missing => ?_⟩
    · rw [record, there, recordedTime_file nonzero]
    · rw [record, recordedTime_missing missing]

end Courses

/-! ### Runs -/

/-- **The targets that have been made have the times of their files on record**, according to every
course of the build so far; and there is such a course. -/
structure Dated (setting : Setting σ) (plan : Plan) (origin : σ) (progress : Progress σ) :
    Prop where
  led : ∃ scene, Course setting (State.start plan setting.options) origin progress.past scene ∧
    scene.state = progress.state
  timed : ∀ scene, Course setting (State.start plan setting.options) origin progress.past scene →
    scene.state = progress.state →
      ∀ node ∈ plan.graph.nodes, startStatus plan node = .pending →
        node.recipe ≠ none → node.isVirtual = false →
          progress.state.status node.name = .succeeded →
            Timed setting (State.start plan setting.options) origin scene node

variable {rules : RuleSet} {available : String → Bool} {targets : List String} {plan : Plan}
  {executor : Executor}

/-- **Every file that a run makes has its time on record**, unless the time is zero: whatever
commands do, whatever the clock shows, in whatever order jobs are finished, and whether or not the
run breaks off, a target that must be built and has succeeded has on record the time that its file
had when its job ended, or when it took the result of another job.  A missing file, or a file with
the time zero, has the time on record that stands in. -/
theorem runPlan_timed (built : (Graph.build rules available targets).1 = .ok plan.graph)
    (running : executor.dryRun = false) (making : executor.touchOnly = false) (host : Host σ)
    (console : Console) (options : Options) (cost : String → Int) (order : Order σ)
    (outside : σ) :
    Ends
      (fun _ progress =>
        Dated (.ofPlan host console options executor plan cost order) plan outside progress)
      (fun _ progress =>
        Dated (.ofPlan host console options executor plan cost order) plan outside progress)
      (runPlan (.ofPlan host console options executor plan cost order) plan outside) := by
  have arranged := build_arranged built
  have lawful := lawful_ofPlan host console options executor plan cost order
  have timely := timely_ofPlan running making host console options plan cost order
  have timed : ∀ (progress : Progress σ) (scene : Scene σ),
      Course (.ofPlan host console options executor plan cost order) (State.start plan options)
        outside progress.past scene → scene.state = progress.state →
      Dated (.ofPlan host console options executor plan cost order) plan outside progress := by
    intro progress scene course there
    refine ⟨⟨scene, course, there⟩, fun other along thereToo => ?_⟩
    intro node member stale recipe real succeeded
    exact along.timed lawful timely rfl arranged member stale recipe real (thereToo ▸ succeeded)
  refine (runPlan_course rfl arranged lawful outside).mono ?_ ?_
  · rintro _ progress ⟨course, -⟩
    exact timed progress _ course rfl
  · rintro failure progress founders
    obtain ⟨scene, cause, course, there, -⟩ := founders.fault
    exact timed progress scene course there

/-! ### A file with the time zero -/

/-- Every file that has been made on the way to a scene has its time on record. -/
def RecordsFileTimes (setting : Setting σ) (start : State) (origin : σ) (scene : Scene σ) : Prop :=
  ∀ node : Node, node.recipe ≠ none → node.isVirtual = false →
    ∀ early one two standIn, Course setting start origin early one →
      Making setting node one two standIn → Leads setting two scene →
        ∀ time, setting.host.modified node.name two.outside = some time →
          scene.state.times.get? node.name = some (some time)

/-- The list of tokens. -/
def lexNode : Node where
  name := "tokens"
  recipe := some "lex"
  allTargets := ["tokens"]
  location := some ⟨"mkfile", 6⟩
  origin := .explicit

/-- The list is missing. -/
def lexPlan : Plan where
  graph := { nodes := [lexNode], roots := ["tokens"] }
  assessments := [("tokens", { mustBuild := true, reasons := [.missing] })]

/-- The recipe gives the list a time. -/
def stampedWorld (time : Int) : World where
  script := { byTarget := [("tokens", { written := [("tokens", some time)] })] }

/-- The list is made by a single worker. -/
def lexSetting : Setting World :=
  .ofPlan World.host {} {} { values := [] } lexPlan (fun _ => 1) .byFinish

theorem build_lexRules :
    (Graph.build tokenRules (fun _ => false) ["tokens"]).1 = .ok lexPlan.graph := by
  rfl

theorem evaluate_lexPlan (time : Int) :
    Plan.evaluate World.host {} {} lexPlan.graph (stampedWorld time) =
      .ok lexPlan (stampedWorld time) := by
  rfl

/-- The list has a time before the epoch, which is on record. -/
theorem runPlan_timed_tokens :
    (Graph.build tokenRules (fun _ => false) ["tokens"]).1 = .ok lexPlan.graph ∧
    Plan.evaluate World.host {} {} lexPlan.graph (stampedWorld (-5)) =
      .ok lexPlan (stampedWorld (-5)) ∧
    ∃ progress, runPlan lexSetting lexPlan (stampedWorld (-5)) = .ok () progress ∧
      Dated lexSetting lexPlan (stampedWorld (-5)) progress ∧
      progress.state.status "tokens" = .succeeded ∧
      progress.state.times.get? "tokens" = some (some (-5)) := by
  have running : ({ values := [] } : Executor).dryRun = false := rfl
  have ends := runPlan_timed build_lexRules running rfl World.host {} {} (fun _ => 1) .byFinish
    (stampedWorld (-5))
  have recorded : (match runPlan lexSetting lexPlan (stampedWorld (-5)) with
      | .ok _ progress => decide (progress.state.status "tokens" = .succeeded ∧
          progress.state.times.get? "tokens" = some (some (-5)))
      | .error _ _ => false) = true := by
    decide +kernel
  change Ends _ _ (runPlan lexSetting lexPlan (stampedWorld (-5))) at ends
  generalize runPlan lexSetting lexPlan (stampedWorld (-5)) = result at ends recorded ⊢
  cases ends with
  | ok dated =>
    obtain ⟨succeeded, time⟩ := of_decide_eq_true recorded
    exact ⟨build_lexRules, evaluate_lexPlan (-5), _, rfl, dated, succeeded, time⟩
  | error broken => cases recorded

/-- **A file whose time is zero**: the list has that time when its job has ended, but the time of
the clock is on record. -/
theorem not_recordsFileTimes :
    (Graph.build tokenRules (fun _ => false) ["tokens"]).1 = .ok lexPlan.graph ∧
    Plan.evaluate World.host {} {} lexPlan.graph (stampedWorld 0) = .ok lexPlan (stampedWorld 0) ∧
    ∃ progress, runPlan lexSetting lexPlan (stampedWorld 0) = .ok () progress ∧
      ¬ RecordsFileTimes lexSetting (State.start lexPlan {}) (stampedWorld 0)
        ⟨progress.outside, progress.state, .idle⟩ := by
  have begins : Enabled (State.start lexPlan {}) (.dispatch lexNode 0) :=
    State.enabled_next (State.start lexPlan {})
  have dispatched : Course lexSetting (State.start lexPlan {}) (stampedWorld 0) _ ⟨_, _, .idle⟩ :=
    .event .start (.dispatch begins
      (rfl : State.dispatch lexNode 0 1 (State.start lexPlan {}) = .ok _))
  have landed := (dispatched.print (Console.outputLine "lex")).event
    (.land (List.mem_singleton_self (⟨lexNode, 0, 1⟩ : Job)))
  have worked : lexSetting.workers.execute lexNode 0
    { stampedWorld 0 with printed := [Console.outputLine "lex"] } = .ok _ _ := rfl
  refine ⟨build_lexRules, evaluate_lexPlan 0, _, rfl, fun records => ?_⟩
  have record := records lexNode (by decide) (by decide) _ _ _ _ landed
    (@Making.job _ lexSetting _ _ ⟨lexNode, 0, 1⟩ _ _ _ worked rfl rfl) .refl 0 rfl
  cases record

end Schedule

end BuildSystem
