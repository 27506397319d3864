/-
**A run follows a course until nothing is left to do.**

* `Change.roundLimit_lt`, `roundLimit_settle` — the first change of a move lowers the bound on the
  number of moves, and settling a target does not raise it.
* `Workers.Lawful` — work that ends has succeeded or failed.
* `Reaches`, `Raises` — the worlds to which a build can lead, and the failures that end it there:
  interruptions of jobs, and what sharing raises.
* `Stands`, `Breaks`, `Founders` — where a build stands, how it breaks off, and on which work.
* `ends_perform` — a move leads from a scene to a scene, with one move less to make.
* `runPlan_course`, `runPlan_ends` — a run of a plan ends where nothing is left to do, or breaks
  off.
* `run_keeps` — a run that meets no fault has a result, and what events keep holds of it.
-/

import BuildSystem.Proofs.Ending
import BuildSystem.Proofs.Schedule.Course

namespace BuildSystem.Schedule

/-! ### The number of moves -/

section Bound

variable {graph : Graph} {options : Options}

theorem roundLimit_begin {state : State} {node : Node} {rest : List Node}
    (first : state.ready = node :: rest) (status : Status) :
    (state.popReady.put node.name status).roundLimit + 2 = state.roundLimit := by
  show 2 * State.total state.waiting + 2 * state.ready.tail.length + state.running.length + 2 =
    2 * State.total state.waiting + 2 * state.ready.length + state.running.length
  rw [first, List.tail_cons, List.length_cons]
  omega

/-- **The first change of a move lowers the bound on the number of moves.** -/
theorem Change.roundLimit_lt {before after : State} {due : Due}
    (consistent : Consistent graph options ⟨before, {}⟩)
    (change : Change graph options ⟨before, {}⟩ ⟨after, due⟩) :
    after.roundLimit < before.roundLimit := by
  have pending : ∀ {node : Node} {rest : List Node}, before.ready = node :: rest →
      before.status node.name = .pending := fun first => (consistent.first_pending first).2
  cases change with
  | @skip node blocker _ _ enabled made =>
    cases enabled with
    | skip first going needed blocks =>
      rw [State.skip_eq (pending first)] at made
      obtain rfl := Except.ok.inj made
      have begun := roundLimit_begin first .skipped
      have released := State.roundLimit_release graph node.name
        (before.popReady.put node.name .skipped)
      omega
  | share enabled made =>
    obtain rfl := consistent.eq_of_share enabled made
    cases enabled with
    | share first going free grouped found =>
      have begun := roundLimit_begin first .building
      omega
  | @ride node group _ _ enabled made =>
    obtain rfl := consistent.eq_of_ride enabled made
    cases enabled with
    | ride first going free grouped carried =>
      have begun := roundLimit_begin first .building
      show State.roundLimit (before.popReady.put node.name .building) < _
      omega
  | @dispatch node slot cost _ _ enabled made =>
    obtain rfl := consistent.eq_of_dispatch enabled made
    cases enabled with
    | dispatch first going free unfinished alone slotFree =>
      have begun : 2 * State.total before.waiting + 2 * before.ready.tail.length +
        before.running.length + 2 = _ := roundLimit_begin first .building
      show 2 * State.total before.waiting + 2 * before.ready.tail.length +
        (before.running ++ [(⟨node, slot, before.clock + cost⟩ : Job)]).length < _
      rw [List.length_append, List.length_singleton]
      omega
  | @land job _ flying =>
    have some := List.length_pos_of_mem flying
    show 2 * State.total before.waiting + 2 * before.ready.length +
      (before.running.erase job).length < _
    rw [List.length_erase_of_mem flying]
    unfold State.roundLimit
    omega

theorem roundLimit_settle {before after : State} {node : Node} {result : JobResult}
    (building : before.status node.name = .building)
    (made : before.settle graph options node result = .ok after) :
    after.roundLimit ≤ before.roundLimit := by
  rw [State.settle_eq building] at made
  obtain rfl := Except.ok.inj made
  exact State.roundLimit_release graph node.name
    ((before.record options node result).put node.name result.status)

end Bound

/-! ### Work -/

variable {σ : Type}

/-- Work that ends has succeeded or failed, and a result that is shared keeps its status. -/
structure Workers.Lawful (workers : Workers σ) : Prop where
  execute : ∀ node slot state,
    Ends (fun result _ => Ended result) (fun _ _ => True) (workers.execute node slot state)
  share : ∀ result node state,
    Ends (fun shared _ => shared.status = result.status) (fun _ _ => True)
      (workers.share result node state)

/-- The worlds to which printing and work lead, whether the work fails or not. -/
inductive Reaches (setting : Setting σ) (origin : σ) : σ → Prop
  | start : Reaches setting origin origin
  | print {before : σ} (piece : Printed) (reached : Reaches setting origin before) :
      Reaches setting origin (setting.host.print piece before)
  | execute {before after : σ} (node : Node) (slot : Nat) (reached : Reaches setting origin before)
      (ends : Ends (fun _ world => world = after) (fun _ world => world = after)
        (setting.workers.execute node slot before)) : Reaches setting origin after
  | share {before after : σ} (result : JobResult) (node : Node)
      (reached : Reaches setting origin before)
      (ends : Ends (fun _ world => world = after) (fun _ world => world = after)
        (setting.workers.share result node before)) : Reaches setting origin after

/-- **The failures that end a build before its time**, in the worlds to which it can lead. -/
inductive Raises (setting : Setting σ) (origin : σ) (failure : Failure) : Prop
  /-- A job is interrupted. -/
  | interruption (node : Node) (slot : Nat) (before after : σ)
      (reached : Reaches setting origin before) (interrupts : failure.isInterruption = true)
      (raised : setting.workers.execute node slot before = .error failure after)
  /-- The result of a job cannot be given to another target. -/
  | sharing (result : JobResult) (node : Node) (before after : σ)
      (reached : Reaches setting origin before)
      (raised : setting.workers.share result node before = .error failure after)

section Work

variable {setting : Setting σ} {origin before : σ}

theorem Reaches.say (reached : Reaches setting origin before) (pieces : List Printed) :
    Reaches setting origin
      (pieces.foldl (fun current piece => setting.host.print piece current) before) := by
  induction pieces generalizing before with
  | nil => exact reached
  | cons piece rest ih => exact ih (reached.print piece)

/-- Work that is contained ends, or is interrupted. -/
theorem ends_contain (lawful : setting.workers.Lawful) (job : Job)
    (reached : Reaches setting origin before) :
    Ends (fun result after => Ended result ∧ Reaches setting origin after)
      (fun failure after => Raises setting origin failure ∧ Reaches setting origin after)
      (contain setting.workers job before) := by
  unfold contain
  refine Ends.tryCatch ?_
  have executed := lawful.execute job.node job.slot before
  cases outcome : setting.workers.execute job.node job.slot before with
  | ok result after =>
    rw [outcome] at executed
    exact .ok ⟨executed.of_ok, reached.execute job.node job.slot (outcome ▸ .ok rfl)⟩
  | error failure after =>
    have further : Reaches setting origin after :=
      reached.execute job.node job.slot (outcome ▸ .error rfl)
    refine .error ?_
    split
    · next interrupts =>
      exact .error
        ⟨.interruption job.node job.slot before after reached interrupts outcome, further⟩
    · exact .ok ⟨Or.inr rfl, further⟩

/-- No failure but an interruption leaves the work of a job. -/
theorem ends_contain_interrupted (workers : Workers σ) (job : Job) (before : σ) :
    Ends (fun _ _ => True) (fun failure _ => failure.isInterruption = true)
      (contain workers job before) := by
  unfold contain
  refine Ends.tryCatch ?_
  cases workers.execute job.node job.slot before with
  | ok result after => exact .ok trivial
  | error failure after =>
    refine .error ?_
    split
    · next interrupts => exact .error interrupts
    · exact .ok trivial

/-- **What work that is contained keeps is kept when a build breaks off**: the work of the jobs that
are still in flight is contained too, one after the other. -/
theorem ends_drain_of_contain {workers : Workers σ} {keeps : σ → Prop}
    {raises : Failure → σ → Prop}
    (contained : ∀ job before, keeps before →
      Ends (fun _ after => keeps after) raises (contain workers job before))
    (count : Nat) (jobs : List Job) (start : keeps before) :
    Ends (fun _ after => keeps after) raises (drain workers count jobs before) := by
  induction count generalizing jobs before with
  | zero => exact .ok start
  | succ count ih =>
    cases jobs with
    | nil => exact .ok start
    | cons job others =>
      unfold drain
      refine Ends.get (Ends.bind ((contained _ before start).imp ?_))
      exact fun _ after kept => ih _ kept

/-- No failure but an interruption leaves the work of the jobs that are still in flight. -/
theorem ends_drain_interrupted (workers : Workers σ) (count : Nat) (jobs : List Job) (before : σ) :
    Ends (fun _ _ => True) (fun failure _ => failure.isInterruption = true)
      (drain workers count jobs before) :=
  ends_drain_of_contain (fun job before _ => ends_contain_interrupted workers job before) count jobs
    trivial

theorem ends_workers_share (lawful : setting.workers.Lawful) {result : JobResult} (node : Node)
    (ended : Ended result) (reached : Reaches setting origin before) :
    Ends (fun shared after => Ended shared ∧ Reaches setting origin after)
      (fun failure after => Raises setting origin failure ∧ Reaches setting origin after)
      (setting.workers.share result node before) := by
  have shares := lawful.share result node before
  cases outcome : setting.workers.share result node before with
  | ok shared after =>
    rw [outcome] at shares
    have same : shared.status = result.status := shares.of_ok
    have sharedEnded : Ended shared := by
      unfold Ended
      rw [same]
      exact ended
    exact .ok ⟨sharedEnded, reached.share result node (outcome ▸ .ok rfl)⟩
  | error failure after =>
    exact .error ⟨.sharing result node before after reached outcome,
      reached.share result node (outcome ▸ .error rfl)⟩

/-- The work that is left when a build breaks off ends, or is interrupted too. -/
theorem ends_drain (lawful : setting.workers.Lawful) (count : Nat) (jobs : List Job)
    (reached : Reaches setting origin before) :
    Ends (fun _ after => Reaches setting origin after)
      (fun failure after => Raises setting origin failure ∧ Reaches setting origin after)
      (drain setting.workers count jobs before) :=
  ends_drain_of_contain
    (fun job _ reached => (ends_contain lawful job reached).imp fun _ _ both => both.2) count jobs
    reached

end Work

/-! ### Where a build stands -/

/-- **A build stands at a scene of its course**, in a world to which its work has led; the invariant
holds, and the number of moves that are left to make is bounded. -/
structure Stands (setting : Setting σ) (start : State) (origin : σ) (stage : Stage) (bound : Nat)
    (progress : Progress σ) : Prop where
  course : Course setting start origin progress.past ⟨progress.outside, progress.state, stage⟩
  reached : Reaches setting origin progress.outside
  consistent : Consistent setting.graph setting.options ⟨progress.state, stage.due⟩
  bounded : progress.state.roundLimit ≤ bound

/-- **A build breaks off** at a moment to which changes have led, because of work that raises a
failure. -/
structure Breaks (setting : Setting σ) (start : State) (origin : σ) (failure : Failure)
    (progress : Progress σ) : Prop where
  passage : ∃ due, Passage setting.graph setting.options start progress.past ⟨progress.state, due⟩
  reached : Reaches setting origin progress.outside
  raises : Raises setting origin failure

/-- A build breaks off, and the first failure was raised by work in the scene to which its course has
led. -/
structure Founders (setting : Setting σ) (start : State) (origin : σ) (failure : Failure)
    (progress : Progress σ) : Prop extends Breaks setting start origin failure progress where
  /-- The failure is the first one, or a job that was in flight then was interrupted. -/
  fault : ∃ scene cause, Course setting start origin progress.past scene ∧
    scene.state = progress.state ∧ Fault setting cause scene ∧
      (failure = cause ∨ failure.isInterruption = true)

section Moves

variable {setting : Setting σ} {start : State} {origin : σ} {stage stage' : Stage}
  {bound bound' : Nat} {progress : Progress σ}

/-- Work that raises a failure in the scene where a build stands. -/
theorem Stands.founders (stands : Stands setting start origin stage bound progress)
    {failure : Failure} {after : σ}
    (fault : Fault setting failure ⟨progress.outside, progress.state, stage⟩)
    (reached : Reaches setting origin after) (raises : Raises setting origin failure) :
    Founders setting start origin failure { progress with outside := after } where
  passage := ⟨stage.due, stands.course.passage⟩
  reached := reached
  raises := raises
  fault := ⟨_, failure, stands.course, rfl, fault, Or.inl rfl⟩

theorem Stands.say (stands : Stands setting start origin stage bound progress)
    (pieces : List Printed) :
    Ends (fun _ after => Stands setting start origin stage bound after)
      (Founders setting start origin) (setting.say pieces progress) :=
  .ok ⟨stands.course.say pieces, stands.reached.say pieces, stands.consistent, stands.bounded⟩

/-- A change of the state moves a build to the next scene. -/
theorem Stands.change (stands : Stands setting start origin stage bound progress)
    (arranged : Arranged setting.graph.nodes) {alter : State → Except BuildError State}
    {after : State} (made : alter progress.state = .ok after)
    (event : Event setting ⟨progress.outside, progress.state, stage⟩
      ⟨progress.outside, after, stage'⟩)
    (bounded : after.roundLimit ≤ bound') :
    Ends (fun _ progress => Stands setting start origin stage' bound' progress)
      (Founders setting start origin) (Schedule.change alter progress) := by
  unfold Schedule.change
  rw [made]
  exact .ok ⟨stands.course.event event, stands.reached,
    stands.consistent.change arranged event.change, bounded⟩

/-- The first change of a move leaves one move less to make. -/
theorem Stands.firstChange (stands : Stands setting start origin .idle (bound + 1) progress)
    (arranged : Arranged setting.graph.nodes) {alter : State → Except BuildError State}
    {after : State} (made : alter progress.state = .ok after)
    (event : Event setting ⟨progress.outside, progress.state, .idle⟩
      ⟨progress.outside, after, stage⟩) :
    Ends (fun _ progress => Stands setting start origin stage bound progress)
      (Founders setting start origin) (Schedule.change alter progress) := by
  have fewer := Nat.lt_of_lt_of_le (event.change.roundLimit_lt stands.consistent) stands.bounded
  exact stands.change arranged made event (Nat.le_of_lt_succ fewer)

/-- Settling the first target that is due, after the work that led to the world outside. -/
theorem ends_settle {node : Node} {rest : List Node} {group : Option Recipe.Group}
    {result : JobResult} {world : σ}
    (stands : Stands setting start origin stage bound { progress with outside := world })
    (reached : Reaches setting origin progress.outside)
    (arranged : Arranged setting.graph.nodes) (due : stage.due = ⟨node :: rest, group⟩)
    (event : ∀ after, progress.state.settle setting.graph setting.options node result = .ok after →
      Event setting ⟨world, progress.state, stage⟩ ⟨progress.outside, after, stage'⟩) :
    Ends (fun _ after => Stands setting start origin stage' bound after)
      (Founders setting start origin) (settle setting node result progress) := by
  have working := due ▸ stands.consistent
  have building : progress.state.status node.name = .building :=
    ((working.working.iff node).mp List.mem_cons_self).2
  have made : progress.state.settle setting.graph setting.options node result = .ok _ :=
    State.settle_eq building setting.options result
  have settles := event _ made
  have settled : Stands setting start origin stage' bound
      { progress with state := _, past := progress.past ++ [progress.state] } :=
    ⟨stands.course.event settles, reached, stands.consistent.change arranged settles.change,
      Nat.le_trans (roundLimit_settle building made) stands.bounded⟩
  unfold settle
  refine Ends.get (Ends.bind ?_)
  unfold change
  rw [made]
  exact .ok (settled.say _)

/-- The work of a job, and settling its target. -/
theorem ends_work {job : Job} (stands : Stands setting start origin (.working job) bound progress)
    (arranged : Arranged setting.graph.nodes) (lawful : setting.workers.Lawful)
    {next : JobResult → Step σ Unit} {good : Unit → Progress σ → Prop}
    (goesOn : ∀ result after, Ended result →
      Stands setting start origin (.worked job result) bound after →
        Ends good (Founders setting start origin) (next result after)) :
    Ends good (Founders setting start origin)
      ((do
        let result ← outside (contain setting.workers job)
        settle setting job.node result
        next result) progress) := by
  have contained := ends_contain lawful job stands.reached
  refine Ends.bind ?_
  unfold outside
  cases worked : contain setting.workers job progress.outside with
  | ok result later =>
    rw [worked] at contained
    obtain ⟨ended, reached⟩ := contained.of_ok
    have settles : Ends
        (fun _ after => Stands setting start origin (.worked job result) bound after)
        (Founders setting start origin)
        (settle setting job.node result { progress with outside := later }) :=
      ends_settle stands reached arranged rfl fun after made => .work worked ended made
    exact .ok (Ends.bind (settles.imp fun _ after stands => goesOn result after ended stands))
  | error failure later =>
    rw [worked] at contained
    exact .error (stands.founders (.work worked) contained.of_error.2 contained.of_error.1)

/-- Sharing a result with the first target that is due, and settling that target. -/
theorem ends_settleShared {node : Node} {rest : List Node} {result : JobResult}
    (stands : Stands setting start origin (.sharing result (node :: rest)) bound progress)
    (arranged : Arranged setting.graph.nodes) (lawful : setting.workers.Lawful)
    (ended : Ended result) :
    Ends (fun _ after => Stands setting start origin (.shared result rest) bound after)
      (Founders setting start origin) (settleShared setting result node progress) := by
  have shares := ends_workers_share lawful node ended stands.reached
  unfold settleShared
  refine Ends.bind ?_
  unfold outside
  cases shared : setting.workers.share result node progress.outside with
  | ok own later =>
    rw [shared] at shares
    obtain ⟨ended, reached⟩ := shares.of_ok
    exact .ok (ends_settle stands reached arranged rfl fun after made => .adopt shared ended made)
  | error failure later =>
    rw [shared] at shares
    exact .error (stands.founders (.share shared) shares.of_error.2 shares.of_error.1)

theorem ends_complete {job : Job}
    (stands : Stands setting start origin .idle (bound + 1) progress)
    (arranged : Arranged setting.graph.nodes) (lawful : setting.workers.Lawful)
    (flying : job ∈ progress.state.running) :
    Ends (fun _ after => Stands setting start origin .idle bound after)
      (Founders setting start origin) (complete setting job progress) := by
  have made : (fun state : State => (.ok (state.land job) : Except BuildError State))
      progress.state = .ok (progress.state.land job) := rfl
  unfold complete
  refine Ends.bind ((stands.firstChange arranged made (.land flying)).imp ?_)
  intro _ landed stands
  refine ends_work stands arranged lawful fun result settled ended stands => ?_
  unfold Stage.worked at stands
  cases grouped : Recipe.group? job.node with
  | none =>
    rw [grouped] at stands
    exact .ok stands
  | some group =>
    rw [grouped] at stands
    have finished : (fun state : State =>
        (.ok (state.finishGroup group result) : Except BuildError State)) settled.state =
          .ok (settled.state.finishGroup group result) := rfl
    refine Ends.get (Ends.bind ?_)
    refine (stands.change arranged finished (.finish ended) stands.bounded).imp ?_
    intro _ after stands
    exact Ends.forM
      (fun riders after => Stands setting start origin (.shared result riders) bound after)
      (fun _ _ _ stands => ends_settleShared stands arranged lawful ended) after stands

/-- **A move leads from a scene to a scene**, with one move less to make. -/
theorem ends_perform {move : Move} (stands : Stands setting start origin .idle (bound + 1) progress)
    (arranged : Arranged setting.graph.nodes) (lawful : setting.workers.Lawful)
    (enabled : Enabled progress.state move) (goes : move ≠ .stop) :
    Ends (fun _ after => Stands setting start origin .idle bound after)
      (Founders setting start origin) (perform setting move progress) := by
  have pending : ∀ {node : Node} {rest : List Node}, progress.state.ready = node :: rest →
      progress.state.status node.name = .pending := fun first =>
    (stands.consistent.first_pending first).2
  cases move with
  | skip node blocker =>
    cases id enabled with
    | skip first going needed blocks =>
      have made : progress.state.skip setting.graph node = .ok _ := State.skip_eq (pending first)
      refine Ends.bind ((stands.firstChange arranged made (.skip enabled made)).imp ?_)
      exact fun _ after stands => stands.say _
  | share node result =>
    cases id enabled with
    | share first going free grouped found =>
      have made : progress.state.begin node = .ok _ := State.begin_eq (pending first)
      have ended := stands.consistent.orderly.ended _ result found
      refine Ends.bind ((stands.firstChange arranged made (.share enabled made)).imp ?_)
      exact fun _ after stands => ends_settleShared stands arranged lawful ended
  | ride node group =>
    cases id enabled with
    | ride first going free grouped carried =>
      have made : progress.state.ride node group = .ok _ := State.ride_eq (pending first) group
      refine Ends.bind ((stands.firstChange arranged made (.ride enabled made)).imp ?_)
      exact fun _ after stands => stands.say _
  | dispatch node slot =>
    cases id enabled with
    | dispatch first going free unfinished alone slotFree =>
      have made : progress.state.dispatch node slot (setting.workers.cost node.name) = .ok _ :=
        State.dispatch_eq (pending first) slot _
      refine Ends.bind ((stands.firstChange arranged made (.dispatch enabled made)).imp ?_)
      intro _ after stands
      exact Ends.bind ((stands.say _).imp fun _ later stands => stands.say _)
  | await =>
    cases enabled with
    | await flying =>
      refine Ends.get ?_
      cases running : progress.state.running with
      | nil => exact absurd running flying
      | cons job others =>
        have found : (setting.workers.order job others progress.outside).1 ∈
            progress.state.running := by
          rw [running]
          exact (setting.workers.order job others progress.outside).2
        exact ends_complete stands arranged lawful found
  | stop => exact absurd rfl goes

/-- If a move fails, the work of the jobs in flight is still done; then the build breaks off. -/
theorem ends_performOrDrain {move : Move}
    (stands : Stands setting start origin .idle (bound + 1) progress)
    (arranged : Arranged setting.graph.nodes) (lawful : setting.workers.Lawful)
    (enabled : Enabled progress.state move) (goes : move ≠ .stop) :
    Ends (fun _ after => Stands setting start origin .idle bound after)
      (Founders setting start origin) (performOrDrain setting move progress) := by
  refine Ends.tryCatch ((ends_perform stands arranged lawful enabled goes).mono
    (fun _ _ stands => stands) ?_)
  intro failure after founders
  have drained := ends_drain lawful after.state.running.length after.state.running founders.reached
  refine Ends.bind (Ends.get ?_)
  unfold outside
  cases outcome : drain setting.workers after.state.running.length after.state.running
      after.outside with
  | ok _ later =>
    rw [outcome] at drained
    exact .ok (.error ⟨⟨founders.passage, drained.of_ok, founders.raises⟩, founders.fault⟩)
  | error second later =>
    have interrupted := ends_drain_interrupted setting.workers after.state.running.length
      after.state.running after.outside
    rw [outcome] at drained interrupted
    obtain ⟨scene, cause, course, there, fault, -⟩ := founders.fault
    exact .error ⟨⟨founders.passage, drained.of_error.2, drained.of_error.1⟩,
      ⟨scene, cause, course, there, fault, Or.inr interrupted.of_error⟩⟩

/-- A state without further moves to make has nothing left to do. -/
theorem next_eq_stop {state : State} (none : state.roundLimit = 0) : state.next = .stop := by
  unfold State.roundLimit at none
  have ready : state.ready = [] := List.length_eq_zero_iff.mp (by omega)
  have running : state.running = [] := List.length_eq_zero_iff.mp (by omega)
  unfold State.next State.wait
  rw [ready, running]
  rfl

/-- **A run goes on until nothing is left to do, or it breaks off.** -/
theorem ends_runFrom (rounds : Nat) (stands : Stands setting start origin .idle rounds progress)
    (arranged : Arranged setting.graph.nodes) (lawful : setting.workers.Lawful) :
    Ends (fun _ after =>
        Course setting start origin after.past ⟨after.outside, after.state, .idle⟩ ∧
          after.state.next = .stop)
      (Founders setting start origin) (runFrom setting rounds progress) := by
  induction rounds generalizing progress with
  | zero => exact .ok ⟨stands.course, next_eq_stop (Nat.le_zero.mp stands.bounded)⟩
  | succ rounds ih =>
    unfold runFrom
    refine Ends.get ?_
    by_cases stops : progress.state.next = .stop
    · rw [if_pos stops]
      exact .ok ⟨stands.course, stops⟩
    · rw [if_neg stops]
      refine Ends.bind ((ends_performOrDrain stands arranged lawful progress.state.enabled_next
        stops).imp ?_)
      exact fun _ after stands => ih stands

end Moves

section Runs

variable {setting : Setting σ} {plan : Plan}

/-- Before the first move a build stands at the start of its course. -/
theorem stands_start (same : setting.graph = plan.graph) (arranged : Arranged plan.graph.nodes)
    (origin : σ) : Stands setting (State.start plan setting.options) origin .idle
      (State.start plan setting.options).roundLimit
      { outside := origin, state := State.start plan setting.options } :=
  ⟨.start, .start, same ▸ consistent_start setting.options arranged, Nat.le_refl _⟩

/-- **A run of a plan follows a course until nothing is left to do, or it breaks off.** -/
theorem runPlan_course (same : setting.graph = plan.graph) (arranged : Arranged plan.graph.nodes)
    (lawful : setting.workers.Lawful) (origin : σ) :
    Ends (fun _ after => Course setting (State.start plan setting.options) origin after.past
        ⟨after.outside, after.state, .idle⟩ ∧ after.state.next = .stop)
      (Founders setting (State.start plan setting.options) origin)
      (runPlan setting plan origin) :=
  ends_runFrom _ (stands_start same arranged origin) (same ▸ arranged) lawful

/-- **A run of a plan ends where nothing is left to do, or it breaks off.** -/
theorem runPlan_ends (same : setting.graph = plan.graph) (arranged : Arranged plan.graph.nodes)
    (lawful : setting.workers.Lawful) (origin : σ) :
    Ends (fun _ after => Passage plan.graph setting.options (State.start plan setting.options)
        after.past ⟨after.state, {}⟩ ∧ after.state.next = .stop)
      (Breaks setting (State.start plan setting.options) origin) (runPlan setting plan origin) :=
  (runPlan_course same arranged lawful origin).mono
    (fun _ _ both => ⟨same ▸ both.1.passage, both.2⟩) fun _ _ founders => founders.toBreaks

/-- A run with a result is a run of the plan. -/
theorem runPlan_of_run {before after : σ} {state : State}
    (made : run setting plan before = .ok state after) :
    ∃ past, runPlan setting plan before = .ok () ⟨after, state, past⟩ := by
  unfold run at made
  cases ran : runPlan setting plan before with
  | ok _ progress =>
    rw [ran] at made
    obtain ⟨rfl, rfl⟩ := EStateM.Result.ok.inj made
    exact ⟨progress.past, rfl⟩
  | error failure progress =>
    rw [ran] at made
    cases made

/-- **A run that meets no fault has a result**, and what printing and events keep holds of it. -/
theorem run_keeps {holds : Scene σ → Prop} {origin : σ} (same : setting.graph = plan.graph)
    (arranged : Arranged plan.graph.nodes) (lawful : setting.workers.Lawful)
    (begins : holds ⟨origin, State.start plan setting.options, .idle⟩)
    (prints : ∀ world state stage piece, holds ⟨world, state, stage⟩ →
      holds ⟨setting.host.print piece world, state, stage⟩)
    (events : ∀ past one two, Course setting (State.start plan setting.options) origin past one →
      holds one → Event setting one two → holds two)
    (safe : ∀ past scene failure,
      Course setting (State.start plan setting.options) origin past scene → holds scene →
        ¬ Fault setting failure scene) :
    ∃ past state after, run setting plan origin = .ok state after ∧
      Course setting (State.start plan setting.options) origin past ⟨after, state, .idle⟩ ∧
      holds ⟨after, state, .idle⟩ ∧ state.next = .stop := by
  have ends := runPlan_course same arranged lawful origin
  unfold run
  cases ran : runPlan setting plan origin with
  | ok _ progress =>
    rw [ran] at ends
    obtain ⟨course, stops⟩ := ends.of_ok
    exact ⟨progress.past, progress.state, progress.outside, rfl, course,
      course.keeps begins prints events, stops⟩
  | error failure progress =>
    rw [ran] at ends
    obtain ⟨scene, cause, course, -, fault, -⟩ := ends.of_error.fault
    exact absurd fault
      (safe progress.past scene cause course (course.keeps begins prints events))

end Runs

/-! ### Running recipes -/

theorem ends_execute (executor : Executor) (host : Host σ) (node : Node) (newer : List String)
    (slot : Nat) (state : σ) :
    Ends (fun result _ => Ended result) (fun _ _ => True)
      (executor.execute host node newer slot state) := by
  unfold Executor.execute
  split
  · exact .ok (Or.inl rfl)
  · split
    · cases node.isVirtual with
      | true => exact .ok (Or.inl rfl)
      | false => exact Ends.andThen state fun _ after => .ok (Or.inl rfl)
    · cases Recipe.command node newer with
      | none => exact .ok (Or.inl rfl)
      | some recipe =>
        refine Ends.get (Ends.andThen state fun completion after => ?_)
        split
        · exact .ok (Or.inl rfl)
        · exact Ends.andThen after fun _ later => .ok (Or.inr rfl)

/-- The result that is shared has the status of the first one. -/
theorem ends_share (executor : Executor) (host : Host σ) (result : JobResult) (node : Node)
    (state : σ) :
    Ends (fun shared _ => shared.status = result.status) (fun _ _ => True)
      (executor.share host result node state) := by
  unfold Executor.share
  dsimp only
  split
  · exact Ends.andThen state fun _ after => .ok rfl
  · split
    · exact .ok rfl
    · split
      · exact Ends.andThen state fun time after => .ok rfl
      · exact Ends.andThen state fun time after => .ok rfl

/-- **Recipes are lawful work**, whatever commands do and in whatever order jobs are finished. -/
theorem lawful_ofPlan (host : Host σ) (console : Console) (options : Options) (executor : Executor)
    (plan : Plan) (cost : String → Int) (order : Order σ) :
    (Setting.ofPlan host console options executor plan cost order).workers.Lawful where
  execute := fun node slot state =>
    ends_execute executor host node (plan.assessment node.name).newer slot state
  share := ends_share executor host

end BuildSystem.Schedule
