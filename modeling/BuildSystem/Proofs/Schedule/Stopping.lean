/-
**How a failure stops a build.**

The first failure that is not tolerated stops a build: from then on no job is submitted and nothing
is given up.  But the jobs in flight are waited for, and their results count, also for the targets
that ride on them.

* `State.Stopped`, `Passage.aborted_iff` — a build is stopped exactly if some target has failed whose
  failure is not tolerated.
* `Halted`, `Passage.halted` — what a stopped build leaves as it is.
* `Passage.until` — what every change brings about holds from each state on the way to the last.
* `State.Holds`, `Deed.Gives`, `Log.holds_given`, `Log.holds` — the results of all that was done are
  on record.
* `WoundUp`, `Log.woundUp` — when a build that was stopped ends, the jobs that were in flight have
  been waited for, all that had been begun has been settled, and everything else is still pending.
* `runPlan_stops` — all this for every run of a plan.
-/

import BuildSystem.Proofs.Schedule.Carrying

namespace BuildSystem.Schedule

variable {σ : Type} {plan : Plan} {graph : Graph} {options : Options} {one two : Moment}
  {past : List State} {moment : Moment}

/-! ### When a build is stopped -/

/-- **Some target has failed whose failure is not tolerated.** -/
def State.Stopped (graph : Graph) (options : Options) (state : State) : Prop :=
  options.keepGoing = false ∧ ∃ node ∈ graph.nodes, node.attributes.continueOnError = false ∧
    state.status node.name = .failed

theorem State.Stopped.congr {before after : State}
    (same : ∀ name, after.status name = .failed ↔ before.status name = .failed) :
    after.Stopped graph options ↔ before.Stopped graph options := by
  unfold State.Stopped
  simp only [same]

/-- A target that is pending does not fail by being given up or begun. -/
theorem State.stopped_put {before after : State} {name : String} {status : Status}
    (pending : before.status name = .pending) (unfailed : status ≠ .failed)
    (changed : ∀ other, after.status other = if other = name then status else before.status other) :
    after.Stopped graph options ↔ before.Stopped graph options := by
  refine State.Stopped.congr fun other => ?_
  rw [changed]
  split
  · next same => simp [same, pending, unfailed]
  · rfl

/-- A target that had not failed stops a build if it is settled with a failure that is not
tolerated. -/
theorem State.stopped_settle (arranged : Arranged graph.nodes) {before after : State} {node : Node}
    {status : Status} (member : node ∈ graph.nodes) (unfailed : before.status node.name ≠ .failed)
    (changed : ∀ name, after.status name =
      if name = node.name then status else before.status name) :
    after.Stopped graph options ↔ before.Stopped graph options ∨
      (status = .failed ∧ options.keepGoing = false ∧ node.attributes.continueOnError = false) := by
  unfold State.Stopped
  constructor
  · rintro ⟨strict, other, otherMember, intolerant, failed⟩
    rw [changed] at failed
    split at failed
    · next same =>
      obtain rfl := arranged.eq_of_name otherMember member same
      exact Or.inr ⟨failed, strict, intolerant⟩
    · exact Or.inl ⟨strict, other, otherMember, intolerant, failed⟩
  · rintro (⟨strict, other, otherMember, intolerant, failed⟩ | ⟨failed, strict, intolerant⟩)
    · have differ : other.name ≠ node.name := fun same => unfailed (same ▸ failed)
      refine ⟨strict, other, otherMember, intolerant, ?_⟩
      rw [changed, if_neg differ]
      exact failed
    · refine ⟨strict, node, member, intolerant, ?_⟩
      rw [changed, if_pos rfl]
      exact failed

/-- A build is stopped by the failure of a target unless it is tolerated. -/
theorem State.aborted_record {state : State} {node : Node} {result : JobResult} :
    (state.record options node result).aborted = true ↔ state.aborted = true ∨
      (result.status = .failed ∧ options.keepGoing = false ∧
        node.attributes.continueOnError = false) := by
  unfold State.record State.stops
  cases state.aborted with
  | true => simp
  | false => simp [and_assoc]

/-- Settling a target changes its status only. -/
theorem Consistent.status_settle {before after : State} {node : Node} {rest : List Node}
    {group : Option Recipe.Group} {result : JobResult}
    (consistent : Consistent graph options ⟨before, ⟨node :: rest, group⟩⟩)
    (made : before.settle graph options node result = .ok after) :
    before.status node.name = .building ∧
      ∀ name, after.status name = if name = node.name then result.status else before.status name :=
    by
  obtain ⟨waiting, ready, rfl⟩ := consistent.eq_of_settle made
  exact ⟨(consistent.building_of_due node List.mem_cons_self).2,
    fun name => State.status_put _ _ _ _⟩

theorem Change.aborted_iff (arranged : Arranged graph.nodes)
    (consistent : Consistent graph options one) (change : Change graph options one two)
    (stopped : one.state.aborted = true ↔ one.state.Stopped graph options) :
    two.state.aborted = true ↔ two.state.Stopped graph options := by
  cases change with
  | @skip node blocker before after enabled made =>
    obtain ⟨waiting, ready, rfl⟩ := consistent.eq_of_skip enabled made
    cases enabled with
    | skip first going needed blocks =>
      exact stopped.trans (State.stopped_put (consistent.first_pending first).2 (by decide)
        fun other => State.status_put _ _ _ _).symm
  | @share node result before after enabled made =>
    obtain rfl := consistent.eq_of_share enabled made
    cases enabled with
    | share first going free grouped found =>
      exact stopped.trans (State.stopped_put (consistent.first_pending first).2 (by decide)
        fun other => State.status_put _ _ _ _).symm
  | @ride node group before after enabled made =>
    obtain rfl := consistent.eq_of_ride enabled made
    cases enabled with
    | ride first going free grouped carried =>
      exact stopped.trans (State.stopped_put (consistent.first_pending first).2 (by decide)
        fun other => State.status_put _ _ _ _).symm
  | @dispatch node slot cost before after enabled made =>
    obtain rfl := consistent.eq_of_dispatch enabled made
    cases enabled with
    | dispatch first going free unfinished alone slotFree =>
      exact stopped.trans (State.stopped_put (consistent.first_pending first).2 (by decide)
        fun other => State.status_put _ _ _ _).symm
  | land flying => exact stopped
  | @settle node rest group result before after ended made =>
    have member := (consistent.building_of_due node List.mem_cons_self).1
    obtain ⟨building, changed⟩ := consistent.status_settle made
    have aborted : after.aborted = true ↔ (before.record options node result).aborted = true := by
      obtain ⟨waiting, ready, rfl⟩ := consistent.eq_of_settle made
      rfl
    have stops : after.Stopped graph options ↔ before.Stopped graph options ∨ _ :=
      State.stopped_settle arranged member (by simp [building]) changed
    exact (aborted.trans State.aborted_record).trans ((or_congr_left stopped).trans stops.symm)
  | finish ended => exact stopped

/-- **A build is stopped exactly if some target has failed whose failure is not tolerated.** -/
theorem Passage.aborted_iff (arranged : Arranged plan.graph.nodes)
    (passage : Passage plan.graph options (State.start plan options) past moment) :
    moment.state.aborted = true ↔ moment.state.Stopped plan.graph options := by
  induction passage with
  | start =>
    refine ⟨fun aborted => (by cases aborted), fun ⟨_, node, _, _, failed⟩ => ?_⟩
    have free := blocks_start options arranged node.name
    rw [show (State.start plan options).status node.name = .failed from failed] at free
    cases free
  | step passage change ih => exact change.aborted_iff arranged (passage.consistent arranged) ih

/-! ### What a stopped build leaves as it is -/

/-- **A build stays stopped**: no job is submitted, nothing is given up, and what is pending stays
so. -/
structure Halted (early late : State) : Prop where
  aborted : late.aborted = true
  dispatched : late.dispatched = early.dispatched
  skipped : ∀ name, late.status name = .skipped → early.status name = .skipped
  pending : ∀ name, early.status name = .pending → late.status name = .pending

theorem Halted.trans {early middle late : State} (first : Halted early middle)
    (second : Halted middle late) : Halted early late where
  aborted := second.aborted
  dispatched := second.dispatched.trans first.dispatched
  skipped := fun name given => first.skipped name (second.skipped name given)
  pending := fun name waits => second.pending name (first.pending name waits)

/-- The only changes of a stopped build are those by which work is finished and recorded. -/
theorem Change.halted (consistent : Consistent graph options one)
    (change : Change graph options one two) (aborted : one.state.aborted = true) :
    Halted one.state two.state := by
  have stopped : ¬ one.state.aborted = false := by simp [aborted]
  cases change with
  | skip enabled made =>
    cases enabled with
    | skip first going needed blocks => exact absurd going stopped
  | share enabled made =>
    cases enabled with
    | share first going free grouped found => exact absurd going stopped
  | ride enabled made =>
    cases enabled with
    | ride first going free grouped carried => exact absurd going stopped
  | dispatch enabled made =>
    cases enabled with
    | dispatch first going free unfinished alone slotFree => exact absurd going stopped
  | land flying => exact ⟨aborted, rfl, fun _ => id, fun _ => id⟩
  | @settle node rest group result before after ended made =>
    obtain ⟨building, changed⟩ := consistent.status_settle made
    refine ⟨?_, ?_, fun name given => ?_, fun name waits => ?_⟩
    · obtain ⟨waiting, ready, rfl⟩ := consistent.eq_of_settle made
      exact State.aborted_record.mpr (Or.inl aborted)
    · obtain ⟨waiting, ready, rfl⟩ := consistent.eq_of_settle made
      rfl
    · rw [changed] at given
      split at given
      · rcases ended with succeeded | failed
        · rw [succeeded] at given
          cases given
        · rw [failed] at given
          cases given
      · exact given
    · have differ : name ≠ node.name := fun same => by
        rw [same, building] at waits
        cases waits
      rw [changed, if_neg differ]
      exact waits
  | finish ended => exact ⟨aborted, rfl, fun _ => id, fun _ => id⟩

/-- **From the moment at which a build is stopped**, each later state leaves as it is what a stopped
build leaves so. -/
theorem Passage.halted (arranged : Arranged plan.graph.nodes)
    (passage : Passage plan.graph options (State.start plan options) past moment) :
    (past ++ [moment.state]).Pairwise fun early late =>
      early.aborted = true → Halted early late := by
  have chain : (past ++ [moment.state]).IsChain fun early late =>
      early.aborted = true → Halted early late :=
    passage.isChain arranged fun one two consistent change => change.halted consistent
  have trans : IsTrans State fun early late => early.aborted = true → Halted early late :=
    ⟨fun early middle late first second aborted =>
      (first aborted).trans (second (first aborted).aborted)⟩
  exact List.isChain_iff_pairwise.mp chain

/-- What is pending when a build is stopped stays so until the end. -/
theorem Passage.pending_of_aborted (arranged : Arranged plan.graph.nodes)
    (passage : Passage plan.graph options (State.start plan options) past moment) {early : State}
    (member : early ∈ past ++ [moment.state]) (aborted : early.aborted = true) {name : String}
    (pending : early.status name = .pending) : moment.state.status name = .pending := by
  have halted := passage.halted arranged
  rw [List.pairwise_append] at halted
  rcases List.mem_append.mp member with old | last
  · exact (halted.2.2 early old _ (List.mem_singleton_self _) aborted).pending name pending
  · rw [List.mem_singleton.mp last] at pending
    exact pending

/-! ### Results on record -/

section Logs

variable {setting : Setting σ} {origin : σ} {deeds : List Deed} {scene : Scene σ}

/-- **What is done for a target gives it a result**: that of its job, or what sharing makes of the
result of another job. -/
inductive Deed.Gives (setting : Setting σ) : Deed → JobResult → Prop
  | job (node : Node) (result : JobResult) : Gives setting (.job node result) result
  | share {node : Node} {result own : JobResult} {world later : σ}
      (shared : setting.workers.share result node world = .ok own later) :
      Gives setting (.share node result) own

/-- The result of a deed. -/
def Deed.result : Deed → JobResult
  | job _ result => result
  | share _ result => result

/-- What a deed gives to a target has the status of its result. -/
theorem Deed.Gives.status_eq {setting : Setting σ} (lawful : setting.workers.Lawful) {deed : Deed}
    {own : JobResult} (gives : deed.Gives setting own) : own.status = deed.result.status := by
  cases gives with
  | job node result => rfl
  | @share node result own world later shared =>
    have shares := lawful.share result node world
    rw [shared] at shares
    exact shares.of_ok

/-- **A result is on record for a target**: its status, its time, and the whole of it if it is a
failure. -/
structure State.Holds (state : State) (node : Node) (result : JobResult) : Prop where
  status : state.status node.name = result.status
  time : result.time ≠ none → state.times.get? node.name = some result.time
  failure : result.status = .failed → state.failures.get? node.name = some result

namespace State.Holds

variable {before after : State} {node : Node} {result : JobResult}

/-- Nothing is taken off the record of a target that is left alone. -/
theorem congr (holds : before.Holds node result)
    (status : after.status node.name = before.status node.name)
    (times : after.times.get? node.name = before.times.get? node.name)
    (failures : after.failures.get? node.name = before.failures.get? node.name) :
    after.Holds node result where
  status := status.trans holds.status
  time := fun timed => times.trans (holds.time timed)
  failure := fun failed => failures.trans (holds.failure failed)

/-- Settling a target puts its result on record. -/
theorem settle {graph : Graph} {rest : List Node} {group : Option Recipe.Group}
    (consistent : Consistent graph options ⟨before, ⟨node :: rest, group⟩⟩)
    (made : before.settle graph options node result = .ok after) : after.Holds node result := by
  obtain ⟨building, changed⟩ := consistent.status_settle made
  obtain ⟨waiting, ready, rfl⟩ := consistent.eq_of_settle made
  refine ⟨(changed node.name).trans (if_pos rfl), fun timed => ?_, fun failed => ?_⟩
  · show (if result.time.isSome then before.times.set node.name result.time
      else before.times).get? node.name = _
    rw [if_pos (Option.isSome_iff_ne_none.mpr timed), Table.get?_set_self]
  · show (if result.status = .failed then before.failures.set node.name result
      else before.failures).get? node.name = _
    rw [if_pos failed, Table.get?_set_self]

/-- Settling a target leaves the record of another one. -/
theorem settle_other {graph : Graph} {rest : List Node} {group : Option Recipe.Group}
    {other : Node} {own : JobResult} (holds : before.Holds other own)
    (differ : other.name ≠ node.name)
    (consistent : Consistent graph options ⟨before, ⟨node :: rest, group⟩⟩)
    (made : before.settle graph options node result = .ok after) : after.Holds other own := by
  obtain ⟨building, changed⟩ := consistent.status_settle made
  obtain ⟨waiting, ready, rfl⟩ := consistent.eq_of_settle made
  refine holds.congr ((changed other.name).trans (if_neg differ)) ?_ ?_
  · show (if result.time.isSome then before.times.set node.name result.time
      else before.times).get? other.name = _
    split
    · rw [Table.get?_set_of_ne differ]
    · rfl
  · show (if result.status = .failed then before.failures.set node.name result
      else before.failures).get? other.name = _
    split
    · rw [Table.get?_set_of_ne differ]
    · rfl

end State.Holds

/-- An event that settles no target records nothing. -/
theorem Event.records_of_quiet {one two : Scene σ}
    (consistent : Consistent setting.graph setting.options one.moment) (quiet : one.stage.Quiet)
    (event : Event setting one two) :
    two.state.times = one.state.times ∧ two.state.failures = one.state.failures := by
  cases event with
  | skip enabled made =>
    obtain ⟨waiting, ready, rfl⟩ := consistent.eq_of_skip enabled made
    exact ⟨rfl, rfl⟩
  | share enabled made =>
    obtain rfl := consistent.eq_of_share enabled made
    exact ⟨rfl, rfl⟩
  | ride enabled made =>
    obtain rfl := consistent.eq_of_ride enabled made
    exact ⟨rfl, rfl⟩
  | dispatch enabled made =>
    obtain rfl := consistent.eq_of_dispatch enabled made
    exact ⟨rfl, rfl⟩
  | land flying => exact ⟨rfl, rfl⟩
  | work worked ended made => exact quiet.elim
  | finish ended => exact ⟨rfl, rfl⟩
  | adopt shared ended made => exact quiet.elim

/-- The target that is due is settled with what was done for it, and no other target in the log is
it. -/
theorem Recorded.holds {gives : Deed → JobResult → Prop} {before after : State} {deed : Deed}
    {rest : List Node} {group : Option Recipe.Group} {result : JobResult}
    (recorded : Recorded plan before deeds)
    (holds : ∀ other ∈ deeds, ∃ own, gives other own ∧ before.Holds other.node own)
    (consistent : Consistent plan.graph options ⟨before, ⟨deed.node :: rest, group⟩⟩)
    (made : before.settle plan.graph options deed.node result = .ok after)
    (given : gives deed result) :
    ∀ other ∈ deeds ++ [deed], ∃ own, gives other own ∧ after.Holds other.node own := by
  intro other listed
  rcases List.mem_append.mp listed with old | new
  · obtain ⟨own, otherGives, otherHolds⟩ := holds other old
    refine ⟨own, otherGives, otherHolds.settle_other (fun same => ?_) consistent made⟩
    have final := (recorded.settled other old).2.2
    rw [same, (consistent.status_settle made).1] at final
    cases final
  · obtain rfl := List.mem_singleton.mp new
    exact ⟨result, given, .settle consistent made⟩

/-- **The results of all that was done are on record**, with whatever is known of the work that has
given them. -/
theorem Log.holds_given {gives : Deed → JobResult → Prop} (same : setting.graph = plan.graph)
    (arranged : Arranged plan.graph.nodes)
    (log : Log setting (State.start plan setting.options) origin deeds scene)
    (jobs : ∀ {earlier : List Deed} {world later : σ} {before : State} {job : Job}
      {result : JobResult},
      Log setting (State.start plan setting.options) origin earlier ⟨world, before, .working job⟩ →
      contain setting.workers job world = .ok result later → gives (.job job.node result) result)
    (shares : ∀ {earlier : List Deed} {world later : σ} {before : State} {node : Node}
      {rest : List Node} {result own : JobResult},
      Log setting (State.start plan setting.options) origin earlier
        ⟨world, before, .sharing result (node :: rest)⟩ →
      setting.workers.share result node world = .ok own later → gives (.share node result) own) :
    ∀ deed ∈ deeds, ∃ own, gives deed own ∧ scene.state.Holds deed.node own := by
  induction log with
  | start => exact fun deed listed => by cases listed
  | print log piece ih => exact ih
  | @quiet deeds one two log quiet event ih =>
    intro deed listed
    obtain ⟨own, given, holds⟩ := ih deed listed
    obtain ⟨past, passage⟩ := log.passage same
    have consistent := passage.consistent arranged
    have final := ((log.recorded same arranged).settled deed listed).2.2
    obtain ⟨times, failures⟩ := event.records_of_quiet (same ▸ consistent) quiet
    exact ⟨own, given, holds.congr
      (((same ▸ event.change).effect consistent).of_isFinal consistent final) (by rw [times])
      (by rw [failures])⟩
  | @work deeds world later job result before after log worked ended made ih =>
    obtain ⟨past, passage⟩ := log.passage same
    exact (log.recorded same arranged).holds ih (passage.consistent arranged) (same ▸ made)
      (jobs log worked)
  | @adopt deeds world later node rest result own before after log shared ended made ih =>
    obtain ⟨past, passage⟩ := log.passage same
    exact (log.recorded same arranged).holds ih (passage.consistent arranged) (same ▸ made)
      (shares log shared)

/-- **The results of all that was done are on record.** -/
theorem Log.holds (same : setting.graph = plan.graph) (arranged : Arranged plan.graph.nodes)
    (log : Log setting (State.start plan setting.options) origin deeds scene) :
    ∀ deed ∈ deeds, ∃ own, deed.Gives setting own ∧ scene.state.Holds deed.node own :=
  log.holds_given same arranged (fun _ _ => .job _ _) fun _ shared => .share shared

/-! ### What becomes of work that has begun -/

/-- **What every change brings about holds from each state on the way to the last one.** -/
theorem Passage.until (related : State → State → Prop) (arranged : Arranged plan.graph.nodes)
    (refl : ∀ state, related state state)
    (trans : ∀ {early middle late}, related early middle → related middle late → related early late)
    (step : ∀ one two, Consistent plan.graph options one → Change plan.graph options one two →
      related one.state two.state)
    (passage : Passage plan.graph options (State.start plan options) past moment) :
    ∀ early ∈ past ++ [moment.state], related early moment.state := by
  induction passage with
  | start =>
    intro early member
    rw [List.mem_singleton.mp member]
    exact refl _
  | @step past before after passage change ih =>
    intro early member
    rcases List.mem_append.mp member with old | last
    · exact trans (ih early old) (step before after (passage.consistent arranged) change)
    · rw [List.mem_singleton.mp last]
      exact refl _

/-- Each state on the way was one of its own moment. -/
theorem Passage.reached {start : State}
    (passage : Passage graph options start past moment) :
    ∀ early ∈ past ++ [moment.state], ∃ before due, Passage graph options start before
      ⟨early, due⟩ :=
  passage.each fun before moment earlier => ⟨before, moment.due, earlier⟩

/-- The work on a target has begun. -/
def Status.Begun (status : Status) : Prop :=
  status = .building ∨ status = .succeeded ∨ status = .failed

theorem Change.begun (consistent : Consistent graph options one)
    (change : Change graph options one two) {name : String}
    (begun : Status.Begun (one.state.status name)) : Status.Begun (two.state.status name) := by
  unfold Status.Begun at begun ⊢
  rcases change.follows consistent name with same | follows
  · exact same ▸ begun
  · generalize one.state.status name = before at begun follows
    generalize two.state.status name = after at follows ⊢
    cases follows with
    | succeeded => exact Or.inr (Or.inl rfl)
    | failed => exact Or.inr (Or.inr rfl)
    | upToDate => simp at begun
    | planned => simp at begun
    | skipped => simp at begun
    | begun => simp at begun

/-- Jobs that were submitted stay so, and only they come to be in flight. -/
theorem Change.submits (consistent : Consistent graph options one)
    (change : Change graph options one two) :
    one.state.dispatched ⊆ two.state.dispatched ∧ ∀ job ∈ two.state.running,
      job ∈ one.state.running ∨ job.node.name ∈ two.state.dispatched := by
  cases change with
  | skip enabled made =>
    obtain ⟨waiting, ready, rfl⟩ := consistent.eq_of_skip enabled made
    exact ⟨fun _ => id, fun _ => Or.inl⟩
  | share enabled made =>
    obtain rfl := consistent.eq_of_share enabled made
    exact ⟨fun _ => id, fun _ => Or.inl⟩
  | ride enabled made =>
    obtain rfl := consistent.eq_of_ride enabled made
    exact ⟨fun _ => id, fun _ => Or.inl⟩
  | @dispatch node slot cost before after enabled made =>
    obtain rfl := consistent.eq_of_dispatch enabled made
    refine ⟨fun _ => List.mem_append_left _, fun job flying => ?_⟩
    rcases List.mem_append.mp flying with old | new
    · exact Or.inl old
    · rw [List.mem_singleton.mp new]
      exact Or.inr (List.mem_append_right _ (List.mem_singleton_self _))
  | land flying => exact ⟨fun _ => id, fun _ other => Or.inl (List.mem_of_mem_erase other)⟩
  | settle ended made =>
    obtain ⟨waiting, ready, rfl⟩ := consistent.eq_of_settle made
    exact ⟨fun _ => id, fun _ => Or.inl⟩
  | finish ended => exact ⟨fun _ => id, fun _ => Or.inl⟩

/-- What has begun is never taken back, and what is final stays as it is. -/
theorem Passage.stays (arranged : Arranged plan.graph.nodes)
    (passage : Passage plan.graph options (State.start plan options) past moment) :
    ∀ early ∈ past ++ [moment.state], ∀ name,
      (Status.Begun (early.status name) → Status.Begun (moment.state.status name)) ∧
      ((early.status name).isFinal = true → moment.state.status name = early.status name) := by
  refine passage.until (fun early late => ∀ name,
    (Status.Begun (early.status name) → Status.Begun (late.status name)) ∧
      ((early.status name).isFinal = true → late.status name = early.status name)) arranged
    (fun _ _ => ⟨id, fun _ => rfl⟩) (fun first second name => ⟨fun begun =>
      (second name).1 ((first name).1 begun), fun final => ?_⟩)
    fun one two consistent change name => ⟨change.begun consistent, fun final =>
      (change.effect consistent).of_isFinal consistent final⟩
  have middle := (first name).2 final
  exact ((second name).2 (middle.symm ▸ final)).trans middle

theorem Passage.submits (arranged : Arranged plan.graph.nodes)
    (passage : Passage plan.graph options (State.start plan options) past moment) :
    ∀ early ∈ past ++ [moment.state], early.dispatched ⊆ moment.state.dispatched :=
  passage.until (fun early late => early.dispatched ⊆ late.dispatched) arranged
    (fun _ _ => id) (fun first second _ listed => second (first listed))
    fun _ _ consistent change => (change.submits consistent).1

/-- The jobs in flight have been submitted. -/
theorem Passage.flying (arranged : Arranged plan.graph.nodes)
    (passage : Passage plan.graph options (State.start plan options) past moment) :
    ∀ job ∈ moment.state.running, job.node.name ∈ moment.state.dispatched := by
  induction passage with
  | start => exact fun job flying => by cases flying
  | step passage change ih =>
    obtain ⟨stays, comes⟩ := change.submits (passage.consistent arranged)
    exact fun job flying => (comes job flying).elim (fun old => stays (ih job old)) id

theorem Consistent.of_flying (consistent : Consistent graph options moment) {job : Job}
    (flying : job ∈ moment.state.running) :
    job.node ∈ graph.nodes ∧ moment.state.status job.node.name = .building :=
  (consistent.working.iff job.node).mp
    (List.mem_append_right _ (List.mem_append_left _ (List.mem_map_of_mem flying)))

/-- What rides on a job is being worked on, and has no job of its own. -/
theorem Consistent.of_rider (consistent : Consistent graph options moment)
    {group : Recipe.Group} {rider : Node} (rides : rider ∈ moment.state.riders group) :
    (rider ∈ graph.nodes ∧ moment.state.status rider.name = .building) ∧
      ∀ job ∈ moment.state.running, rider ≠ job.node := by
  have listed : rider ∈ moment.state.riding.flatMap (·.2) := by
    unfold State.riders at rides
    cases found : moment.state.riding.get? group with
    | none =>
      rw [found] at rides
      cases rides
    | some nodes =>
      rw [found] at rides
      exact List.mem_flatMap.mpr ⟨(group, nodes), Table.mem_of_get? found, rides⟩
  refine ⟨(consistent.working.iff rider).mp
    (List.mem_append_right _ (List.mem_append_right _ listed)), fun job flying same => ?_⟩
  have distinct := (List.nodup_append.mp consistent.working.nodup).2.1
  exact (List.nodup_append.mp distinct).2.2 job.node (List.mem_map_of_mem flying) rider listed
    same.symm

/-- **What becomes of everything that is not finished when a build is stopped**: the jobs in flight
are waited for, and each result is on record for its target and for all targets that ride on it; all
other work that has begun is recorded too; and everything else stays pending. -/
structure WoundUp (setting : Setting σ) (deeds : List Deed) (early final : State) : Prop where
  jobs : ∀ job ∈ early.running, ∃ result, Deed.job job.node result ∈ deeds ∧
    final.Holds job.node result ∧
    ∀ group, Recipe.group? job.node = some group → ∀ rider ∈ early.riders group,
      Deed.share rider result ∈ deeds ∧ ∃ own, (Deed.share rider result).Gives setting own ∧
        own.status = result.status ∧ final.Holds rider own
  others : ∀ node ∈ setting.graph.nodes,
    (early.status node.name).isFinal = true ∧
      final.status node.name = early.status node.name ∨
    early.status node.name = .building ∧
      (∃ deed ∈ deeds, deed.node = node ∧ ∃ own, deed.Gives setting own ∧ final.Holds node own) ∨
    early.status node.name = .pending ∧ final.status node.name = .pending

section Ending

variable {state : State} {world : σ} {early : State}

/-- Whatever was being worked on in some state has been settled when nothing is left to do. -/
theorem Log.settles (same : setting.graph = plan.graph) (arranged : Arranged plan.graph.nodes)
    (log : Log setting (State.start plan setting.options) origin deeds ⟨world, state, .idle⟩)
    (passage : Passage plan.graph setting.options (State.start plan setting.options) past
      ⟨state, {}⟩)
    (stops : state.next = .stop) (member : early ∈ past ++ [state]) {node : Node}
    (among : node ∈ plan.graph.nodes) (building : early.status node.name = .building) :
    ∃ deed ∈ deeds, deed.node = node ∧ ∃ own, deed.Gives setting own ∧ state.Holds node own := by
  obtain ⟨before, due, earlier⟩ := passage.reached early member
  have stale : startStatus plan node = .pending := by
    refine (startStatus_eq_pending_iff plan node).mpr
      ((earlier.explained arranged).of_open among ?_)
    rw [show (⟨early, due⟩ : Moment).state.status node.name = .building from building]
    decide
  have begun : Status.Begun (state.status node.name) :=
    (passage.stays arranged early member node.name).1 (Or.inl building)
  have idle := (((passage.consistent arranged).complete arranged stops).idle node among).2
  obtain ⟨deed, listed, rfl⟩ := (log.recorded same arranged).covered node among stale
    (begun.resolve_left idle)
  exact ⟨deed, listed, rfl, log.holds same arranged deed listed⟩

/-- The job that was in flight in some state has been done when nothing is left to do. -/
theorem Log.done_of_flying (same : setting.graph = plan.graph) (arranged : Arranged plan.graph.nodes)
    (log : Log setting (State.start plan setting.options) origin deeds ⟨world, state, .idle⟩)
    (passage : Passage plan.graph setting.options (State.start plan setting.options) past
      ⟨state, {}⟩)
    (stops : state.next = .stop) (member : early ∈ past ++ [state]) {job : Job}
    (flying : job ∈ early.running) :
    ∃ result, Deed.job job.node result ∈ deeds ∧ state.Holds job.node result := by
  obtain ⟨before, due, earlier⟩ := passage.reached early member
  obtain ⟨among, building⟩ := (earlier.consistent arranged).of_flying flying
  have dispatched : job.node.name ∈ state.dispatched :=
    passage.submits arranged early member (earlier.flying arranged job flying)
  obtain ⟨deed, listed, found, own, gives, holds⟩ :=
    log.settles same arranged passage stops member among building
  have jobs := (log.booked same arranged).jobs_of_landed (State.landed_of_stop stops)
  refine ⟨own, ?_, holds⟩
  cases gives with
  | job node result => exact found ▸ listed
  | @share node result own _ _ shared =>
    -- A target that takes the result of another one has no job.
    have shares := (log.recorded same arranged).shares (passage.submitted arranged) jobs listed
      ((log.booked same arranged).shares node result listed)
    obtain rfl : node = job.node := found
    exact absurd dispatched shares.jobless

/-- Another target with the recipe of a job that was done takes the result of that job. -/
theorem Log.eq_share (same : setting.graph = plan.graph) (arranged : Arranged plan.graph.nodes)
    (log : Log setting (State.start plan setting.options) origin deeds ⟨world, state, .idle⟩)
    (passage : Passage plan.graph setting.options (State.start plan setting.options) past
      ⟨state, {}⟩) {maker rider : Node} {result : JobResult} {deed : Deed} {group : Recipe.Group}
    (done : Deed.job maker result ∈ deeds) (listed : deed ∈ deeds) (found : deed.node = rider)
    (apart : rider ≠ maker) (grouped : Recipe.group? maker = some group)
    (riderGrouped : Recipe.group? rider = some group) : deed = .share rider result := by
  have booked := log.booked same arranged
  have recorded := log.recorded same arranged
  -- The group has only one job.
  have alone : ∀ node own, Deed.job node own ∈ deeds → Recipe.group? node = some group →
      node = maker := fun node own made sameGroup =>
    (passage.submitted arranged).alone node (recorded.settled _ made).1 (booked.dispatched made)
      maker (recorded.settled _ done).1 (booked.dispatched done) group sameGroup grouped
  cases deed with
  | job node own =>
    obtain rfl : node = rider := found
    exact absurd (alone node own listed riderGrouped) apart
  | share node taken =>
    obtain rfl : node = rider := found
    obtain ⟨other, otherGrouped, shared, made, sharedGrouped⟩ := booked.shares node taken listed
    obtain rfl : other = group := Option.some.inj (otherGrouped.symm.trans riderGrouped)
    obtain rfl := alone shared taken made sharedGrouped
    obtain ⟨_, rfl⟩ := Deed.job.inj (List.inj_on_of_nodup_map recorded.once made done rfl)
    rfl

/-- **What becomes of everything that is not finished when a build is stopped.** -/
theorem Log.woundUp (same : setting.graph = plan.graph) (arranged : Arranged plan.graph.nodes)
    (lawful : setting.workers.Lawful)
    (log : Log setting (State.start plan setting.options) origin deeds ⟨world, state, .idle⟩)
    (passage : Passage plan.graph setting.options (State.start plan setting.options) past
      ⟨state, {}⟩)
    (stops : state.next = .stop) (member : early ∈ past ++ [state]) (aborted : early.aborted = true) :
    WoundUp setting deeds early state where
  jobs := by
    intro job flying
    obtain ⟨before, due, earlier⟩ := passage.reached early member
    have consistent := earlier.consistent arranged
    obtain ⟨result, done, holds⟩ := log.done_of_flying same arranged passage stops member flying
    refine ⟨result, done, holds, fun group grouped rider rides => ?_⟩
    obtain ⟨⟨among, building⟩, apart⟩ := consistent.of_rider rides
    have riderGrouped : Recipe.group? rider = some group :=
      (earlier.grouped arranged).riders rider rides
    obtain ⟨deed, listed, found, own, gives, riderHolds⟩ :=
      log.settles same arranged passage stops member among building
    obtain rfl : deed = .share rider result :=
      log.eq_share same arranged passage done listed found (apart job flying) grouped riderGrouped
    exact ⟨listed, own, gives, gives.status_eq lawful, riderHolds⟩
  others := by
    intro node among
    obtain ⟨before, due, earlier⟩ := passage.reached early member
    have among : node ∈ plan.graph.nodes := same ▸ among
    have known := (earlier.consistent arranged).orderly.known node among
    have stays := (passage.stays arranged early member node.name).2
    cases status : early.status node.name with
    | unvisited => exact absurd status known
    | pending =>
      exact Or.inr (Or.inr ⟨rfl, passage.pending_of_aborted arranged member aborted status⟩)
    | building =>
      exact Or.inr (Or.inl ⟨rfl, log.settles same arranged passage stops member among status⟩)
    | succeeded => exact Or.inl ⟨rfl, (stays (by simp [status, Status.isFinal])).trans status⟩
    | failed => exact Or.inl ⟨rfl, (stays (by simp [status, Status.isFinal])).trans status⟩
    | skipped => exact Or.inl ⟨rfl, (stays (by simp [status, Status.isFinal])).trans status⟩

end Ending

end Logs

/-! ### Runs -/

/-- **How a failure stops a build**, wherever it has come to: exactly the failures that are not
tolerated stop it, and then it stays stopped. -/
structure Stopping (plan : Plan) (options : Options) (progress : Progress σ) : Prop where
  aborted_iff : ∀ state ∈ progress.states,
    state.aborted = true ↔ state.Stopped plan.graph options
  halted : progress.states.Pairwise fun early late => early.aborted = true → Halted early late

theorem Passage.stopping {progress : Progress σ} {due : Due} (arranged : Arranged plan.graph.nodes)
    (passage : Passage plan.graph options (State.start plan options) progress.past
      ⟨progress.state, due⟩) : Stopping plan options progress where
  aborted_iff := passage.each fun _ _ earlier => earlier.aborted_iff arranged
  halted := passage.halted arranged

variable {rules : RuleSet} {available : String → Bool} {targets : List String}

/-- **A run is stopped exactly by a failure that is not tolerated; then no job is submitted and
nothing is given up any more, but the jobs in flight are waited for.**  Whatever commands do, in
whatever order jobs are finished, and whether or not the run breaks off; it breaks off only when the
command of a job is interrupted, or when sharing a result raises a failure. -/
theorem runPlan_stops (built : (Graph.build rules available targets).1 = .ok plan.graph)
    (host : Host σ) (console : Console) (options : Options) (executor : Executor)
    (cost : String → Int) (order : Order σ) (outside : σ) :
    Ends
      (fun _ progress =>
        ((progress.state.report plan.graph).aborted = true ↔
          options.keepGoing = false ∧ ∃ node ∈ plan.graph.nodes,
            node.attributes.continueOnError = false ∧
            (progress.state.report plan.graph).statuses.get? node.name = some .failed) ∧
        Stopping plan options progress ∧
        (∃ deeds, Log (.ofPlan host console options executor plan cost order)
          (State.start plan options) outside deeds ⟨progress.outside, progress.state, .idle⟩) ∧
        ∀ deeds, Log (.ofPlan host console options executor plan cost order)
            (State.start plan options) outside deeds ⟨progress.outside, progress.state, .idle⟩ →
          ∀ early ∈ progress.states, early.aborted = true →
            WoundUp (.ofPlan host console options executor plan cost order) deeds early
              progress.state)
      (fun failure progress =>
        Raises (.ofPlan host console options executor plan cost order) outside failure ∧
        Stopping plan options progress)
      (runPlan (.ofPlan host console options executor plan cost order) plan outside) := by
  have arranged := build_arranged built
  have lawful := lawful_ofPlan host console options executor plan cost order
  refine (runPlan_course rfl arranged lawful outside).mono ?_ ?_
  · rintro _ progress ⟨course, stops⟩
    have passage : Passage plan.graph options (State.start plan options) progress.past
        ⟨progress.state, {}⟩ := course.passage
    have shown := (passage.explained arranged).get?_report arranged
      (show Status.failed ≠ .unvisited by decide)
    refine ⟨?_, passage.stopping arranged, course.log, fun deeds log early member aborted => ?_⟩
    · simp only [shown]
      exact passage.aborted_iff arranged
    · exact log.woundUp rfl arranged lawful passage stops member aborted
  · rintro failure progress ⟨⟨⟨due, passage⟩, _, raises⟩, _⟩
    exact ⟨raises, passage.stopping arranged⟩

/-! ### A check that fails while a parser is made -/

/-- Both files of a parser are made from a grammar, a program needs one of them, and a check has
nothing to do with them. -/
def checkRules : RuleSet where
  rules := [
    .explicit {
      prereqs := []
      recipe := some "false"
      attributes := {}
      comparator := none
      location := ⟨"mkfile", 4⟩
      targets := ["check"] },
    .explicit {
      prereqs := ["gram.y"]
      recipe := some "yacc"
      attributes := {}
      comparator := none
      location := ⟨"mkfile", 1⟩
      targets := ["gram.c", "gram.h"] },
    .explicit {
      prereqs := ["gram.c"]
      recipe := some "cc"
      attributes := {}
      comparator := none
      location := ⟨"mkfile", 6⟩
      targets := ["parser"] }]
  values := []

/-- Only the grammar is there. -/
def checkPlan : Plan where
  graph := {
    nodes := [
      { name := "check"
        recipe := some "false"
        allTargets := ["check"]
        location := some ⟨"mkfile", 4⟩
        origin := .explicit },
      { name := "gram.y", origin := .source },
      grammarNode "gram.c",
      grammarNode "gram.h",
      { name := "parser"
        prereqs := ["gram.c"]
        recipe := some "cc"
        allTargets := ["parser"]
        location := some ⟨"mkfile", 6⟩
        origin := .explicit }]
    roots := ["check", "gram.c", "gram.h", "parser"] }
  assessments := [
    ("check", { mustBuild := true, reasons := [.missing] }),
    ("gram.y", { time := some 1 }),
    ("gram.c", { mustBuild := true, reasons := [.missing], newer := ["gram.y"] }),
    ("gram.h", { mustBuild := true, reasons := [.missing], newer := ["gram.y"] }),
    ("parser", { mustBuild := true, reasons := [.missing, .rebuilt "gram.c"], newer := ["gram.c"] })]

/-- The check fails. -/
def checkWorld : World where
  files := [("gram.y", { time := 1 })]
  script := { byTarget := [("check", { exitCode := 1 })] }

/-- Two jobs may be in flight, and the check is finished first. -/
def checkSetting : Setting World :=
  .ofPlan World.host {} { workers := 2 } { values := [] } checkPlan
    (fun name => if name = "check" then 1 else 2) .byFinish

theorem build_checkRules :
    (Graph.build checkRules (· = "gram.y") ["check", "gram.c", "gram.h", "parser"]).1 =
      .ok checkPlan.graph := by
  rfl

/-- When the check has failed, the recipe for both files is still run, and the program is not
begun. -/
theorem run_checkPlan : ∃ progress, runPlan checkSetting checkPlan checkWorld = .ok () progress ∧
    progress.state.aborted = true ∧
    (progress.state.status "gram.c" = .succeeded ∧ progress.state.status "gram.h" = .succeeded ∧
      progress.state.status "parser" = .pending) ∧
    ∃ state ∈ progress.states, state.aborted = true ∧
      state.running.map (·.node.name) = ["gram.c"] := by
  have ran : (match runPlan checkSetting checkPlan checkWorld with
      | .ok _ progress => progress.state.aborted &&
          decide (progress.state.status "gram.c" = .succeeded ∧
            progress.state.status "gram.h" = .succeeded ∧
            progress.state.status "parser" = .pending) &&
          progress.states.any fun state => state.aborted &&
            decide (state.running.map (·.node.name) = ["gram.c"])
      | .error _ _ => false) = true := by
    decide +kernel
  cases result : runPlan checkSetting checkPlan checkWorld with
  | ok value progress =>
    rw [result] at ran
    simp only [Bool.and_eq_true, decide_eq_true_iff, List.any_eq_true] at ran
    obtain ⟨⟨aborted, statuses⟩, state, member, early⟩ := ran
    exact ⟨progress, rfl, aborted, statuses, state, member, early⟩
  | error failure progress =>
    rw [result] at ran
    cases ran

theorem runPlan_stops_check :
    (Graph.build checkRules (· = "gram.y") ["check", "gram.c", "gram.h", "parser"]).1 =
      .ok checkPlan.graph ∧
    ∃ progress deeds, runPlan checkSetting checkPlan checkWorld = .ok () progress ∧
      progress.state.aborted = true ∧
      (progress.state.status "gram.c" = .succeeded ∧ progress.state.status "gram.h" = .succeeded ∧
        progress.state.status "parser" = .pending) ∧
      Stopping checkPlan { workers := 2 } progress ∧
      Log checkSetting (State.start checkPlan { workers := 2 }) checkWorld deeds
        ⟨progress.outside, progress.state, .idle⟩ ∧
      ∃ early ∈ progress.states, early.running.map (·.node.name) = ["gram.c"] ∧
        WoundUp checkSetting deeds early progress.state := by
  have ends := runPlan_stops build_checkRules World.host {} { workers := 2 } { values := [] }
    (fun name => if name = "check" then 1 else 2) .byFinish checkWorld
  obtain ⟨progress, ran, aborted, statuses, early, member, stopped, flying⟩ := run_checkPlan
  obtain ⟨-, stopping, ⟨deeds, log⟩, woundUp⟩ := (ran ▸ ends).of_ok
  exact ⟨build_checkRules, progress, deeds, ran, aborted, statuses, stopping, log, early, member,
    flying, woundUp deeds log early member stopped⟩

end BuildSystem.Schedule
