/-
**The statuses in the end do not depend on the order of work.**

If it is known of every target whether the work on it succeeds, and failures do not stop the build,
then the statuses in the end are known: they follow from the graph, whatever the number of workers,
the costs, and the order in which jobs are finished.

* `State.Grouped`, `Passage.grouped` — only targets of a group ride on its job.
* `Passage.going` — a build that goes on after failures is never stopped.
* `Foreseen` — work whose outcome is known.
* `Decided`, `Decided.unique` — the statuses in the end, and that there is one choice of them.
* `Foretold` — in every scene, targets have been settled as foreseen, and so are the results that
  are to be shared; `Foretold.event` — every event keeps it.
* `run_foretold`, `run_decided` — a run has a result, and its statuses are those.
* `run_agrees` — so two runs of one plan agree.
-/

import BuildSystem.Proofs.Files
import BuildSystem.Proofs.Schedule.Report

namespace BuildSystem.Schedule

variable {σ : Type} {plan : Plan}

/-! ### Riders -/

/-- Only targets of a group ride on its job. -/
def State.Grouped (state : State) : Prop :=
  ∀ entry ∈ state.riding, ∀ node ∈ entry.2, Recipe.group? node = some entry.1

section Riders

variable {graph : Graph} {options : Options} {one two : Moment}

theorem State.Grouped.riders {state : State} (grouped : state.Grouped) {group : Recipe.Group} :
    ∀ node ∈ state.riders group, Recipe.group? node = some group := by
  intro node member
  unfold State.riders at member
  cases found : state.riding.get? group with
  | none =>
    rw [found] at member
    cases member
  | some nodes =>
    rw [found] at member
    exact grouped (group, nodes) (Table.mem_of_get? found) node member

theorem Change.grouped (consistent : Consistent graph options one)
    (change : Change graph options one two) (grouped : one.state.Grouped) :
    two.state.Grouped := by
  cases change with
  | skip enabled made =>
    obtain ⟨waiting, ready, rfl⟩ := consistent.eq_of_skip enabled made
    exact grouped
  | share enabled made =>
    obtain rfl := consistent.eq_of_share enabled made
    exact grouped
  | ride enabled made =>
    obtain rfl := consistent.eq_of_ride enabled made
    cases enabled with
    | ride first going free own carried =>
      intro entry member node rides
      rcases Table.mem_set member with rfl | old
      · rcases List.mem_append.mp rides with before | new
        · exact grouped.riders node before
        · exact List.mem_singleton.mp new ▸ own
      · exact grouped entry old node rides
  | dispatch enabled made =>
    obtain rfl := consistent.eq_of_dispatch enabled made
    intro entry member node rides
    unfold State.openGroup at member
    split at member
    · rcases Table.mem_set member with rfl | old
      · cases rides
      · exact grouped entry old node rides
    · exact grouped entry member node rides
  | land flying => exact grouped
  | settle ended made =>
    obtain ⟨waiting, ready, rfl⟩ := consistent.eq_of_settle made
    exact grouped
  | finish ended => exact fun entry member => grouped entry (Table.mem_of_mem_erase member)

/-- If a build goes on after failures, nothing stops it. -/
theorem Change.going (consistent : Consistent graph options one)
    (change : Change graph options one two) (keepGoing : options.keepGoing = true)
    (going : one.state.aborted = false) : two.state.aborted = false := by
  cases change with
  | skip enabled made =>
    obtain ⟨waiting, ready, rfl⟩ := consistent.eq_of_skip enabled made
    exact going
  | share enabled made =>
    obtain rfl := consistent.eq_of_share enabled made
    exact going
  | ride enabled made =>
    obtain rfl := consistent.eq_of_ride enabled made
    exact going
  | dispatch enabled made =>
    obtain rfl := consistent.eq_of_dispatch enabled made
    exact going
  | land flying => exact going
  | @settle node rest group result before after ended made =>
    obtain ⟨waiting, ready, rfl⟩ := consistent.eq_of_settle made
    show (before.aborted || before.stops options node result) = false
    unfold State.stops
    rw [show before.aborted = false from going, keepGoing]
    simp
  | finish ended => exact going

theorem Passage.grouped (arranged : Arranged plan.graph.nodes) {past : List State}
    {moment : Moment}
    (passage : Passage plan.graph options (State.start plan options) past moment) :
    moment.state.Grouped := by
  induction passage with
  | start => exact fun entry member => by cases member
  | step passage change ih => exact change.grouped (passage.consistent arranged) ih

theorem Passage.going (arranged : Arranged plan.graph.nodes) {past : List State} {moment : Moment}
    (keepGoing : options.keepGoing = true)
    (passage : Passage plan.graph options (State.start plan options) past moment) :
    moment.state.aborted = false := by
  induction passage with
  | start => rfl
  | step passage change ih => exact change.going (passage.consistent arranged) keepGoing ih

end Riders

/-! ### The statuses in the end -/

/-- The status that the work on a node gives. -/
def verdict (succeeds : Node → Bool) (node : Node) : Status :=
  if succeeds node then .succeeded else .failed

/-- The targets that have been worked on have ended as they must. -/
def State.Told (plan : Plan) (succeeds : Node → Bool) (state : State) : Prop :=
  ∀ node ∈ plan.graph.nodes, startStatus plan node = .pending →
    state.status node.name = .succeeded ∨ state.status node.name = .failed →
      state.status node.name = verdict succeeds node

/-- One status has changed, to one that does not count or that is right. -/
theorem State.Told.put {succeeds : Node → Bool} {state : State} {name : String} {status : Status}
    (told : state.Told plan succeeds)
    (right : ∀ node ∈ plan.graph.nodes, node.name = name →
      status = .succeeded ∨ status = .failed → status = verdict succeeds node) :
    (state.put name status).Told plan succeeds := by
  intro node member pending
  rw [State.status_put]
  split
  · next same => exact right node member same
  · exact told node member pending

/-- **The statuses in the end**: what need not be built has succeeded, what has a prerequisite that
was not built is given up, and the work on everything else ends as it must. -/
structure Decided (plan : Plan) (succeeds : Node → Bool) (state : State) : Prop where
  upToDate : ∀ node ∈ plan.graph.nodes, (plan.assessment node.name).mustBuild = false →
    state.status node.name = .succeeded
  skipped : ∀ node ∈ plan.graph.nodes, (plan.assessment node.name).mustBuild = true →
    (∃ prereq ∈ node.prereqs, state.status prereq = .failed ∨ state.status prereq = .skipped) →
      state.status node.name = .skipped
  worked : ∀ node ∈ plan.graph.nodes, (plan.assessment node.name).mustBuild = true →
    (¬ ∃ prereq ∈ node.prereqs,
        state.status prereq = .failed ∨ state.status prereq = .skipped) →
      state.status node.name = verdict succeeds node

/-- **There is one choice of these statuses.** -/
theorem Decided.unique {succeeds : Node → Bool} {one two : State}
    (arranged : Arranged plan.graph.nodes) (first : Decided plan succeeds one)
    (second : Decided plan succeeds two) :
    ∀ node ∈ plan.graph.nodes, one.status node.name = two.status node.name := by
  refine arranged.rec_on fun node member below => ?_
  cases stale : (plan.assessment node.name).mustBuild with
  | false => rw [first.upToDate node member stale, second.upToDate node member stale]
  | true =>
    have same : ∀ prereq ∈ node.prereqs, one.status prereq = two.status prereq := by
      intro prereq needed
      obtain ⟨other, otherMember, rfl⟩ := arranged.closed member needed
      exact below other otherMember needed
    by_cases blocked : ∃ prereq ∈ node.prereqs,
        one.status prereq = .failed ∨ one.status prereq = .skipped
    · have alike : ∃ prereq ∈ node.prereqs,
          two.status prereq = .failed ∨ two.status prereq = .skipped := by
        obtain ⟨prereq, needed, ended⟩ := blocked
        exact ⟨prereq, needed, same prereq needed ▸ ended⟩
      rw [first.skipped node member stale blocked, second.skipped node member stale alike]
    · have alike : ¬ ∃ prereq ∈ node.prereqs,
          two.status prereq = .failed ∨ two.status prereq = .skipped := by
        rintro ⟨prereq, needed, ended⟩
        exact blocked ⟨prereq, needed, (same prereq needed).symm ▸ ended⟩
      rw [first.worked node member stale blocked, second.worked node member stale alike]

theorem Status.blocks_iff {status : Status} :
    status.blocks = true ↔ status = .failed ∨ status = .skipped := by
  cases status with
  | unvisited => decide
  | pending => decide
  | building => decide
  | succeeded => decide
  | failed => decide
  | skipped => decide

/-- In a complete state of a build that nothing has stopped, the statuses are those if every target
that has been worked on has ended as it must. -/
theorem Explained.decided {succeeds : Node → Bool} {state : State}
    (explained : Explained plan state) (complete : state.Complete plan.graph)
    (going : state.aborted = false)
    (ruled : ∀ node ∈ plan.graph.nodes, (plan.assessment node.name).mustBuild = true →
      node.isSource = false)
    (told : state.Told plan succeeds) : Decided plan succeeds state := by
  have settled := complete.settled going
  have pending : ∀ node ∈ plan.graph.nodes, (plan.assessment node.name).mustBuild = true →
      startStatus plan node = .pending := fun node member stale =>
    (startStatus_eq_pending_iff plan node).mpr ⟨ruled node member stale, stale⟩
  refine ⟨fun node member fresh => ?_, fun node member stale blocked => ?_,
    fun node member stale free => ?_⟩
  · refine explained.upToDate node member fun waits => ?_
    rw [((startStatus_eq_pending_iff plan node).mp waits).2] at fresh
    cases fresh
  · by_contra worked
    obtain ⟨prereq, needed, ended⟩ := blocked
    rw [explained.begun node member (pending node member stale) (settled node member) worked
      prereq needed] at ended
    rcases ended with failed | skipped
    · cases failed
    · cases skipped
  · refine told node member (pending node member stale) ?_
    cases status : state.status node.name with
    | unvisited => exact absurd status (complete.idle node member).1
    | pending => exact absurd status (settled node member)
    | building => exact absurd status (complete.idle node member).2
    | succeeded => exact Or.inl rfl
    | failed => exact Or.inr rfl
    | skipped =>
      obtain ⟨prereq, needed, blocks⟩ := explained.skipped node member status
      exact absurd ⟨prereq, needed, Status.blocks_iff.mp blocks⟩ free

/-- Where all work succeeds, no target fails. -/
theorem Explained.unfailed {state : State} (explained : Explained plan state)
    (told : state.Told plan fun _ => true) :
    ∀ node ∈ plan.graph.nodes, state.status node.name ≠ .failed := by
  intro node member failed
  by_cases stale : startStatus plan node = .pending
  · have ended := told node member stale (Or.inr failed)
    rw [failed] at ended
    cases ended
  · rw [explained.upToDate node member stale] at failed
    cases failed

/-- In a complete state all targets have succeeded if no target has failed. -/
theorem Explained.all_made {state : State} (explained : Explained plan state)
    (arranged : Arranged plan.graph.nodes) (complete : state.Complete plan.graph)
    (going : state.aborted = false)
    (unfailed : ∀ node ∈ plan.graph.nodes, state.status node.name ≠ .failed) :
    ∀ node ∈ plan.graph.nodes, state.status node.name = .succeeded := by
  refine arranged.rec_on fun node member below => ?_
  cases status : state.status node.name with
  | unvisited => exact absurd status (complete.idle node member).1
  | pending => exact absurd status (complete.settled going node member)
  | building => exact absurd status (complete.idle node member).2
  | succeeded => rfl
  | failed => exact absurd status (unfailed node member)
  | skipped =>
    obtain ⟨prereq, needed, blocks⟩ := explained.skipped node member status
    obtain ⟨other, otherMember, rfl⟩ := arranged.closed member needed
    rw [below other otherMember needed] at blocks
    cases blocks

/-! ### Work whose outcome is known -/

/-- **Work whose outcome is known**: in all worlds that it leads to, the work on a target that must
be built ends as foreseen, and no failure arises when a result is shared. -/
structure Foreseen (host : Host σ) (executor : Executor) (plan : Plan) (succeeds : Node → Bool)
    (usual : σ → Prop) : Prop where
  printing : ∀ world, usual world → ∀ piece, usual (host.print piece world)
  /-- The work on a target ends, or it raises a failure and counts as failed. -/
  execute : ∀ node ∈ plan.graph.nodes, (plan.assessment node.name).mustBuild = true →
    ∀ slot world, usual world →
      Ends (fun result after => result.status = verdict succeeds node ∧ usual after)
        (fun failure after => failure.isInterruption = false ∧ succeeds node = false ∧ usual after)
        (executor.execute host node (plan.assessment node.name).newer slot world)
  share : ∀ node ∈ plan.graph.nodes, (plan.assessment node.name).mustBuild = true →
    ∀ result world, usual world → result.status = verdict succeeds node →
      Ends (fun _ after => usual after) (fun _ _ => False) (executor.share host result node world)

/-- Targets that one run of a recipe makes end in the same way. -/
def Uniform (plan : Plan) (succeeds : Node → Bool) : Prop :=
  ∀ group, ∀ one ∈ plan.graph.nodes, Recipe.group? one = some group →
    ∀ other ∈ plan.graph.nodes, Recipe.group? other = some group → succeeds one = succeeds other

/-- A result is right for all targets of a group. -/
def RightFor (plan : Plan) (succeeds : Node → Bool) (group : Recipe.Group) (result : JobResult) :
    Prop :=
  ∀ node ∈ plan.graph.nodes, Recipe.group? node = some group →
    result.status = verdict succeeds node

/-- The result that is to be given to others is right for them. -/
def Stage.Right (plan : Plan) (succeeds : Node → Bool) : Stage → Prop
  | .idle | .working _ => True
  | .finishing group result => RightFor plan succeeds group result
  | .sharing result nodes =>
    ∀ node ∈ nodes, node ∈ plan.graph.nodes → result.status = verdict succeeds node

/-- **Everything so far has come about as foreseen.** -/
structure Foretold (plan : Plan) (succeeds : Node → Bool) (usual : σ → Prop) (scene : Scene σ) :
    Prop where
  usual : usual scene.outside
  right : scene.stage.Right plan succeeds
  finished : ∀ group result, scene.state.finished.get? group = some result →
    RightFor plan succeeds group result
  told : scene.state.Told plan succeeds

section Runs

variable {host : Host σ} {console : Console} {options : Options} {executor : Executor}
  {cost : String → Int} {order : Order σ} {succeeds : Node → Bool} {usual : σ → Prop}
  {one two : Scene σ}

theorem Stage.right_shared {result : JobResult} {nodes : List Node}
    (right : ∀ node ∈ nodes, node ∈ plan.graph.nodes → result.status = verdict succeeds node) :
    (Stage.shared result nodes).Right plan succeeds := by
  cases nodes with
  | nil => trivial
  | cons node rest => exact right

theorem Uniform.rightFor (uniform : Uniform plan succeeds) {node : Node}
    (member : node ∈ plan.graph.nodes) {group : Recipe.Group}
    (grouped : Recipe.group? node = some group) {result : JobResult}
    (status : result.status = verdict succeeds node) : RightFor plan succeeds group result := by
  intro other otherMember otherGrouped
  rw [status]
  unfold verdict
  rw [uniform group node member grouped other otherMember otherGrouped]

theorem Foreseen.ends_contain (foreseen : Foreseen host executor plan succeeds usual) {job : Job}
    (member : job.node ∈ plan.graph.nodes)
    (stale : (plan.assessment job.node.name).mustBuild = true) {world : σ} (start : usual world) :
    Ends (fun result after => result.status = verdict succeeds job.node ∧ usual after)
      (fun _ _ => False)
      (contain (Setting.ofPlan host console options executor plan cost order).workers job
        world) := by
  unfold contain
  refine Ends.tryCatch ((foreseen.execute job.node member stale job.slot world start).mono
    (fun _ _ both => both) ?_)
  rintro failure after ⟨survives, fails, kept⟩
  rw [if_neg (by simp [survives])]
  refine .ok ⟨?_, kept⟩
  unfold verdict
  rw [fails]
  rfl

/-- **Every event is as foreseen.** -/
theorem Foretold.event (foretold : Foretold plan succeeds usual one)
    (foreseen : Foreseen host executor plan succeeds usual) (uniform : Uniform plan succeeds)
    (arranged : Arranged plan.graph.nodes)
    (consistent : Consistent plan.graph options one.moment) (grouped : one.state.Grouped)
    (stale : ∀ node ∈ one.stage.due.nodes, (plan.assessment node.name).mustBuild = true)
    (event : Event (.ofPlan host console options executor plan cost order) one two) :
    Foretold plan succeeds usual two := by
  obtain ⟨start, right, finished, told⟩ := foretold
  have due : ∀ node ∈ one.stage.due.nodes, node ∈ plan.graph.nodes := fun node member =>
    (consistent.building_of_due node member).1
  cases event with
  | skip enabled made =>
    obtain ⟨waiting, ready, rfl⟩ := consistent.eq_of_skip enabled made
    exact ⟨start, trivial, finished, told.put (by simp)⟩
  | share enabled made =>
    obtain rfl := consistent.eq_of_share enabled made
    refine ⟨start, fun node member known => ?_, finished, told.put (by simp)⟩
    cases enabled with
    | share first going free own found =>
      obtain rfl := List.mem_singleton.mp member
      exact finished _ _ found node known own
  | ride enabled made =>
    obtain rfl := consistent.eq_of_ride enabled made
    exact ⟨start, trivial, finished, told.put (by simp)⟩
  | dispatch enabled made =>
    obtain rfl := consistent.eq_of_dispatch enabled made
    exact ⟨start, trivial, finished, told.put (by simp)⟩
  | land flying => exact ⟨start, trivial, finished, told⟩
  | @work world later job result before after worked ended made =>
    have member := due job.node List.mem_cons_self
    obtain ⟨status, kept⟩ :=
      (worked ▸ foreseen.ends_contain member (stale job.node List.mem_cons_self) start).of_ok
    obtain ⟨waiting, ready, rfl⟩ := consistent.eq_of_settle made
    refine ⟨kept, ?_, finished, told.put fun node nodeMember sameName _ => ?_⟩
    · unfold Stage.worked
      cases own : Recipe.group? job.node with
      | none => trivial
      | some group => exact uniform.rightFor member own status
    · rw [arranged.eq_of_name nodeMember member sameName]
      exact status
  | finish ended =>
    refine ⟨start, ?_, fun group result found => ?_, told⟩
    · exact Stage.right_shared fun node rides known => right node known (grouped.riders node rides)
    · rw [State.finishGroup, Table.get?_set] at found
      split at found
      · next sameGroup =>
        obtain rfl := Option.some.inj found
        exact sameGroup ▸ right
      · exact finished group result found
  | @adopt world later node rest result own before after shared ended made =>
    have member := due node List.mem_cons_self
    have status := right node List.mem_cons_self member
    have shares := foreseen.share node member (stale node List.mem_cons_self) result world start
      status
    have keeps := ends_share executor host result node world
    have shared : executor.share host result node world = .ok own later := shared
    rw [shared] at shares keeps
    have ownStatus : own.status = result.status := keeps.of_ok
    obtain ⟨waiting, ready, rfl⟩ := consistent.eq_of_settle made
    refine ⟨shares.of_ok, ?_, finished, told.put fun other otherMember sameName _ => ?_⟩
    · exact Stage.right_shared fun other later => right other (List.mem_cons_of_mem node later)
    · rw [arranged.eq_of_name otherMember member sameName, ownStatus, status]

/-- Nothing goes wrong. -/
theorem Foretold.not_fault (foretold : Foretold plan succeeds usual one)
    (foreseen : Foreseen host executor plan succeeds usual)
    (known : ∀ node ∈ one.stage.due.nodes, node ∈ plan.graph.nodes)
    (stale : ∀ node ∈ one.stage.due.nodes, (plan.assessment node.name).mustBuild = true)
    (failure : Failure) :
    ¬ Fault (.ofPlan host console options executor plan cost order) failure one := by
  obtain ⟨start, right, finished, told⟩ := foretold
  rintro (⟨failed⟩ | ⟨failed⟩)
  · exact (failed ▸ foreseen.ends_contain (known _ List.mem_cons_self)
      (stale _ List.mem_cons_self) start).of_error
  · have member := known _ List.mem_cons_self
    have shares := foreseen.share _ member (stale _ List.mem_cons_self) _ _ start
      (right _ List.mem_cons_self member)
    have failed : executor.share host _ _ _ = _ := failed
    rw [failed] at shares
    exact shares.of_error

variable (console options cost order) in
/-- A run of work whose outcome is known has a result, and all has come about as foreseen. -/
theorem run_foretold (arranged : Arranged plan.graph.nodes)
    (foreseen : Foreseen host executor plan succeeds usual) (uniform : Uniform plan succeeds)
    (origin : σ) (start : usual origin) :
    ∃ past state after,
      run (.ofPlan host console options executor plan cost order) plan origin = .ok state after ∧
        Course (.ofPlan host console options executor plan cost order) (State.start plan options)
          origin past ⟨after, state, .idle⟩ ∧
        Foretold plan succeeds usual ⟨after, state, .idle⟩ ∧ state.next = .stop := by
  have lawful := lawful_ofPlan host console options executor plan cost order
  have begins : Foretold plan succeeds usual ⟨origin, State.start plan options, .idle⟩ := by
    refine ⟨start, trivial, fun group result found => (by cases found), ?_⟩
    intro node member pending ended
    rw [status_start options arranged member, pending] at ended
    simp at ended
  exact run_keeps rfl arranged lawful begins
    (fun world state stage piece told =>
      ⟨foreseen.printing world told.usual piece, told.right, told.finished, told.told⟩)
    (fun past one two course told event => told.event foreseen uniform arranged
      (course.passage.consistent arranged) (course.passage.grouped arranged)
      (fun node due => (course.passage.of_due arranged node due).2.2) event)
    (fun past scene failure course told => told.not_fault foreseen
      (fun node due => (course.passage.of_due arranged node due).1)
      (fun node due => (course.passage.of_due arranged node due).2.2) failure)

/-- **A run that goes on after failures has a result, and its statuses are decided.** -/
theorem run_decided (arranged : Arranged plan.graph.nodes)
    (ruled : ∀ node ∈ plan.graph.nodes, (plan.assessment node.name).mustBuild = true →
      node.isSource = false)
    (foreseen : Foreseen host executor plan succeeds usual) (uniform : Uniform plan succeeds)
    (keepGoing : options.keepGoing = true) {origin : σ} (start : usual origin) :
    ∃ state after,
      run (.ofPlan host console options executor plan cost order) plan origin = .ok state after ∧
        Decided plan succeeds state := by
  obtain ⟨past, state, after, ran, course, foretold, stops⟩ :=
    run_foretold console options cost order arranged foreseen uniform origin start
  have passage := course.passage
  exact ⟨state, after, ran, (passage.explained arranged).decided
    ((passage.consistent arranged).complete arranged stops) (passage.going arranged keepGoing)
    ruled foretold.told⟩

/-! ### Two runs -/

variable {rules : RuleSet} {available : String → Bool} {targets : List String} {τ : Type}

/-- **Two runs of one plan agree**, whatever their numbers of workers, their costs, and the orders
in which their jobs are finished: the statuses in the end are the ones that are decided. -/
theorem run_agrees {planner : Host τ} {planConsole : Console} {planOptions : PlanOptions}
    {early late : τ} {options' : Options} {cost' : String → Int} {order' : Order σ}
    {before before' : σ}
    (built : (Graph.build rules available targets).1 = .ok plan.graph)
    (evaluated : Plan.evaluate planner planConsole planOptions plan.graph early = .ok plan late)
    (uniform : Uniform plan succeeds) (foreseen : Foreseen host executor plan succeeds usual)
    (keepGoing : options.keepGoing = true) (keepGoing' : options'.keepGoing = true)
    (start : usual before) (start' : usual before') :
    ∃ state after state' after',
      run (.ofPlan host console options executor plan cost order) plan before =
        .ok state after ∧
      run (.ofPlan host console options' executor plan cost' order') plan before' =
        .ok state' after' ∧
      (state.report plan.graph).statuses = (state'.report plan.graph).statuses ∧
      Decided plan succeeds state := by
  have arranged := build_arranged built
  have upward := upward_of_evaluate built evaluated
  have ruled : ∀ node ∈ plan.graph.nodes, (plan.assessment node.name).mustBuild = true →
      node.isSource = false := fun node member stale => upward.ruled member stale
  obtain ⟨state, after, ran, decided⟩ :=
    run_decided arranged ruled foreseen uniform keepGoing start
  obtain ⟨state', after', ran', decided'⟩ :=
    run_decided arranged ruled foreseen uniform keepGoing' start'
  refine ⟨state, after, state', after', ran, ran', ?_, decided⟩
  refine List.map_congr_left fun node member => ?_
  rw [decided.unique arranged decided' node member]

end Runs

/-- The last of the jobs in flight is finished next. -/
def Order.byLast : Order σ := fun job others _ =>
  ⟨(job :: others).getLast (List.cons_ne_nil job others), List.getLast_mem _⟩

/-! ### A parser in two files, made by several workers -/

/-- A rule of a rule file. -/
def yaccRule (targets prereqs : List String) (recipe : Option String) (line : Nat) : Rule :=
  .explicit {
    prereqs := prereqs
    recipe := recipe
    attributes := {}
    comparator := none
    location := ⟨"mkfile", line⟩
    targets := targets }

/-- One recipe makes both files of the parser, and each of them needs a file of its own. -/
def yaccRules : RuleSet where
  rules := [
    yaccRule ["gram.c", "gram.h"] ["gram.y"] (some "yacc") 1,
    yaccRule ["gram.c"] ["skeleton"] none 4,
    yaccRule ["gram.h"] ["tokens"] none 5,
    yaccRule ["skeleton"] [] (some "m4") 7,
    yaccRule ["tokens"] [] (some "lex") 9,
    yaccRule ["parser"] ["gram.c", "gram.h"] (some "cc") 11]
  values := []

/-- The node of a target. -/
def yaccNode (name : String) (prereqs : List String) (recipe : String) (targets : List String)
    (line : Nat) : Node where
  name := name
  prereqs := prereqs
  recipe := some recipe
  allTargets := targets
  location := some ⟨"mkfile", line⟩
  origin := .explicit

/-- Everything but the grammar is missing. -/
def yaccPlan : Plan where
  graph := {
    nodes := [
      { name := "gram.y", origin := .source },
      yaccNode "skeleton" [] "m4" ["skeleton"] 7,
      yaccNode "gram.c" ["gram.y", "skeleton"] "yacc" ["gram.c", "gram.h"] 1,
      yaccNode "tokens" [] "lex" ["tokens"] 9,
      yaccNode "gram.h" ["gram.y", "tokens"] "yacc" ["gram.c", "gram.h"] 1,
      yaccNode "parser" ["gram.c", "gram.h"] "cc" ["parser"] 11]
    roots := ["parser"] }
  assessments := [
    ("gram.y", { time := some 1 }),
    ("skeleton", { mustBuild := true, reasons := [.missing] }),
    ("gram.c", {
      mustBuild := true
      reasons := [.missing, .rebuilt "skeleton"]
      newer := ["gram.y", "skeleton"] }),
    ("tokens", { mustBuild := true, reasons := [.missing] }),
    ("gram.h", {
      mustBuild := true
      reasons := [.missing, .rebuilt "tokens"]
      newer := ["gram.y", "tokens"] }),
    ("parser", {
      mustBuild := true
      reasons := [.missing, .rebuilt "gram.c", .rebuilt "gram.h"]
      newer := ["gram.c", "gram.h"] })]

/-- A world in which the recipe for both files fails. -/
def yaccWorld : World where
  files := [("gram.y", { time := 1 })]
  script := { byCommand := [("yacc", { exitCode := 1 })] }

theorem build_yaccRules :
    (Graph.build yaccRules (· = "gram.y") ["parser"]).1 = .ok yaccPlan.graph := by
  rfl

theorem evaluate_yaccPlan :
    Plan.evaluate World.host {} {} yaccPlan.graph yaccWorld = .ok yaccPlan yaccWorld := by
  rfl

/-- Two workers, where the job that was submitted first is finished first. -/
def twoWorkers : Setting World :=
  .ofPlan World.host {} { workers := 2, keepGoing := true } { values := [] } yaccPlan (fun _ => 1)
    .byFinish

/-- Three workers, where the job that was submitted last is finished first. -/
def threeWorkers : Setting World :=
  .ofPlan World.host {} { workers := 3, keepGoing := true } { values := [] } yaccPlan (fun _ => 5)
    .byLast

/-- **Two jobs are in flight at once, and the recipe for both files is run for one of them.** -/
structure SharesRun (progress : Progress World) (maker : String) : Prop where
  dispatched : progress.state.dispatched = ["skeleton", "tokens", maker]
  parallel : ∃ state ∈ progress.states, state.running.length = 2

instance (progress : Progress World) (maker : String) : Decidable (SharesRun progress maker) :=
  decidable_of_iff (progress.state.dispatched = ["skeleton", "tokens", maker] ∧
    ∃ state ∈ progress.states, state.running.length = 2)
    ⟨fun both => ⟨both.1, both.2⟩, fun shares => ⟨shares.dispatched, shares.parallel⟩⟩

/-- In that world the work on a target fails if its recipe is that for both files. -/
theorem ends_execute_yacc {node : Node} {newer : List String} {recipe : String} {slot : Nat}
    (commands : List World.Command) (printed : List Printed)
    (given : Recipe.command node newer = some recipe)
    (kept : node.attributes.deleteOnFailure = false) :
    Ends (fun result after => result.status = (if recipe = "yacc" then .failed else .succeeded) ∧
        ∃ commands printed, after = { yaccWorld with commands, printed })
      (fun _ _ => False)
      (Executor.execute { values := [] } World.host node newer slot
        { yaccWorld with commands, printed }) := by
  have ran : World.host.attempt (Executor.words { values := [] } recipe)
      (Executor.environment { values := [] } [] node newer slot)
      { yaccWorld with commands, printed } =
        .ok ⟨if recipe = "yacc" then 1 else 0, ""⟩ { yaccWorld with
          commands := commands ++ [⟨Executor.words { values := [] } recipe,
            Executor.environment { values := [] } [] node newer slot⟩]
          printed } := by
    refine Host.attempt_eq ((World.run_eq _ rfl).trans ?_)
    show World.perform _ (yaccWorld.script.effect _) _ = _
    have last : (Executor.words { values := [] } recipe).getLast? = some recipe := by
      simp [Executor.words]
    rw [World.effect_of_command rfl last]
    by_cases fails : recipe = "yacc"
    · rw [if_pos fails, fails]
      rfl
    · have other : yaccWorld.script.byCommand.get? recipe = none := by
        simp [yaccWorld, Table.get?, Ne.symm fails]
      rw [if_neg fails, other]
      rfl
  have runs : Executor.execute { values := [] } World.host node newer slot =
      Executor.runRecipe { values := [] } World.host node newer recipe slot := by
    unfold Executor.execute
    rw [given]
    rfl
  rw [runs]
  unfold Executor.runRecipe
  refine Ends.get (Ends.bind ?_)
  show Ends _ _ (World.host.attempt _ (Executor.environment { values := [] } [] node newer slot) _)
  by_cases fails : recipe = "yacc"
  · rw [if_pos fails] at ran ⊢
    rw [ran]
    unfold Executor.removeFailed
    rw [kept]
    exact .ok (.ok ⟨rfl, _, printed, rfl⟩)
  · rw [if_neg fails] at ran ⊢
    rw [ran]
    exact .ok (.ok ⟨rfl, _, printed, rfl⟩)

/-- Work on the parser, where the recipe for both files fails. -/
theorem foreseen_yacc : Foreseen World.host { values := [] } yaccPlan
    (fun node => node.recipe ≠ some "yacc")
    fun world => ∃ commands printed, world = { yaccWorld with commands, printed } where
  printing := by
    rintro _ ⟨commands, printed, rfl⟩ piece
    exact ⟨commands, printed ++ [piece], rfl⟩
  execute := by
    rintro node member stale slot _ ⟨commands, printed, rfl⟩
    obtain ⟨recipe, given, plain, kept⟩ : ∃ recipe,
        Recipe.command node (yaccPlan.assessment node.name).newer = some recipe ∧
          node.recipe = some recipe ∧ node.attributes.deleteOnFailure = false := by
      simp only [yaccPlan, List.mem_cons, List.not_mem_nil, or_false] at member
      rcases member with rfl | rfl | rfl | rfl | rfl | rfl
      · cases stale
      · exact ⟨_, rfl, rfl, rfl⟩
      · exact ⟨_, rfl, rfl, rfl⟩
      · exact ⟨_, rfl, rfl, rfl⟩
      · exact ⟨_, rfl, rfl, rfl⟩
      · exact ⟨_, rfl, rfl, rfl⟩
    refine (ends_execute_yacc commands printed given kept).mono ?_ fun _ _ => False.elim
    rintro result after ⟨status, there⟩
    refine ⟨status.trans ?_, there⟩
    simp [verdict, plain]
  share := by
    rintro node member stale result _ ⟨commands, printed, rfl⟩ -
    have kept : node.attributes.deleteOnFailure = false := by
      simp only [yaccPlan, List.mem_cons, List.not_mem_nil, or_false] at member
      rcases member with rfl | rfl | rfl | rfl | rfl | rfl
      all_goals rfl
    unfold Executor.share Executor.removeFailed
    rw [kept]
    dsimp only
    split
    · exact .ok ⟨commands, printed, rfl⟩
    · split
      · exact .ok ⟨commands, printed, rfl⟩
      · exact .ok ⟨commands, printed, rfl⟩

/-- Only both files of the parser are made by one run. -/
theorem uniform_yacc : Uniform yaccPlan fun node => node.recipe ≠ some "yacc" := by
  intro group
  have plain : ∀ node ∈ yaccPlan.graph.nodes, Recipe.group? node = some group →
      node.recipe = some "yacc" := by
    intro node member grouped
    simp only [yaccPlan, List.mem_cons, List.not_mem_nil, or_false] at member
    rcases member with rfl | rfl | rfl | rfl | rfl | rfl
    · cases grouped
    · cases grouped
    · rfl
    · cases grouped
    · rfl
    · cases grouped
  intro one member grouped other otherMember otherGrouped
  dsimp only
  rw [plain one member grouped, plain other otherMember otherGrouped]

/-- With two workers the job for the first file is the one that runs the recipe, with three workers
that for the second one, and the statuses are the same. -/
theorem run_agrees_yacc :
    (Graph.build yaccRules (· = "gram.y") ["parser"]).1 = .ok yaccPlan.graph ∧
    Plan.evaluate World.host {} {} yaccPlan.graph yaccWorld = .ok yaccPlan yaccWorld ∧
    ∃ progress progress', runPlan twoWorkers yaccPlan yaccWorld = .ok () progress ∧
      SharesRun progress "gram.c" ∧
      runPlan threeWorkers yaccPlan yaccWorld = .ok () progress' ∧
      SharesRun progress' "gram.h" ∧
      (progress.state.report yaccPlan.graph).statuses =
        (progress'.state.report yaccPlan.graph).statuses ∧
      Decided yaccPlan (fun node => node.recipe ≠ some "yacc") progress.state := by
  have start : ∃ commands printed, yaccWorld = { yaccWorld with commands, printed } :=
    ⟨[], [], rfl⟩
  have agree : ∃ state after state' after',
      run twoWorkers yaccPlan yaccWorld = .ok state after ∧
      run threeWorkers yaccPlan yaccWorld = .ok state' after' ∧
      (state.report yaccPlan.graph).statuses = (state'.report yaccPlan.graph).statuses ∧
      Decided yaccPlan (fun node => node.recipe ≠ some "yacc") state :=
    run_agrees build_yaccRules evaluate_yaccPlan uniform_yacc foreseen_yacc rfl rfl start
      start
  obtain ⟨state, after, state', after', ran, ran', same, decided⟩ := agree
  obtain ⟨past, ran⟩ := runPlan_of_run ran
  obtain ⟨past', ran'⟩ := runPlan_of_run ran'
  -- Which jobs there are is found by running both plans.
  have finds : ∀ {setting : Setting World} {progress : Progress World} {maker : String},
      runPlan setting yaccPlan yaccWorld = .ok () progress →
      (match runPlan setting yaccPlan yaccWorld with
        | .ok _ found => decide (SharesRun found maker)
        | .error _ _ => false) = true → SharesRun progress maker := by
    intro setting progress maker ran shares
    rw [ran] at shares
    exact of_decide_eq_true shares
  exact ⟨build_yaccRules, evaluate_yaccPlan, _, _, ran, finds ran (by decide +kernel), ran',
    finds ran' (by decide +kernel), same, decided⟩

end BuildSystem.Schedule
