/-
**What was done in a build accounts for all that had to be done.**

* `jobsDone` — the targets whose jobs were done, according to a log.
* `Backed`, `BackedFor` — a result that is taken by others is that of a job of their group.
* `Booked`, `Log.booked` — the jobs in a log, in work and in flight are those that were submitted,
  and every result that is taken is backed.
* `Shares`, `Recorded.shares` — a target without a job takes the result of the only job of its group.
* `Accounted`, `Log.accounted` — what follows when nothing is left to do.
* `runPlan_atMostOnce` — what was done in a run, and that no target and no group had two jobs.
-/

import BuildSystem.Proofs.Schedule.Dispatch
import BuildSystem.Proofs.Schedule.Log
import BuildSystem.Proofs.Schedule.Outcome

namespace BuildSystem.Schedule

variable {σ : Type}

/-- The target of a job. -/
def Deed.jobName? : Deed → Option String
  | job node _ => some node.name
  | share _ _ => none

/-- The targets whose jobs were done. -/
def jobsDone (deeds : List Deed) : List String :=
  deeds.filterMap Deed.jobName?

@[simp] theorem jobsDone_concat_job (deeds : List Deed) (node : Node) (result : JobResult) :
    jobsDone (deeds ++ [.job node result]) = jobsDone deeds ++ [node.name] :=
  List.filterMap_append

@[simp] theorem jobsDone_concat_share (deeds : List Deed) (node : Node) (result : JobResult) :
    jobsDone (deeds ++ [.share node result]) = jobsDone deeds :=
  List.filterMap_append.trans (List.append_nil _)

section Logs

variable {setting : Setting σ} {plan : Plan} {graph : Graph} {options : Options} {origin : σ}
  {deeds : List Deed} {scene : Scene σ}

/-! ### Jobs that were submitted -/

/-- The result is that of a job for a target of the group. -/
def Backed (deeds : List Deed) (group : Recipe.Group) (result : JobResult) : Prop :=
  ∃ maker, Deed.job maker result ∈ deeds ∧ Recipe.group? maker = some group

/-- The target is in a group, and the result is that of a job of the group. -/
def BackedFor (deeds : List Deed) (node : Node) (result : JobResult) : Prop :=
  ∃ group, Recipe.group? node = some group ∧ Backed deeds group result

/-- The results that are to be given to others are those of jobs of their groups. -/
def Stage.Backed (deeds : List Deed) : Stage → Prop
  | idle | working _ => True
  | finishing group result => Schedule.Backed deeds group result
  | sharing result nodes => ∀ node ∈ nodes, BackedFor deeds node result

/-- The target whose job is in work. -/
def Stage.jobs : Stage → List String
  | working job => [job.node.name]
  | idle | finishing _ _ | sharing _ _ => []

/-- **The jobs that were done, that are in work, and that are in flight are those that were
submitted**, and all results that others take are those of jobs of their groups. -/
structure Booked (deeds : List Deed) (scene : Scene σ) : Prop where
  jobs : (jobsDone deeds ++ (scene.stage.jobs ++ scene.state.running.map (·.node.name))).Perm
    scene.state.dispatched
  finished : ∀ group result, scene.state.finished.get? group = some result →
    Backed deeds group result
  stage : scene.stage.Backed deeds
  shares : ∀ node result, Deed.share node result ∈ deeds → BackedFor deeds node result

theorem Backed.append {group : Recipe.Group} {result : JobResult}
    (backed : Backed deeds group result) (more : List Deed) :
    Backed (deeds ++ more) group result := by
  obtain ⟨maker, done, grouped⟩ := backed
  exact ⟨maker, List.mem_append_left more done, grouped⟩

theorem BackedFor.append {node : Node} {result : JobResult}
    (backed : BackedFor deeds node result) (more : List Deed) :
    BackedFor (deeds ++ more) node result := by
  obtain ⟨group, grouped, backed⟩ := backed
  exact ⟨group, grouped, backed.append more⟩

namespace Stage

@[simp] theorem jobs_worked (job : Job) (result : JobResult) : (worked job result).jobs = [] := by
  unfold worked
  cases Recipe.group? job.node with
  | none => rfl
  | some group => rfl

@[simp] theorem jobs_shared (result : JobResult) (nodes : List Node) :
    (shared result nodes).jobs = [] := by
  cases nodes with
  | nil => rfl
  | cons node rest => rfl

theorem backed_worked {job : Job} {result : JobResult} (done : Deed.job job.node result ∈ deeds) :
    (worked job result).Backed deeds := by
  unfold worked
  cases grouped : Recipe.group? job.node with
  | none => trivial
  | some group => exact ⟨job.node, done, grouped⟩

theorem backed_shared {result : JobResult} {nodes : List Node}
    (backed : ∀ node ∈ nodes, BackedFor deeds node result) :
    (shared result nodes).Backed deeds := by
  cases nodes with
  | nil => trivial
  | cons node rest => exact backed

end Stage

namespace Booked

variable {one two : Scene σ}

theorem quiet (booked : Booked deeds one)
    (consistent : Consistent setting.graph setting.options one.moment)
    (grouped : one.state.Grouped) (quiet : one.stage.Quiet) (event : Event setting one two) :
    Booked deeds two := by
  cases event with
  | skip enabled made =>
    obtain ⟨waiting, ready, rfl⟩ := consistent.eq_of_skip enabled made
    exact ⟨booked.jobs, booked.finished, trivial, booked.shares⟩
  | @share world node result before after enabled made =>
    obtain rfl := consistent.eq_of_share enabled made
    refine ⟨booked.jobs, booked.finished, fun other listed => ?_, booked.shares⟩
    obtain rfl := List.mem_singleton.mp listed
    cases enabled with
    | share first going free own found => exact ⟨_, own, booked.finished _ _ found⟩
  | ride enabled made =>
    obtain rfl := consistent.eq_of_ride enabled made
    exact ⟨booked.jobs, booked.finished, trivial, booked.shares⟩
  | @dispatch world node slot cost before after enabled made =>
    obtain rfl := consistent.eq_of_dispatch enabled made
    refine ⟨?_, booked.finished, trivial, booked.shares⟩
    have jobs : (jobsDone deeds ++ before.running.map (·.node.name)).Perm before.dispatched :=
      booked.jobs
    have more := jobs.append_right [node.name]
    rw [List.append_assoc] at more
    simpa [Stage.jobs] using more
  | @land world job before flying =>
    refine ⟨?_, booked.finished, trivial, booked.shares⟩
    have landed : ([job.node.name] ++ (before.running.erase job).map (·.node.name)).Perm
        (before.running.map (·.node.name)) :=
      ((List.perm_cons_erase flying).map fun job : Job => job.node.name).symm
    exact (landed.append_left _).trans booked.jobs
  | work worked ended made => exact quiet.elim
  | @finish world group result before ended =>
    refine ⟨?_, fun other found given => ?_, ?_, booked.shares⟩
    · rw [Stage.jobs_shared]
      exact booked.jobs
    · have given' : (before.finished.set group result).get? other = some found := given
      rw [Table.get?_set] at given'
      split at given'
      · next same =>
        obtain rfl := Option.some.inj given'
        exact same ▸ booked.stage
      · exact booked.finished other found given'
    · exact Stage.backed_shared fun node rides => ⟨group, grouped.riders node rides, booked.stage⟩
  | adopt shared ended made => exact quiet.elim

/-- The job in work was done. -/
theorem work {world later : σ} {job : Job} {result : JobResult} {before after : State}
    (booked : Booked deeds ⟨world, before, .working job⟩)
    (consistent : Consistent graph options ⟨before, ⟨[job.node], Recipe.group? job.node⟩⟩)
    (made : before.settle graph options job.node result = .ok after) :
    Booked (deeds ++ [.job job.node result]) ⟨later, after, .worked job result⟩ := by
  obtain ⟨waiting, ready, rfl⟩ := consistent.eq_of_settle made
  have done : Deed.job job.node result ∈ deeds ++ [.job job.node result] :=
    List.mem_append_right _ (List.mem_singleton_self _)
  refine ⟨?_, fun group found given => (booked.finished group found given).append _,
    Stage.backed_worked done, fun node shared listed => ?_⟩
  · rw [Stage.jobs_worked, jobsDone_concat_job, List.append_assoc]
    exact booked.jobs
  · rcases List.mem_append.mp listed with old | new
    · exact (booked.shares node shared old).append _
    · cases List.mem_singleton.mp new

/-- A target took a result. -/
theorem adopt {world later : σ} {node : Node} {rest : List Node} {result own : JobResult}
    {before after : State} (booked : Booked deeds ⟨world, before, .sharing result (node :: rest)⟩)
    (consistent : Consistent graph options ⟨before, ⟨node :: rest, none⟩⟩)
    (made : before.settle graph options node own = .ok after) :
    Booked (deeds ++ [.share node result]) ⟨later, after, .shared result rest⟩ := by
  obtain ⟨waiting, ready, rfl⟩ := consistent.eq_of_settle made
  refine ⟨?_, fun group found given => (booked.finished group found given).append _,
    Stage.backed_shared fun other later =>
      (booked.stage other (List.mem_cons_of_mem node later)).append _,
    fun other shared listed => ?_⟩
  · rw [Stage.jobs_shared, jobsDone_concat_share]
    exact booked.jobs
  · rcases List.mem_append.mp listed with old | new
    · exact (booked.shares other shared old).append _
    · obtain ⟨rfl, rfl⟩ := Deed.share.inj (List.mem_singleton.mp new)
      exact (booked.stage other List.mem_cons_self).append _

end Booked

/-- **The jobs in a log are those that were submitted.** -/
theorem Log.booked (same : setting.graph = plan.graph) (arranged : Arranged plan.graph.nodes)
    (log : Log setting (State.start plan setting.options) origin deeds scene) :
    Booked deeds scene := by
  induction log with
  | start =>
    refine ⟨.refl _, fun group result found => ?_, trivial, fun node result listed => ?_⟩
    · cases found
    · cases listed
  | print log piece ih => exact ⟨ih.jobs, ih.finished, ih.stage, ih.shares⟩
  | quiet log quiet event ih =>
    obtain ⟨past, passage⟩ := log.passage same
    exact ih.quiet (same ▸ passage.consistent arranged) (passage.grouped arranged) quiet event
  | work log worked ended made ih =>
    obtain ⟨past, passage⟩ := log.passage same
    exact ih.work (passage.consistent arranged) (same ▸ made)
  | adopt log shared ended made ih =>
    obtain ⟨past, passage⟩ := log.passage same
    exact ih.adopt (passage.consistent arranged) (same ▸ made)

/-! ### When nothing is left to do -/

/-- When no job is in flight, those that were submitted have been done. -/
theorem Booked.jobs_of_landed {world : σ} {state : State}
    (booked : Booked deeds ⟨world, state, .idle⟩) (landed : state.running = []) :
    (jobsDone deeds).Perm state.dispatched := by
  have all := booked.jobs
  rw [landed] at all
  simpa [Stage.jobs] using all

theorem mem_jobsDone {name : String} :
    name ∈ jobsDone deeds ↔ ∃ node result, Deed.job node result ∈ deeds ∧ node.name = name := by
  unfold jobsDone
  rw [List.mem_filterMap]
  constructor
  · rintro ⟨deed, member, named⟩
    cases deed with
    | job node result => exact ⟨node, result, member, Option.some.inj named⟩
    | share node result => cases named
  · rintro ⟨node, result, member, rfl⟩
    exact ⟨.job node result, member, rfl⟩

/-- **A target without a job takes the result of the only job for its group.** -/
structure Shares (plan : Plan) (dispatched : List String) (deeds : List Deed) (node : Node) :
    Prop where
  jobless : node.name ∉ dispatched
  maker : ∃ group maker result, Recipe.group? node = some group ∧
    (maker ∈ plan.graph.nodes ∧ maker.name ∈ dispatched ∧ Recipe.group? maker = some group) ∧
    (∀ other ∈ plan.graph.nodes, other.name ∈ dispatched → Recipe.group? other = some group →
      other = maker) ∧
    Deed.job maker result ∈ deeds ∧ Deed.share node result ∈ deeds

/-- **What was done in a build in which nothing is left to do**: exactly the jobs that were
submitted, each once; no target that need not be built was settled, and none twice; and if the
report is ok, all that must be built had a job or takes the result of the only job for its group. -/
structure Accounted (plan : Plan) (report : BuildReport) (deeds : List Deed) : Prop where
  jobs : (jobsDone deeds).Perm report.dispatched
  once : (deeds.map (·.node.name)).Nodup
  stale : ∀ deed ∈ deeds, deed.node ∈ plan.stale
  made : report.ok = true → ∀ node ∈ plan.stale,
    (node.name ∈ report.dispatched ∧ ∃ result, Deed.job node result ∈ deeds) ∨
      Shares plan report.dispatched deeds node

/-- A target that took a result had no job, and the job for its group was the only one. -/
theorem Recorded.shares {state : State} (recorded : Recorded plan state deeds)
    (submitted : Submitted plan state) (jobs : (jobsDone deeds).Perm state.dispatched)
    {node : Node} {result : JobResult} (taken : Deed.share node result ∈ deeds)
    (backed : BackedFor deeds node result) : Shares plan state.dispatched deeds node where
  jobless := by
    intro again
    obtain ⟨other, own, done, named⟩ := mem_jobsDone.mp (jobs.mem_iff.mpr again)
    cases List.inj_on_of_nodup_map recorded.once done taken named
  maker := by
    obtain ⟨group, grouped, maker, done, makerGrouped⟩ := backed
    have member : maker ∈ plan.graph.nodes := (recorded.settled _ done).1
    have dispatched : maker.name ∈ state.dispatched :=
      jobs.mem_iff.mp (mem_jobsDone.mpr ⟨maker, result, done, rfl⟩)
    exact ⟨group, maker, result, grouped, ⟨member, dispatched, makerGrouped⟩,
      fun other otherMember late otherGrouped => submitted.alone other otherMember late maker member
        dispatched group otherGrouped makerGrouped, done, taken⟩

variable {rules : RuleSet} {available : String → Bool} {targets : List String}

theorem Log.accounted (same : setting.graph = plan.graph)
    (built : (Graph.build rules available targets).1 = .ok plan.graph)
    (upward : Upward plan.graph.nodes plan.assessments) {world : σ} {state : State}
    (log : Log setting (State.start plan setting.options) origin deeds ⟨world, state, .idle⟩)
    (landed : state.running = []) : Accounted plan (state.report plan.graph) deeds := by
  have arranged := build_arranged built
  obtain ⟨past, passage⟩ := log.passage same
  have explained : Explained plan state := passage.explained arranged
  have submitted : Submitted plan state := passage.submitted arranged
  have recorded : Recorded plan state deeds := log.recorded same arranged
  have booked := log.booked same arranged
  have jobs := booked.jobs_of_landed landed
  refine ⟨jobs, recorded.once, fun deed member => ?_, fun ok node stale => ?_⟩
  · obtain ⟨nodeMember, pending, _⟩ := recorded.settled deed member
    exact List.mem_filter.mpr
      ⟨nodeMember, ((startStatus_eq_pending_iff plan deed.node).mp pending).2⟩
  · have roots : ∀ root ∈ plan.graph.roots, state.status root = .succeeded := by
      intro root asked
      unfold BuildReport.ok at ok
      rw [Bool.and_eq_true, List.all_eq_true] at ok
      exact (explained.get?_report arranged (by decide) root).mp (by simpa using ok.2 root asked)
    obtain ⟨member, mustBuild⟩ := List.mem_filter.mp stale
    have succeeded := explained.all_succeeded built upward roots node member
    have pending : startStatus plan node = .pending :=
      (startStatus_eq_pending_iff plan node).mpr ⟨upward.ruled member mustBuild, mustBuild⟩
    obtain ⟨deed, listed, rfl⟩ := recorded.covered node member pending (Or.inl succeeded)
    cases deed with
    | job node result =>
      exact Or.inl ⟨jobs.mem_iff.mp (mem_jobsDone.mpr ⟨node, result, listed, rfl⟩), result, listed⟩
    | share node result =>
      exact Or.inr (recorded.shares submitted jobs listed (booked.shares node result listed))

end Logs

/-! ### Runs -/

variable {τ : Type} {rules : RuleSet} {available : String → Bool} {targets : List String}
  {plan : Plan}

/-- **No target and no group has two jobs**, whatever commands do, in whatever order jobs are
finished, and whether or not the run breaks off.  **When the run ends, exactly the submitted jobs
were done**, and all that must be built had a job or took the result of the only job for its group,
if the report is ok. -/
theorem runPlan_atMostOnce {planner : Host τ} {planConsole : Console} {planOptions : PlanOptions}
    {early late : τ} (built : (Graph.build rules available targets).1 = .ok plan.graph)
    (evaluated : Plan.evaluate planner planConsole planOptions plan.graph early = .ok plan late)
    (host : Host σ) (console : Console) (options : Options) (executor : Executor)
    (cost : String → Int) (order : Order σ) (outside : σ) :
    Ends (fun _ progress =>
        AtMostOnce plan (progress.state.report plan.graph).dispatched ∧
        (∃ deeds, Log (.ofPlan host console options executor plan cost order)
          (State.start plan options) outside deeds ⟨progress.outside, progress.state, .idle⟩) ∧
        ∀ deeds, Log (.ofPlan host console options executor plan cost order)
            (State.start plan options) outside deeds ⟨progress.outside, progress.state, .idle⟩ →
          Accounted plan (progress.state.report plan.graph) deeds)
      (fun _ progress => AtMostOnce plan progress.state.dispatched)
      (runPlan (.ofPlan host console options executor plan cost order) plan outside) := by
  have arranged := build_arranged built
  have upward := upward_of_evaluate built evaluated
  refine (runPlan_course rfl arranged
    (lawful_ofPlan host console options executor plan cost order) outside).mono ?_ ?_
  · rintro _ progress ⟨course, stops⟩
    have landed : progress.state.running = [] := by
      have enabled := progress.state.enabled_next
      rw [stops] at enabled
      cases enabled with
      | stop landed stuck => exact landed
    exact ⟨(course.passage.submitted arranged).atMostOnce, course.log,
      fun deeds log => log.accounted rfl built upward landed⟩
  · rintro failure progress ⟨⟨⟨due, passage⟩, _, _⟩, _⟩
    exact (passage.submitted arranged).atMostOnce

/-! ### A parser in two files -/

/-- A rule whose recipe makes both files of a parser from a grammar. -/
def grammarRules : RuleSet where
  rules := [.explicit {
    prereqs := ["gram.y"]
    recipe := some "yacc"
    attributes := {}
    comparator := none
    location := ⟨"mkfile", 1⟩
    targets := ["gram.c", "gram.h"] }]
  values := []

/-- The node of one of the files. -/
def grammarNode (name : String) : Node where
  name := name
  prereqs := ["gram.y"]
  recipe := some "yacc"
  allTargets := ["gram.c", "gram.h"]
  location := some ⟨"mkfile", 1⟩
  origin := .explicit

/-- Both files are missing. -/
def grammarPlan : Plan where
  graph := {
    nodes := [{ name := "gram.y", origin := .source }, grammarNode "gram.c", grammarNode "gram.h"]
    roots := ["gram.c", "gram.h"] }
  assessments := [
    ("gram.y", { time := some 1 }),
    ("gram.c", { mustBuild := true, reasons := [.missing], newer := ["gram.y"] }),
    ("gram.h", { mustBuild := true, reasons := [.missing], newer := ["gram.y"] })]

/-- A world with the grammar. -/
def grammarWorld : World where
  files := [("gram.y", { time := 1 })]

theorem runPlan_atMostOnce_grammar :
    (Graph.build grammarRules (· = "gram.y") ["gram.c", "gram.h"]).1 = .ok grammarPlan.graph ∧
    Plan.evaluate World.host {} {} grammarPlan.graph grammarWorld =
      .ok grammarPlan grammarWorld ∧
    ∃ progress, runPlan (.ofPlan World.host {} { workers := 2 } { values := [] } grammarPlan
        (fun _ => 1) .byFinish) grammarPlan grammarWorld = .ok () progress ∧
      (progress.state.report grammarPlan.graph).ok = true ∧
      progress.state.dispatched = ["gram.c"] ∧
      AtMostOnce grammarPlan progress.state.dispatched ∧
      ∃ deeds, Accounted grammarPlan (progress.state.report grammarPlan.graph) deeds := by
  have built : (Graph.build grammarRules (· = "gram.y") ["gram.c", "gram.h"]).1 =
      .ok grammarPlan.graph := rfl
  have evaluated : Plan.evaluate World.host {} {} grammarPlan.graph grammarWorld =
      .ok grammarPlan grammarWorld := rfl
  refine ⟨built, evaluated, ?_⟩
  have ends := runPlan_atMostOnce built evaluated World.host {} { workers := 2 } { values := [] }
    (fun _ => 1) .byFinish grammarWorld
  have made : (match runPlan (.ofPlan World.host {} { workers := 2 } { values := [] } grammarPlan
        (fun _ => 1) .byFinish) grammarPlan grammarWorld with
      | .ok _ progress => (progress.state.report grammarPlan.graph).ok &&
          progress.state.dispatched = ["gram.c"]
      | .error _ _ => false) = true := by
    decide +kernel
  generalize runPlan (.ofPlan World.host {} { workers := 2 } { values := [] } grammarPlan
      (fun _ => 1) .byFinish) grammarPlan grammarWorld = result at ends made ⊢
  cases result with
  | ok _ progress =>
    obtain ⟨once, ⟨deeds, log⟩, accounted⟩ := ends.of_ok
    rw [Bool.and_eq_true, decide_eq_true_iff] at made
    exact ⟨progress, rfl, made.1, made.2, once, deeds, accounted deeds log⟩
  | error failure progress => cases made

end BuildSystem.Schedule
