/-
**The run whose result a target carries.**

The targets of a group may need different things.  The run of their recipe is submitted for the
first of them that is ready, and each of the others takes its result when it is ready itself.

* `Carries` — a target carries the result of its own job or of one for another target of its group.
* `RunsAfterAll` — such a run is submitted only after everything that the target needs has been
  made.
* `not_runsAfterAll` — this fails for a target that needs more than the one with the job.
* `CarriedBy` — what holds instead: the run was submitted only after everything that its own target
  needs had been made, and the result was taken only after everything that its taker needs had been.
* `runPlan_carried` — every target that succeeds in a run is carried so.
-/

import BuildSystem.Proofs.Schedule.Accounting

namespace BuildSystem.Schedule

variable {σ : Type}

/-- **A target carries the result of the run for a maker**, according to what was done. -/
inductive Carries (deeds : List Deed) : (node maker : Node) → Prop
  | own {node : Node} {result : JobResult} (done : Deed.job node result ∈ deeds) :
      Carries deeds node node
  | shared {node maker : Node} {result : JobResult} {group : Recipe.Group}
      (taken : Deed.share node result ∈ deeds) (done : Deed.job maker result ∈ deeds)
      (grouped : Recipe.group? node = some group)
      (makerGrouped : Recipe.group? maker = some group) : Carries deeds node maker

/-- Every run whose result a target carries was submitted only after all prerequisites of that
target had succeeded. -/
def RunsAfterAll (plan : Plan) (progress : Progress σ) (deeds : List Deed) : Prop :=
  ∀ node ∈ plan.stale, progress.state.status node.name = .succeeded →
    ∀ maker, Carries deeds node maker →
      ∀ state ∈ progress.states, maker.name ∈ state.dispatched →
        ∀ prereq ∈ node.prereqs, state.status prereq = .succeeded

/-- **The run for the maker is the one whose result a target carries**: the run was submitted only
after all prerequisites of the maker had succeeded, and the work on the target began only after all
of its own prerequisites had. -/
structure CarriedBy (plan : Plan) (progress : Progress σ) (deeds : List Deed)
    (node maker : Node) : Prop where
  carries : Carries deeds node maker
  only : ∀ other, Carries deeds node other → other = maker
  submitted : maker ∈ plan.graph.nodes ∧ maker.name ∈ progress.state.dispatched
  afterMaker : ∀ state ∈ progress.states, maker.name ∈ state.dispatched →
    ∀ prereq ∈ maker.prereqs, state.status prereq = .succeeded
  afterOwn : ∀ state ∈ progress.states,
    state.status node.name = .building ∨ state.status node.name = .succeeded →
      ∀ prereq ∈ node.prereqs, state.status prereq = .succeeded

/-- **Every target that has succeeded is carried by a run**, according to every log of the build so
far; and there is such a log. -/
structure Carried (setting : Setting σ) (plan : Plan) (origin : σ) (progress : Progress σ) :
    Prop where
  logged : ∃ deeds scene, Log setting (State.start plan setting.options) origin deeds scene ∧
    scene.state = progress.state
  carried : ∀ deeds scene, Log setting (State.start plan setting.options) origin deeds scene →
    scene.state = progress.state →
      ∀ node ∈ plan.stale, progress.state.status node.name = .succeeded →
        ∃ maker, CarriedBy plan progress deeds node maker

section Logs

variable {setting : Setting σ} {plan : Plan} {origin : σ} {deeds : List Deed} {scene : Scene σ}
  {node maker other : Node}

/-! ### The maker -/

/-- The maker had a job. -/
theorem Carries.done (carries : Carries deeds node maker) :
    ∃ result, Deed.job maker result ∈ deeds := by
  cases carries with
  | own done => exact ⟨_, done⟩
  | shared taken done grouped makerGrouped => exact ⟨_, done⟩

/-- The jobs that were done had been submitted. -/
theorem Booked.dispatched (booked : Booked deeds scene) {result : JobResult}
    (done : Deed.job maker result ∈ deeds) : maker.name ∈ scene.state.dispatched :=
  booked.jobs.mem_iff.mp (List.mem_append_left _ (mem_jobsDone.mpr ⟨maker, result, done, rfl⟩))

/-- Whatever has been settled carries the result of a run. -/
theorem Booked.carries (booked : Booked deeds scene) {deed : Deed} (listed : deed ∈ deeds) :
    ∃ maker, Carries deeds deed.node maker := by
  cases deed with
  | job node result => exact ⟨node, .own listed⟩
  | share node result =>
    obtain ⟨group, grouped, maker, done, makerGrouped⟩ := booked.shares node result listed
    exact ⟨maker, .shared listed done grouped makerGrouped⟩

/-- **A target carries the result of one run only**: it is settled once, and its group has one
job. -/
theorem Recorded.carries_unique (recorded : Recorded plan scene.state deeds)
    (submitted : Submitted plan scene.state) (booked : Booked deeds scene)
    (carries : Carries deeds node maker) (again : Carries deeds node other) : other = maker := by
  have once : ∀ {one two : Deed}, one ∈ deeds → two ∈ deeds → one.node = two.node → one = two :=
    fun oneListed twoListed same =>
      List.inj_on_of_nodup_map recorded.once oneListed twoListed (congrArg Node.name same)
  cases carries with
  | own done =>
    cases again with
    | own again => rfl
    | shared taken => cases once done taken rfl
  | @shared maker result group taken done grouped makerGrouped =>
    cases again with
    | own again => cases once again taken rfl
    | @shared other shared second takenAgain doneAgain groupedAgain otherGrouped =>
      obtain rfl : second = group := Option.some.inj (groupedAgain.symm.trans grouped)
      exact submitted.alone other (recorded.settled _ doneAgain).1 (booked.dispatched doneAgain)
        maker (recorded.settled _ done).1 (booked.dispatched done) second otherGrouped makerGrouped

/-! ### When the run was submitted, and when its result was taken -/

/-- **A target that has succeeded is carried by a run**, according to every log of the build. -/
theorem Log.carriedBy (same : setting.graph = plan.graph) (arranged : Arranged plan.graph.nodes)
    (log : Log setting (State.start plan setting.options) origin deeds scene)
    {progress : Progress σ} {due : Due} (there : scene.state = progress.state)
    (passage : Passage plan.graph setting.options (State.start plan setting.options) progress.past
      ⟨progress.state, due⟩) (member : node ∈ plan.graph.nodes)
    (stale : startStatus plan node = .pending)
    (succeeded : progress.state.status node.name = .succeeded) :
    ∃ maker, CarriedBy plan progress deeds node maker := by
  have recorded : Recorded plan scene.state deeds := log.recorded same arranged
  have booked : Booked deeds scene := log.booked same arranged
  have submitted : Submitted plan scene.state := there ▸ passage.submitted arranged
  obtain ⟨deed, listed, rfl⟩ := recorded.covered node member stale (Or.inl (there ▸ succeeded))
  obtain ⟨maker, carries⟩ := booked.carries listed
  obtain ⟨result, done⟩ := carries.done
  have makerMember : maker ∈ plan.graph.nodes := (recorded.settled _ done).1
  refine ⟨maker, carries, fun other again =>
    recorded.carries_unique submitted booked carries again,
    ⟨makerMember, there ▸ booked.dispatched done⟩, ?_, ?_⟩
  · exact passage.all arranged fun moment consistent early =>
      consistent.orderly.begun maker makerMember (Or.inr early)
  · refine passage.each fun past moment earlier begun => ?_
    refine (earlier.explained arranged).begun deed.node member stale ?_ ?_
    · rcases begun with building | made
      · simp [building]
      · simp [made]
    · rcases begun with building | made
      · simp [building]
      · simp [made]

/-- **Wherever a course has led, every target that has succeeded is carried by a run.** -/
theorem Course.carried (same : setting.graph = plan.graph) (arranged : Arranged plan.graph.nodes)
    (upward : Upward plan.graph.nodes plan.assessments) {progress : Progress σ}
    (course : Course setting (State.start plan setting.options) origin progress.past scene)
    (there : scene.state = progress.state) : Carried setting plan origin progress where
  logged := by
    obtain ⟨deeds, log⟩ := course.log
    exact ⟨deeds, scene, log, there⟩
  carried := by
    intro deeds other log thereToo node stale succeeded
    obtain ⟨member, mustBuild⟩ := List.mem_filter.mp stale
    have passage : Passage plan.graph setting.options (State.start plan setting.options)
        progress.past ⟨progress.state, scene.stage.due⟩ := same ▸ there ▸ course.passage
    exact log.carriedBy same arranged thereToo passage member
      ((startStatus_eq_pending_iff plan node).mpr ⟨upward.ruled member mustBuild, mustBuild⟩)
      succeeded

end Logs

/-! ### Runs -/

variable {τ : Type} {rules : RuleSet} {available : String → Bool} {targets : List String}
  {plan : Plan}

/-- **The run whose result a target carries was submitted only after all prerequisites of the target
that it was submitted for had succeeded**, whatever commands do, in whatever order jobs are
finished, and whether or not the run breaks off; **another target of the group takes the result only
after all of its own prerequisites have succeeded**. -/
theorem runPlan_carried {planner : Host τ} {planConsole : Console} {planOptions : PlanOptions}
    {early late : τ} (built : (Graph.build rules available targets).1 = .ok plan.graph)
    (evaluated : Plan.evaluate planner planConsole planOptions plan.graph early = .ok plan late)
    (host : Host σ) (console : Console) (options : Options) (executor : Executor)
    (cost : String → Int) (order : Order σ) (outside : σ) :
    Ends
      (fun _ progress =>
        Carried (.ofPlan host console options executor plan cost order) plan outside progress)
      (fun _ progress =>
        Carried (.ofPlan host console options executor plan cost order) plan outside progress)
      (runPlan (.ofPlan host console options executor plan cost order) plan outside) := by
  have arranged := build_arranged built
  have upward := upward_of_evaluate built evaluated
  refine (runPlan_course rfl arranged
    (lawful_ofPlan host console options executor plan cost order) outside).mono ?_ ?_
  · rintro _ progress ⟨course, -⟩
    exact course.carried rfl arranged upward rfl
  · rintro failure progress founders
    obtain ⟨scene, cause, course, there, -⟩ := founders.fault
    exact course.carried rfl arranged upward there

/-! ### A parser with a list of tokens -/

/-- Both files of a parser are made from a grammar, and one of them needs a list of tokens too. -/
def tokenRules : RuleSet where
  rules := [
    .explicit {
      prereqs := ["gram.y"]
      recipe := some "yacc"
      attributes := {}
      comparator := none
      location := ⟨"mkfile", 1⟩
      targets := ["gram.c", "gram.h"] },
    .explicit {
      prereqs := ["tokens"]
      recipe := none
      attributes := {}
      comparator := none
      location := ⟨"mkfile", 4⟩
      targets := ["gram.h"] },
    .explicit {
      prereqs := []
      recipe := some "lex"
      attributes := {}
      comparator := none
      location := ⟨"mkfile", 6⟩
      targets := ["tokens"] }]
  values := []

/-- The file that needs the tokens. -/
def tokenHeader : Node :=
  { grammarNode "gram.h" with prereqs := ["gram.y", "tokens"] }

/-- All files but the grammar are missing. -/
def tokenPlan : Plan where
  graph := {
    nodes := [
      { name := "gram.y", origin := .source },
      grammarNode "gram.c",
      { name := "tokens"
        recipe := some "lex"
        allTargets := ["tokens"]
        location := some ⟨"mkfile", 6⟩
        origin := .explicit },
      tokenHeader]
    roots := ["gram.c", "gram.h"] }
  assessments := [
    ("gram.y", { time := some 1 }),
    ("gram.c", { mustBuild := true, reasons := [.missing], newer := ["gram.y"] }),
    ("tokens", { mustBuild := true, reasons := [.missing] }),
    ("gram.h", {
      mustBuild := true
      reasons := [.missing, .rebuilt "tokens"]
      newer := ["gram.y", "tokens"] })]

/-- The recipes are run one after the other. -/
def tokenSetting : Setting World :=
  .ofPlan World.host {} {} { values := [] } tokenPlan (fun _ => 1) .byFinish

theorem build_tokenRules :
    (Graph.build tokenRules (· = "gram.y") ["gram.c", "gram.h"]).1 = .ok tokenPlan.graph := by
  rfl

theorem evaluate_tokenPlan :
    Plan.evaluate World.host {} {} tokenPlan.graph grammarWorld = .ok tokenPlan grammarWorld := by
  rfl

/-- The recipe for both files is run for the first one, before the tokens are there; then both have
been made. -/
theorem run_tokenPlan : ∃ progress, runPlan tokenSetting tokenPlan grammarWorld = .ok () progress ∧
    progress.state.status "gram.h" = .succeeded ∧ "gram.h" ∉ progress.state.dispatched ∧
    ∃ state ∈ progress.states,
      state.dispatched = ["gram.c"] ∧ state.status "tokens" = .pending := by
  have ran : (match runPlan tokenSetting tokenPlan grammarWorld with
      | .ok _ progress => decide (progress.state.status "gram.h" = .succeeded ∧
          "gram.h" ∉ progress.state.dispatched) && progress.states.any fun state =>
            decide (state.dispatched = ["gram.c"] ∧ state.status "tokens" = .pending)
      | .error _ _ => false) = true := by
    decide +kernel
  cases result : runPlan tokenSetting tokenPlan grammarWorld with
  | ok value progress =>
    rw [result] at ran
    simp only [Bool.and_eq_true, decide_eq_true_iff, List.any_eq_true] at ran
    obtain ⟨⟨made, jobless⟩, state, member, early⟩ := ran
    exact ⟨progress, rfl, made, jobless, state, member, early⟩
  | error failure progress =>
    rw [result] at ran
    cases ran

/-- **The run whose result the second file carries was submitted before the tokens were there**,
though that file needs them. -/
theorem not_runsAfterAll :
    (Graph.build tokenRules (· = "gram.y") ["gram.c", "gram.h"]).1 = .ok tokenPlan.graph ∧
    Plan.evaluate World.host {} {} tokenPlan.graph grammarWorld = .ok tokenPlan grammarWorld ∧
    ∃ progress deeds, runPlan tokenSetting tokenPlan grammarWorld = .ok () progress ∧
      Log tokenSetting (State.start tokenPlan {}) grammarWorld deeds
        ⟨progress.outside, progress.state, .idle⟩ ∧
      ¬ RunsAfterAll tokenPlan progress deeds := by
  refine ⟨build_tokenRules, evaluate_tokenPlan, ?_⟩
  have arranged := build_arranged build_tokenRules
  obtain ⟨progress, ran, made, jobless, state, early, dispatched, pending⟩ := run_tokenPlan
  have ends := runPlan_course rfl arranged
    (lawful_ofPlan World.host {} {} { values := [] } tokenPlan (fun _ => 1) .byFinish) grammarWorld
  obtain ⟨course, -⟩ := (ran ▸ ends).of_ok
  obtain ⟨deeds, log⟩ := course.log
  refine ⟨progress, deeds, ran, log, fun always => ?_⟩
  have stale : tokenHeader ∈ tokenPlan.stale := by decide
  obtain ⟨maker, carried⟩ := log.carriedBy rfl arranged rfl course.passage
    (List.mem_filter.mp stale).1 (show startStatus tokenPlan tokenHeader = .pending by decide) made
  have makerIs : maker.name = "gram.c" := by
    have member := carried.submitted.1
    have submitted := carried.submitted.2
    cases carried.carries with
    | own done => exact absurd submitted jobless
    | shared taken done grouped makerGrouped =>
      simp only [tokenPlan, List.mem_cons, List.not_mem_nil, or_false] at member
      rcases member with rfl | rfl | rfl | rfl
      · cases makerGrouped
      · rfl
      · cases makerGrouped
      · exact absurd submitted jobless
  have succeeded := always tokenHeader stale made maker carried.carries state early
    (by simp [dispatched, makerIs]) "tokens" (by decide)
  rw [pending] at succeeded
  cases succeeded

theorem runPlan_carried_tokenPlan :
    (Graph.build tokenRules (· = "gram.y") ["gram.c", "gram.h"]).1 = .ok tokenPlan.graph ∧
    Plan.evaluate World.host {} {} tokenPlan.graph grammarWorld = .ok tokenPlan grammarWorld ∧
    ∃ progress, runPlan tokenSetting tokenPlan grammarWorld = .ok () progress ∧
      Carried tokenSetting tokenPlan grammarWorld progress ∧
      progress.state.status "gram.h" = .succeeded ∧ "gram.h" ∉ progress.state.dispatched := by
  have ends := runPlan_carried build_tokenRules evaluate_tokenPlan World.host {} {} { values := [] }
    (fun _ => 1) .byFinish grammarWorld
  obtain ⟨progress, ran, made, jobless, -⟩ := run_tokenPlan
  exact ⟨build_tokenRules, evaluate_tokenPlan, progress, ran, (ran ▸ ends).of_ok, made, jobless⟩

end BuildSystem.Schedule
