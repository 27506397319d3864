/-
**A build can be resumed.**

A build may end before everything is made, because work fails or is given up.  Looked at afresh,
what has been made is up to date then, and exactly the rest must be built.

* `Advanced`, `Advanced.event` — in every scene exactly the targets that have succeeded have been
  made; every event keeps it.
* `run_renews` — so a run makes exactly the targets that succeed.
* `Tidy.evaluate_exact` — a plan for plain files says what is out of date, and changes no file.
* `run_resumes` — looked at afresh after a run, exactly what had to be built and did not succeed
  must be built.
-/

import BuildSystem.Proofs.Schedule.Making
import BuildSystem.Proofs.Schedule.Report

namespace BuildSystem.Schedule

variable {σ : Type}

/-! ### Along a run -/

/-- Whether a result is to be given to others. -/
def Stage.Gives : Stage → Prop
  | .idle | .working _ => False
  | .finishing _ _ | .sharing _ _ => True

/-- **Exactly the targets that have succeeded have been made**; results are given to others only
where targets are touched. -/
structure Advanced (host : Host σ) (executor : Executor) (plan : Plan) (now : Int)
    (usual : σ → Prop) (old : String → Option Int) (scene : Scene σ) : Prop where
  usual : usual scene.outside
  renewed : Renewed plan.graph (fun name => (plan.assessment name).mustBuild = true)
    (fun name => scene.state.status name = .succeeded) now old
    fun name => host.modified name scene.outside
  gives : scene.stage.Gives → executor.touchOnly = true

section Runs

variable {host : Host σ} {console : Console} {options : Options} {executor : Executor} {plan : Plan}
  {cost : String → Int} {order : Order σ} {now : Int} {usual : σ → Prop}
  {old : String → Option Int} {node : Node}

/-- The status of a target that has not succeeded changes with its file. -/
theorem Renewed.put {stale : String → Prop} {state : State} {before after : σ} {status : Status}
    (renewed : Renewed plan.graph stale (fun name => state.status name = .succeeded) now old
      fun name => host.modified name before)
    (member : node ∈ plan.graph.nodes) (isStale : stale node.name)
    (unmade : state.status node.name ≠ .succeeded)
    (leaves : Leaves host plan.graph now node.name status before after) :
    Renewed plan.graph stale (fun name => (state.put node.name status).status name = .succeeded) now
      old fun name => host.modified name after := by
  obtain ⟨time, sets, made, left⟩ := leaves
  refine ⟨fun other known wasStale done => ?_, fun other known wasStale undone => ?_,
    fun other known fresh => ?_⟩
  · rw [State.status_put] at done
    rw [sets other known]
    split
    · next same => exact made ((if_pos same).symm.trans done)
    · next differ => exact renewed.made other known wasStale ((if_neg differ).symm.trans done)
  · rw [State.status_put] at undone
    rw [sets other known]
    split
    · next same =>
      rw [if_pos same] at undone
      rcases left undone with asBefore | lost
      · rw [same, asBefore]
        exact renewed.left node member isStale unmade
      · exact Or.inr lost
    · next differ =>
      rw [if_neg differ] at undone
      exact renewed.left other known wasStale undone
  · have differ : other.name ≠ node.name := fun same => fresh (same ▸ isStale)
    rw [sets other known, if_neg differ]
    exact renewed.kept other known fresh

/-- Where no work is done, the first ready target gets a status that is no success. -/
theorem Renewed.wait {scene : Scene σ} {rest : List Node} {status : Status}
    (renewed : Renewed plan.graph (fun name => (plan.assessment name).mustBuild = true)
      (fun name => scene.state.status name = .succeeded) now old
      fun name => host.modified name scene.outside)
    (consistent : Consistent plan.graph options scene.moment)
    (explained : Explained plan scene.state) (first : scene.state.ready = node :: rest)
    (unmade : status ≠ .succeeded) :
    Renewed plan.graph (fun name => (plan.assessment name).mustBuild = true)
      (fun name => (scene.state.put node.name status).status name = .succeeded) now old
      fun name => host.modified name scene.outside := by
  obtain ⟨member, pending⟩ := consistent.first_pending first
  have before : scene.state.status node.name ≠ .succeeded := fun made => by
    cases pending.symm.trans made
  exact Renewed.put renewed member (explained.of_open member before).2 before
    (.same unmade (.none host plan.graph node.name scene.outside))

/-- **Every event keeps it.** -/
theorem Advanced.event {one two : Scene σ}
    (advanced : Advanced host executor plan now usual old one)
    (tidy : Tidy host executor plan now usual) (real : executor.dryRun = false)
    (plain : ∀ node ∈ plan.graph.nodes, node.Plain)
    (consistent : Consistent plan.graph options one.moment) (explained : Explained plan one.state)
    (event : Event (.ofPlan host console options executor plan cost order) one two) :
    Advanced host executor plan now usual old two := by
  obtain ⟨start, renewed, gives⟩ := advanced
  have due : ∀ node ∈ one.stage.due.nodes, node ∈ plan.graph.nodes ∧
      one.state.status node.name ≠ .succeeded := by
    intro node member
    obtain ⟨known, building⟩ := consistent.building_of_due node member
    exact ⟨known, fun made => by cases building.symm.trans made⟩
  cases event with
  | skip enabled made =>
    obtain ⟨waiting, ready, rfl⟩ := consistent.eq_of_skip enabled made
    cases enabled with
    | skip first =>
      exact ⟨start, Renewed.wait renewed consistent explained first (by decide), False.elim⟩
  | share enabled made =>
    obtain rfl := consistent.eq_of_share enabled made
    cases enabled with
    | share first going free grouped found =>
      exact ⟨start, Renewed.wait renewed consistent explained first (by decide), fun _ =>
        tidy.makes.touchOnly_of_group (consistent.first_pending first).1 grouped⟩
  | ride enabled made =>
    obtain rfl := consistent.eq_of_ride enabled made
    cases enabled with
    | ride first =>
      exact ⟨start, Renewed.wait renewed consistent explained first (by decide), False.elim⟩
  | dispatch enabled made =>
    obtain rfl := consistent.eq_of_dispatch enabled made
    cases enabled with
    | dispatch first =>
      exact ⟨start, Renewed.wait renewed consistent explained first (by decide), False.elim⟩
  | land flying => exact ⟨start, renewed, False.elim⟩
  | @work world later job result before after worked ended made =>
    obtain ⟨member, unmade⟩ := due job.node List.mem_cons_self
    obtain ⟨ruled, stale⟩ := explained.of_open member unmade
    obtain ⟨kept, leaves⟩ := (worked ▸ tidy.ends_contain real plain member ruled start).of_ok
    obtain ⟨waiting, ready, rfl⟩ := consistent.eq_of_settle made
    refine ⟨kept, Renewed.put renewed member stale unmade leaves, fun given => ?_⟩
    unfold Stage.worked at given
    cases grouped : Recipe.group? job.node with
    | none =>
      rw [grouped] at given
      exact given.elim
    | some group => exact tidy.makes.touchOnly_of_group member grouped
  | finish ended => exact ⟨start, renewed, fun _ => gives trivial⟩
  | @adopt world later node rest result own before after shared ended made =>
    obtain ⟨member, unmade⟩ := due node List.mem_cons_self
    have shares := tidy.ends_share real (gives trivial) plain member result start
    have shared : executor.share host result node world = .ok own later := shared
    rw [shared] at shares
    obtain ⟨kept, leaves⟩ := shares.of_ok
    obtain ⟨waiting, ready, rfl⟩ := consistent.eq_of_settle made
    exact ⟨kept, Renewed.put renewed member (explained.of_open member unmade).2 unmade leaves,
      fun _ => gives trivial⟩

/-- The work in a scene raises no failure. -/
theorem Advanced.not_fault {scene : Scene σ}
    (advanced : Advanced host executor plan now usual old scene)
    (tidy : Tidy host executor plan now usual) (real : executor.dryRun = false)
    (plain : ∀ node ∈ plan.graph.nodes, node.Plain)
    (due : ∀ node ∈ scene.stage.due.nodes, node ∈ plan.graph.nodes ∧ node.isSource = false)
    (failure : Failure) :
    ¬ Fault (.ofPlan host console options executor plan cost order) failure scene := by
  obtain ⟨start, renewed, gives⟩ := advanced
  intro fault
  cases fault with
  | @work world later state job failed =>
    obtain ⟨member, ruled⟩ := due job.node List.mem_cons_self
    exact (failed ▸ tidy.ends_contain real plain member ruled start).of_error
  | @share world later state node rest result failed =>
    have member := (due node List.mem_cons_self).1
    have shares := tidy.ends_share real (gives trivial) plain member result start
    have failed : executor.share host result node world = .error failure later := failed
    rw [failed] at shares
    exact shares.of_error

/-- **A run has a result, and exactly the targets that succeed are made.** -/
theorem run_renews (console : Console) (options : Options) (cost : String → Int) (order : Order σ)
    (arranged : Arranged plan.graph.nodes)
    (ruled : ∀ node ∈ plan.graph.nodes, (plan.assessment node.name).mustBuild = true →
      node.isSource = false)
    (tidy : Tidy host executor plan now usual) (real : executor.dryRun = false)
    (plain : ∀ node ∈ plan.graph.nodes, node.Plain) {origin : σ} (start : usual origin) :
    ∃ state after,
      run (.ofPlan host console options executor plan cost order) plan origin = .ok state after ∧
        Explained plan state ∧ usual after ∧
        Renewed plan.graph (fun name => (plan.assessment name).mustBuild = true)
          (fun name => state.status name = .succeeded) now (fun name => host.modified name origin)
          fun name => host.modified name after := by
  have begins : Advanced host executor plan now usual (fun name => host.modified name origin)
      ⟨origin, State.start plan options, .idle⟩ := by
    refine ⟨start, ⟨fun node member stale made => ?_, fun _ _ _ _ => Or.inl rfl, fun _ _ _ => rfl⟩,
      False.elim⟩
    have pending := (startStatus_eq_pending_iff plan node).mpr ⟨ruled node member stale, stale⟩
    rw [status_start options arranged member, pending] at made
    cases made
  have prints : ∀ world state stage piece,
      Advanced host executor plan now usual (fun name => host.modified name origin)
        ⟨world, state, stage⟩ →
      Advanced host executor plan now usual (fun name => host.modified name origin)
        ⟨host.print piece world, state, stage⟩ := by
    intro world state stage piece advanced
    obtain ⟨kept, same⟩ := tidy.printing world advanced.usual piece
    refine ⟨kept, ?_, advanced.gives⟩
    dsimp only
    rw [funext same]
    exact advanced.renewed
  obtain ⟨past, state, after, ran, course, advanced, stops⟩ := run_keeps rfl arranged
    (lawful_ofPlan host console options executor plan cost order) begins prints
    (fun past one two course advanced event => advanced.event tidy real plain
      (course.passage.consistent arranged) (course.passage.explained arranged) event)
    (fun past scene failure course advanced => advanced.not_fault tidy real plain
      (fun node due => (course.passage.of_due arranged node due).imp_right And.left) failure)
  exact ⟨state, after, ran, course.passage.explained arranged, advanced.usual, advanced.renewed⟩

end Runs

/-! ### Looking afresh -/

section Afresh

variable {host : Host σ} {console : Console} {options : Options} {executor : Executor} {plan : Plan}
  {cost : String → Int} {order : Order σ} {now : Int} {usual : σ → Prop}
  {rules : RuleSet} {available : String → Bool} {targets : List String}

/-- The times of files in a world; nothing is compared. -/
def timesIn (host : Host σ) (world : σ) : Observation where
  modified := fun name => host.modified name world
  differs := fun _ _ => false

/-- **A plan for targets that are plain files is exact**, and making it changes no file. -/
theorem Tidy.evaluate_exact (tidy : Tidy host executor plan now usual) (console : Console)
    (plain : ∀ node ∈ plan.graph.nodes, node.Plain)
    (built : (Graph.build rules available targets).1 = .ok plan.graph) {asks : PlanOptions}
    (lazy : asks.forceAll = false) (strict : asks.ignoreMissing = false) {world : σ}
    (start : usual world) :
    ∃ again last, Plan.evaluate host console asks plan.graph world = .ok again last ∧
      again.graph = plan.graph ∧
      Exact (timesIn host world) false plan.graph plan.graph.nodes again.assessments ∧
      usual last ∧ ∀ name, host.modified name last = host.modified name world := by
  have steady : Steady host asks.shell plan.graph (timesIn host world) fun other =>
      usual other ∧ ∀ name, host.modified name other = host.modified name world := by
    refine ⟨fun _ kept => kept.2, fun other kept piece => ?_, fun node member comparator compares =>
      ?_⟩
    · obtain ⟨still, same⟩ := tidy.printing other kept.1 piece
      exact ⟨still, fun name => (same name).trans (kept.2 name)⟩
    · rw [(plain node member).uncompared] at compares
      cases compares
  obtain ⟨last, kept, evaluated⟩ :=
    evaluate_eq steady (build_arranged built) console ⟨start, fun _ => rfl⟩
  have exact : Exact (timesIn host world) asks.forceAll plan.graph plan.graph.nodes
      ((timesIn host world).assessments asks plan.graph) :=
    exact_assessments _ (build_arranged built)
      (fun node member source => (build_source built node member source).2) strict
  rw [lazy] at exact
  exact ⟨_, last, evaluated, rfl, exact, kept⟩

/-- **A build can be resumed**: looked at afresh after a run, exactly what had to be built and did
not succeed must be built, and nothing if all that was asked for succeeded. -/
theorem run_resumes {asks : PlanOptions} {before middle : σ}
    (built : (Graph.build rules available targets).1 = .ok plan.graph)
    (plain : ∀ node ∈ plan.graph.nodes, node.Plain)
    (lazy : asks.forceAll = false) (strict : asks.ignoreMissing = false)
    (real : executor.dryRun = false) (tidy : Tidy host executor plan now usual)
    (start : usual before)
    (earlier : ∀ node ∈ plan.graph.nodes, ∀ time, host.modified node.name before = some time →
      time < now)
    (evaluated : Plan.evaluate host console asks plan.graph before = .ok plan middle) :
    ∃ state after again last,
      run (.ofPlan host console options executor plan cost order) plan middle = .ok state after ∧
      Plan.evaluate host console asks plan.graph after = .ok again last ∧
      again.stale = plan.stale.filter (fun node => state.status node.name ≠ .succeeded) ∧
      ((state.report plan.graph).exitCode = 0 → again.stale = []) := by
  have arranged := build_arranged built
  have upward := upward_of_evaluate built evaluated
  obtain ⟨first, after, firstEvaluated, -, exact, startMiddle, same⟩ :=
    tidy.evaluate_exact console plain built lazy strict start
  rw [evaluated] at firstEvaluated
  cases firstEvaluated
  have ruled : ∀ node ∈ plan.graph.nodes, (plan.assessment node.name).mustBuild = true →
      node.isSource = false := fun node member stale => ((exact.stale node member).mp stale).1
  obtain ⟨state, after, ran, explained, startAfter, renewed⟩ :=
    run_renews console options cost order arranged ruled tidy real plain startMiddle
  obtain ⟨again, last, againEvaluated, sameGraph, exactAgain, -⟩ :=
    tidy.evaluate_exact console plain built lazy strict startAfter
  rw [funext same] at renewed
  have afresh := exact.afresh exactAgain arranged plain earlier renewed ?_
  · have rest : again.stale =
        plan.stale.filter (fun node => state.status node.name ≠ .succeeded) := by
      unfold Plan.stale
      rw [sameGraph, List.filter_filter]
      refine List.filter_congr fun node member => ?_
      rw [Bool.eq_iff_iff]
      simpa [and_comm, Plan.assessment] using afresh node member
    refine ⟨state, after, again, last, ran, againEvaluated, rest, fun succeeded => ?_⟩
    have truthful := explained.truthful built upward
    have all := truthful.roots.mp (truthful.exitCode.mp succeeded)
    rw [rest, List.filter_eq_nil_iff]
    intro node stale
    have member := List.mem_of_mem_filter stale
    have made := (explained.get?_report arranged (by decide) node.name).mp (all node member)
    simp [made]
  · intro node member stale made prereq needs
    have pending := (startStatus_eq_pending_iff plan node).mpr ⟨ruled node member stale, stale⟩
    exact explained.begun node member pending (by simp [made]) (by simp [made]) prereq.name needs.2

end Afresh

/-! ### A small program that is not built in one go -/

/-- A program that is linked from one object file; it is removed if that fails. -/
def chainRules : RuleSet where
  rules := [
    .explicit {
      prereqs := ["main.o"]
      recipe := some "link"
      attributes := { deleteOnFailure := true }
      comparator := none
      location := ⟨"mkfile", 1⟩
      targets := ["main"] },
    .explicit {
      prereqs := ["main.c"]
      recipe := some "compile"
      attributes := {}
      comparator := none
      location := ⟨"mkfile", 3⟩
      targets := ["main.o"] }]
  values := []

/-- A world in which the program cannot be linked. -/
def chainWorld : World where
  files := [("main.c", { time := 3 }), ("main", { time := 2 })]
  script := {
    byTarget := [("main", { exitCode := 1 })]
    otherwise := { product := some .target } }

/-- What is known about the program in that world. -/
def chainPlan : Plan where
  graph := {
    nodes := [
      { name := "main.c", origin := .source },
      { name := "main.o"
        prereqs := ["main.c"]
        recipe := some "compile"
        allTargets := ["main.o"]
        location := some ⟨"mkfile", 3⟩
        origin := .explicit },
      { name := "main"
        prereqs := ["main.o"]
        recipe := some "link"
        attributes := { deleteOnFailure := true }
        allTargets := ["main"]
        location := some ⟨"mkfile", 1⟩
        origin := .explicit }]
    roots := ["main"] }
  assessments := [
    ("main.c", { time := some 3 }),
    ("main.o", { mustBuild := true, reasons := [.missing], newer := ["main.c"] }),
    ("main", {
      time := some 2
      mustBuild := true
      reasons := [.rebuilt "main.o"]
      newer := ["main.o"] })]

theorem separate_chain : Separate chainPlan.graph := by
  intro one member
  simp only [chainPlan, List.mem_cons, List.not_mem_nil, or_false] at member
  rcases member with rfl | rfl | rfl
  · decide +kernel
  · decide +kernel
  · decide +kernel

/-- The worlds that the build of the program leads to. -/
structure Chained (world : World) : Prop where
  free : world.Open 1000000
  script : world.script = chainWorld.script
  programs : world.programs = ["sh"]
  environment : world.environment = []

theorem Chained.commanded {world : World} (chained : Chained world)
    (commands : List World.Command) : Chained { world with commands } :=
  ⟨⟨chained.free.unlocked, chained.free.distinct, chained.free.clock⟩, chained.script,
    chained.programs, chained.environment⟩

theorem Chained.setTime {world : World} (chained : Chained world) (name : String) (time : Int) :
    Chained (world.setTime name time) := by
  have free := chained.free.setTime name time
  obtain ⟨files, changed⟩ := world.setTime_frame name time
  rw [changed] at free ⊢
  exact ⟨free, chained.script, chained.programs, chained.environment⟩

/-- A command makes the target for which it runs, except for the program itself. -/
theorem Chained.ends_attempt {world : World} (chained : Chained world) {node : Node}
    (member : node ∈ chainPlan.graph.nodes) {words : List String} (shell : words.headD "" = "sh")
    {environment : Environment} (target : environment.get? "target" = some node.name) :
    Ends
      (fun completion after => Chained after ∧ Sets World.host chainPlan.graph node.name
        (if completion.exitCode = 0 then some 1000000
          else World.host.modified node.name world) world after)
      (fun _ _ => False) (World.host.attempt words environment world) := by
  have commanded := chained.commanded (world.commands ++ [⟨words, environment⟩])
  have ran : World.host.run words environment world = _ :=
    World.run_eq environment (by rw [chained.programs, shell]; rfl)
  have effect : world.script.effect ⟨words, environment⟩ =
      if node.name = "main" then { exitCode := 1 } else { product := some .target } := by
    rw [chained.script]
    exact World.effect_eq rfl rfl target
  rw [effect] at ran
  by_cases program : node.name = "main"
  · rw [if_pos program] at ran
    rw [Host.attempt_eq ran]
    exact .ok ⟨commanded, .none World.host chainPlan.graph node.name world⟩
  · rw [if_neg program, World.perform_target target commanded.free.clock] at ran
    rw [Host.attempt_eq ran]
    exact .ok ⟨commanded.setTime node.name 1000000,
      separate_chain.sets_setTime member _ 1000000⟩

theorem tidy_chain : Tidy World.host { values := [] } chainPlan 1000000 Chained where
  printing := fun world chained piece =>
    ⟨⟨⟨chained.free.unlocked, chained.free.distinct, chained.free.clock⟩, chained.script,
      chained.programs, chained.environment⟩, fun _ => rfl⟩
  remove := by
    intro node member world chained
    rw [show World.host.remove node.name world = _ from World.remove_eq chained.free node.name]
    exact .ok ⟨⟨chained.free.delete node.name, chained.script, chained.programs,
      chained.environment⟩, separate_chain.sets_delete member chained.free⟩
  makes := by
    refine .cooking rfl (by decide) (by decide)
      fun node member recipe given slot world chained => ?_
    have outer : World.host.environment world = [] := chained.environment
    rw [outer]
    have target : (Executor.environment { values := [] } [] node
        (chainPlan.assessment node.name).newer slot).get? "target" = some node.name := by
      unfold Executor.environment
      rw [Table.get?_set_of_ne (by decide)]
      simp only [chainPlan, List.mem_cons, List.not_mem_nil, or_false] at member
      rcases member with rfl | rfl | rfl
      · decide +kernel
      · decide +kernel
      · decide +kernel
    exact (chained.ends_attempt member rfl target).never

theorem plain_chain : ∀ node ∈ chainPlan.graph.nodes, node.Plain := by
  intro node member
  simp only [chainPlan, List.mem_cons, List.not_mem_nil, or_false] at member
  rcases member with rfl | rfl | rfl
  · exact ⟨rfl, rfl, rfl⟩
  · exact ⟨rfl, rfl, rfl⟩
  · exact ⟨rfl, rfl, rfl⟩

theorem earlier_chain : ∀ node ∈ chainPlan.graph.nodes, ∀ time,
    World.host.modified node.name chainWorld = some time → time < 1000000 := by
  have all : ∀ node ∈ chainPlan.graph.nodes,
      (World.host.modified node.name chainWorld).all (· < 1000000) = true := by
    decide +kernel
  intro node member time there
  have old := all node member
  rw [there] at old
  exact of_decide_eq_true old

/-- The program is resumed, whether its targets were made by their recipes or were touched. -/
theorem run_resumes_chain :
    (Graph.build chainRules (· = "main.c") ["main"]).1 = .ok chainPlan.graph ∧
    Plan.evaluate World.host {} {} chainPlan.graph chainWorld = .ok chainPlan chainWorld ∧
    (∃ state after again last,
      run (.ofPlan World.host {} { workers := 2, keepGoing := true } { values := [] } chainPlan
        (fun _ => 1) .byFinish) chainPlan chainWorld = .ok state after ∧
      Plan.evaluate World.host {} {} chainPlan.graph after = .ok again last ∧
      again.stale = chainPlan.stale.filter (fun node => state.status node.name ≠ .succeeded) ∧
      ((state.report chainPlan.graph).exitCode = 0 → again.stale = [])) ∧
    ∃ state after again last,
      run (.ofPlan World.host {} {} { values := [], touchOnly := true } chainPlan (fun _ => 1)
        .byFinish) chainPlan chainWorld = .ok state after ∧
      Plan.evaluate World.host {} {} chainPlan.graph after = .ok again last ∧
      again.stale = chainPlan.stale.filter (fun node => state.status node.name ≠ .succeeded) ∧
      ((state.report chainPlan.graph).exitCode = 0 → again.stale = []) := by
  have built : (Graph.build chainRules (· = "main.c") ["main"]).1 = .ok chainPlan.graph := rfl
  have evaluated : Plan.evaluate World.host {} {} chainPlan.graph chainWorld =
      .ok chainPlan chainWorld := rfl
  have start : Chained chainWorld := ⟨⟨by decide, by decide, rfl⟩, rfl, rfl, rfl⟩
  have touching := tidy_touching separate_chain [] 1000000
  exact ⟨built, evaluated,
    run_resumes built plain_chain rfl rfl rfl tidy_chain start earlier_chain evaluated,
    run_resumes built plain_chain rfl rfl rfl touching start.free earlier_chain evaluated⟩

/-- After the failure of the linker only the program is left to be made. -/
example : (match run (.ofPlan World.host {} {} { values := [] } chainPlan (fun _ => 1) .byFinish)
      chainPlan chainWorld with
    | .ok _ after =>
      match Plan.evaluate World.host {} {} chainPlan.graph after with
      | .ok again _ => again.stale.map (·.name)
      | .error _ _ => []
    | .error _ _ => []) = ["main"] := by
  decide +kernel

end BuildSystem.Schedule
