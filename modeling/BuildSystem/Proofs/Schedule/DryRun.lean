/-
**A dry run predicts the run.**

A dry run does nothing but show the recipes that a run would hand to the shell.

* `Plan.recipes`, `echoes` — the recipes of targets, and what is shown of them.
* `tells_dry`, `run_dry` — what a dry run prints, and that it always has a result.
* `run_rehearsed` — a run in which nothing fails ends as the rehearsal does.
* `Ledger` — a record of the commands that have been run.
* `Log.called` — the commands of a run are the recipes of the jobs that were done.
* `Log.inSequence` — a single worker does the jobs in the order of their submission.
* `Predicts`, `dryRun_predicts` — a dry run has the report of the run, changes nothing, and shows
  the commands that a single worker runs.
-/

import BuildSystem.Proofs.Schedule.Rehearsal
import BuildSystem.Proofs.Schedule.Stopping

namespace BuildSystem

/-! ### Recipes -/

section Recipes

variable {plan : Plan}

/-- The recipe of a target of a plan, with its variables filled in. -/
def Plan.recipe? (plan : Plan) (name : String) : Option String :=
  (plan.graph.node? name).bind fun node => Recipe.command node (plan.assessment name).newer

/-- The recipes of those targets that have one. -/
def Plan.recipes (plan : Plan) (names : List String) : List String :=
  names.filterMap plan.recipe?

theorem Plan.recipe?_eq (arranged : Arranged plan.graph.nodes) {node : Node}
    (member : node ∈ plan.graph.nodes) :
    plan.recipe? node.name = Recipe.command node (plan.assessment node.name).newer := by
  unfold recipe?
  rw [arranged.node?_eq member]
  rfl

theorem Plan.recipes_append (plan : Plan) (names more : List String) :
    plan.recipes (names ++ more) = plan.recipes names ++ plan.recipes more :=
  List.filterMap_append

theorem Plan.recipes_single (arranged : Arranged plan.graph.nodes) {node : Node}
    (member : node ∈ plan.graph.nodes) : plan.recipes [node.name] =
      (Recipe.command node (plan.assessment node.name).newer).toList := by
  rw [← plan.recipe?_eq arranged member]
  show [node.name].filterMap plan.recipe? = _
  rw [List.filterMap_cons]
  cases plan.recipe? node.name with
  | none => rfl
  | some recipe => rfl

/-- What is shown of recipes: each on a line of its own, unless it is empty. -/
def echoes (recipes : List String) : List Printed :=
  (recipes.filter (· ≠ "")).map Console.outputLine

/-- What is printed on the output stream. -/
def shown (pieces : List Printed) : List Printed :=
  pieces.filter (·.stream = .output)

theorem echoes_append (recipes more : List String) :
    echoes (recipes ++ more) = echoes recipes ++ echoes more := by
  unfold echoes
  rw [List.filter_append, List.map_append]

theorem shown_append (pieces more : List Printed) :
    shown (pieces ++ more) = shown pieces ++ shown more :=
  List.filter_append _ _

theorem shown_eq_nil {pieces : List Printed} (silent : ∀ piece ∈ pieces, piece.stream = .error) :
    shown pieces = [] := by
  refine List.filter_eq_nil_iff.mpr fun piece member => ?_
  simp [silent piece member]

/-- Pieces of text that are printed one after the other. -/
theorem Host.tell_append {σ : Type} (host : Host σ) (pieces more : List Printed) (world : σ) :
    host.tell (pieces ++ more) world = host.tell more (host.tell pieces world) :=
  List.foldl_append

end Recipes

namespace Schedule

/-! ### Dry runs -/

variable {σ : Type} {plan : Plan} {host : Host σ} {console : Console} {options : Options}
  {executor : Executor} {cost : String → Int} {order : Order σ}

/-- How recipes are shown instead of being run. -/
def dry (executor : Executor) (touch : Bool) : Executor :=
  { executor with
    dryRun := true
    touchOnly := touch }

/-- The recipes of targets have been shown, and nothing else has been done. -/
def Shows (host : Host σ) (plan : Plan) (before : σ) (names : List String) (world : σ) : Prop :=
  ∃ pieces, world = host.tell pieces before ∧ shown pieces = echoes (plan.recipes names)

/-- A success that has nothing to say. -/
def QuietSuccess (result : JobResult) : Prop :=
  result.status = .succeeded ∧ result.output = ""

theorem Shows.say {before world : σ} {names more : List String}
    (shows : Shows host plan before names world) {pieces : List Printed}
    (told : shown pieces = echoes (plan.recipes more)) :
    Shows host plan before (names ++ more) (host.tell pieces world) := by
  obtain ⟨earlier, rfl, same⟩ := shows
  refine ⟨earlier ++ pieces, (host.tell_append earlier pieces before).symm, ?_⟩
  rw [shown_append, same, told, plan.recipes_append, echoes_append]

/-- The work of a dry run is done at once. -/
theorem contain_dry (touch : Bool) (job : Job) (world : σ) :
    contain (Setting.ofPlan host console options (dry executor touch) plan cost order).workers job
      world = .ok { name := job.node.name, status := .succeeded } world :=
  rfl

/-- In a dry run even quiet recipes are shown. -/
theorem describe_dry (touch : Bool) (node : Node) (newer : List String) :
    (dry executor touch).describe node newer = Recipe.command node newer := by
  simp [Executor.describe, dry]

theorem share_dry (touch : Bool) {result : JobResult} (succeeded : result.status = .succeeded)
    (node : Node) (world : σ) :
    (dry executor touch).share host result node world =
      .ok { result with name := node.name, output := "" } world := by
  unfold Executor.share
  rw [if_neg (not_not.mpr succeeded)]
  rfl

/-- What is printed when a quiet success is settled. -/
theorem settled_quietSuccess {result : JobResult} (quiet : QuietSuccess result) (node : Node)
    (stopped : Bool) :
    ∀ piece ∈ settled console node result stopped, piece.stream = .error := by
  obtain ⟨succeeded, silent⟩ := quiet
  unfold settled
  rw [if_neg (by simp [succeeded]), silent]
  intro piece member
  rcases List.mem_append.mp member with early | late
  · rcases List.mem_append.mp early with traced | printed
    · exact silent_debug console _ piece traced
    · cases printed
  · split at late
    · exact silent_debug console _ piece late
    · cases late

/-- **A dry run shows the recipes of the targets whose jobs are submitted.** -/
theorem tells_dry (touch : Bool) (arranged : Arranged plan.graph.nodes) (before : σ) :
    Tells (.ofPlan host console options (dry executor touch) plan cost order)
      (Shows host plan before) QuietSuccess where
  trace := by
    intro names world shows pieces silent
    rw [← List.append_nil names]
    exact shows.say (shown_eq_nil silent)
  echo := by
    intro node member names world shows
    refine shows.say ?_
    rw [plan.recipes_single arranged member]
    show shown (if (((dry executor touch).describe node _).getD "").isEmpty then []
      else Console.recipe (((dry executor touch).describe node _).getD "")) = _
    rw [describe_dry]
    cases Recipe.command node (plan.assessment node.name).newer with
    | none => rfl
    | some recipe =>
      unfold echoes
      by_cases empty : recipe = ""
      · rw [empty]
        rfl
      · simp [empty, Console.recipe, shown, Console.outputLine]
  work := by
    intro job names world result after shows worked
    rw [contain_dry] at worked
    obtain ⟨rfl, rfl⟩ := EStateM.Result.ok.inj worked
    exact ⟨⟨rfl, rfl⟩, shows⟩
  share := by
    intro result node names world own after shows succeeded shared
    have shared : (dry executor touch).share host result node world = .ok own after := shared
    rw [share_dry touch succeeded] at shared
    obtain ⟨rfl, rfl⟩ := EStateM.Result.ok.inj shared
    exact ⟨⟨succeeded, rfl⟩, shows⟩
  settled := by
    intro node result stopped names world shows quiet
    rw [← List.append_nil names]
    exact shows.say (shown_eq_nil (settled_quietSuccess quiet node stopped))

/-- The work of a dry run always succeeds, and it does not change the world. -/
theorem foreseen_dry (touch : Bool) {usual : σ → Prop}
    (printing : ∀ world, usual world → ∀ piece, usual (host.print piece world)) :
    Foreseen host (dry executor touch) plan (fun _ => true) usual where
  printing := printing
  execute := fun node member stale slot world start => .ok ⟨rfl, start⟩
  share := by
    intro node member stale result world start succeeded
    rw [share_dry touch succeeded]
    exact .ok start

/-- A dry run has a result, in whatever order jobs are finished, and what printing keeps holds after
it. -/
theorem run_idle (host : Host σ) (console : Console) (options : Options) (cost : String → Int)
    (order : Order σ) (arranged : Arranged plan.graph.nodes) (idle : executor.dryRun = true)
    (usual : σ → Prop)
    (printing : ∀ world, usual world → ∀ piece, usual (host.print piece world)) {before : σ}
    (start : usual before) :
    ∃ state after, run (.ofPlan host console options executor plan cost order) plan before =
      .ok state after ∧ usual after := by
  obtain ⟨values, shell, dryRun, touchOnly⟩ := executor
  obtain rfl : dryRun = true := idle
  have foreseen : Foreseen host (dry ⟨values, shell, true, touchOnly⟩ touchOnly) plan
      (fun _ => true) usual := foreseen_dry touchOnly printing
  obtain ⟨_, state, after, ran, -, foretold, -⟩ := run_foretold console options cost order arranged
    foreseen (fun _ _ _ _ _ _ _ => rfl) before start
  exact ⟨state, after, ran, foretold.usual⟩

/-- If no target has failed, no failure is recorded. -/
theorem Explained.failures_eq_nil {state : State} (explained : Explained plan state)
    (unfailed : ∀ node ∈ plan.graph.nodes, state.status node.name ≠ .failed) :
    state.failures = [] := by
  cases recorded : state.failures with
  | nil => rfl
  | cons entry rest =>
    have listed : entry.1 ∈ state.failures.keys := by
      rw [recorded]
      exact List.mem_cons_self
    have failed := (explained.failures entry.1).mp listed
    obtain ⟨node, member, named⟩ := explained.known entry.1 (by simp [failed])
    exact absurd (named.symm ▸ failed) (unfailed node member)

/-- **A run in which nothing fails ends as the rehearsal does**, and all of it is told. -/
theorem run_rehearsed {choose : Choice} {told : List String → σ → Prop} {quiet : JobResult → Prop}
    {before after : σ} {state : State} (arranged : Arranged plan.graph.nodes)
    (tells : Tells (.ofPlan host console options executor plan cost fun job others _ =>
      choose job others) told quiet) (begins : told [] before)
    (made : run (.ofPlan host console options executor plan cost fun job others _ =>
      choose job others) plan before = .ok state after)
    (unfailed : state.failures = []) :
    Score.rehearse ⟨plan.graph, options, cost, choose⟩ (State.start plan options).roundLimit
      (State.start plan options).bare = .ok state.bare ∧ told state.dispatched after := by
  have lawful := lawful_ofPlan host console options executor plan cost
    fun job others _ => choose job others
  obtain ⟨past, ran⟩ := runPlan_of_run made
  have ends := runPlan_rehearsed choose tells rfl arranged lawful (fun _ _ _ => rfl) begins
  exact (ran ▸ ends).of_ok unfailed

/-- **A dry run has a result**: that of the rehearsal.  It shows the recipes of the targets whose
jobs are submitted, and does nothing else. -/
theorem run_dry (choose : Choice) (arranged : Arranged plan.graph.nodes) (touch : Bool)
    (before : σ) :
    ∃ state after, run (.ofPlan host console options (dry executor touch) plan cost
        fun job others _ => choose job others) plan before = .ok state after ∧
      Score.rehearse ⟨plan.graph, options, cost, choose⟩ (State.start plan options).roundLimit
        (State.start plan options).bare = .ok state.bare ∧
      Shows host plan before state.dispatched after := by
  have foreseen : Foreseen host (dry executor touch) plan (fun _ => true) fun _ => True :=
    foreseen_dry touch fun _ _ _ => trivial
  obtain ⟨past, state, after, ran, course, foretold, stops⟩ :=
    run_foretold console options cost (fun job others _ => choose job others) arranged foreseen
      (fun _ _ _ _ _ _ _ => rfl) before trivial
  have explained : Explained plan state := course.passage.explained arranged
  have unfailed : state.failures = [] :=
    explained.failures_eq_nil (explained.unfailed foretold.told)
  exact ⟨state, after, ran, run_rehearsed arranged (tells_dry touch arranged before)
    ⟨[], rfl, rfl⟩ ran unfailed⟩

/-! ### Commands that are run -/

/-- **A record of the commands that have been run.**  Printing adds nothing to it and changes no
file. -/
structure Ledger (host : Host σ) (calls : σ → List (List String)) : Prop where
  print : ∀ piece world, calls (host.print piece world) = calls world ∧
    ∀ name, host.modified name (host.print piece world) = host.modified name world ∧
      host.text name (host.print piece world) = host.text name world
  run : ∀ words environment world,
    Ends (fun _ after => calls after = calls world ++ [words]) (fun _ _ => True)
      (host.run words environment world)

section Commands

variable {calls : σ → List (List String)}

theorem Ledger.tell (ledger : Ledger host calls) (pieces : List Printed) (world : σ) :
    calls (host.tell pieces world) = calls world ∧
      ∀ name, host.modified name (host.tell pieces world) = host.modified name world ∧
        host.text name (host.tell pieces world) = host.text name world := by
  induction pieces generalizing world with
  | nil => exact ⟨rfl, fun _ => ⟨rfl, rfl⟩⟩
  | cons piece rest ih =>
    obtain ⟨same, files⟩ := ledger.print piece world
    obtain ⟨later, laterFiles⟩ := ih (host.print piece world)
    exact ⟨later.trans same, fun name =>
      ⟨(laterFiles name).1.trans (files name).1, (laterFiles name).2.trans (files name).2⟩⟩

/-- A command that ends with zero has been run. -/
theorem Ledger.ends_attempt (ledger : Ledger host calls) (words : List String)
    (environment : Environment) (world : σ) :
    Ends (fun completion after => completion.exitCode = 0 → calls after = calls world ++ [words])
      (fun _ _ => True) (host.attempt words environment world) := by
  refine Ends.tryCatch ((ledger.run words environment world).mono (fun _ _ ran _ => ran) ?_)
  intro failure after _
  cases failure with
  | programMissing message => exact .ok fun zero => by simp at zero
  | _ => exact .error trivial

/-- A target that has been made has run its recipe, if it has one. -/
theorem Ledger.ends_execute (ledger : Ledger host calls) (running : executor.dryRun = false)
    (making : executor.touchOnly = false) (node : Node) (newer : List String) (slot : Nat)
    (world : σ) :
    Ends (fun result after => result.status = .succeeded →
        calls after = calls world ++ (Recipe.command node newer).toList.map executor.words)
      (fun _ _ => True) (executor.execute host node newer slot world) := by
  unfold Executor.execute
  rw [if_neg (by simp [running]), if_neg (by simp [making])]
  cases Recipe.command node newer with
  | none => exact .ok fun _ => (List.append_nil _).symm
  | some recipe =>
    refine Ends.get (Ends.bind ((ledger.ends_attempt _ _ world).imp ?_))
    intro completion after ran
    split
    · next zero => exact .ok fun _ => ran zero
    · exact Ends.andThen after fun _ later => .ok fun succeeded => by cases succeeded

theorem Ledger.ends_contain (ledger : Ledger host calls) (running : executor.dryRun = false)
    (making : executor.touchOnly = false) (job : Job) (world : σ) :
    Ends (fun result after => result.status = .succeeded → calls after = calls world ++
        (Recipe.command job.node (plan.assessment job.node.name).newer).toList.map executor.words)
      (fun _ _ => True)
      (contain (Setting.ofPlan host console options executor plan cost order).workers job
        world) := by
  refine Ends.tryCatch ((ledger.ends_execute running making job.node _ job.slot world).mono
    (fun _ _ ran => ran) ?_)
  intro failure after _
  split
  · exact .error trivial
  · exact .ok fun succeeded => by cases succeeded

/-- Nothing is run when a success is shared. -/
theorem share_success (making : executor.touchOnly = false) {result own : JobResult}
    (succeeded : result.status = .succeeded) {node : Node} {before after : σ}
    (shared : executor.share host result node before = .ok own after) : after = before := by
  unfold Executor.share at shared
  rw [if_neg (not_not.mpr succeeded), making] at shared
  split at shared
  · exact (EStateM.Result.ok.inj shared).2.symm
  · exact (EStateM.Result.ok.inj shared).2.symm

end Commands

/-! ### The order of work -/

section Logs

variable {setting : Setting σ} {start : State} {origin : σ} {deeds : List Deed} {scene : Scene σ}
  {calls : σ → List (List String)}

/-- An event that settles no target changes nothing outside. -/
theorem Event.outside_of_quiet {one two : Scene σ} (quiet : one.stage.Quiet)
    (event : Event setting one two) : two.outside = one.outside := by
  cases event with
  | work => exact quiet.elim
  | adopt => exact quiet.elim
  | _ => rfl

/-- All that was done has come to an end. -/
theorem Log.ended (lawful : setting.workers.Lawful) (log : Log setting start origin deeds scene) :
    ∀ deed ∈ deeds, Ended deed.result := by
  induction log with
  | start => exact fun deed listed => nomatch listed
  | print log piece ih => exact ih
  | quiet log quiet event ih => exact ih
  | work log worked ended made ih =>
    intro deed listed
    rcases List.mem_append.mp listed with old | new
    · exact ih deed old
    · exact List.mem_singleton.mp new ▸ ended
  | @adopt _ world later node rest result own before after log shared ended made ih =>
    intro deed listed
    rcases List.mem_append.mp listed with old | new
    · exact ih deed old
    · have shares := lawful.share result node world
      rw [shared] at shares
      have same : own.status = result.status := shares.of_ok
      obtain rfl := List.mem_singleton.mp new
      exact ended.imp (same.symm.trans ·) (same.symm.trans ·)

/-- If no failure is recorded, all that was done has succeeded. -/
theorem Log.succeeded (lawful : setting.workers.Lawful) (same : setting.graph = plan.graph)
    (arranged : Arranged plan.graph.nodes)
    (log : Log setting (State.start plan setting.options) origin deeds scene)
    (unfailed : scene.state.failures = []) :
    ∀ deed ∈ deeds, deed.result.status = .succeeded := by
  intro deed listed
  refine (log.ended lawful deed listed).resolve_right fun failed => ?_
  obtain ⟨own, gives, holds⟩ := log.holds same arranged deed listed
  have recorded := holds.failure ((gives.status_eq lawful).trans failed)
  rw [unfailed] at recorded
  cases recorded

/-- **The commands of a run are the recipes of the jobs that were done**, in order. -/
theorem Log.called (ledger : Ledger host calls) (running : executor.dryRun = false)
    (making : executor.touchOnly = false) (arranged : Arranged plan.graph.nodes)
    (log : Log (.ofPlan host console options executor plan cost order) (State.start plan options)
      origin deeds scene)
    (succeeded : ∀ deed ∈ deeds, deed.result.status = .succeeded) :
    calls scene.outside =
      calls origin ++ (plan.recipes (jobsDone deeds)).map executor.words := by
  induction log with
  | start => exact (List.append_nil _).symm
  | print log piece ih => exact (ledger.print piece _).1.trans (ih succeeded)
  | quiet log quiet event ih =>
    rw [event.outside_of_quiet quiet]
    exact ih succeeded
  | @work deeds world later job result before after log worked ended made ih =>
    have fine : ∀ deed ∈ deeds, deed.result.status = .succeeded := fun deed listed =>
      succeeded deed (List.mem_append_left _ listed)
    have made : result.status = .succeeded :=
      succeeded _ (List.mem_append_right deeds (List.mem_singleton_self (Deed.job job.node result)))
    obtain ⟨past, course⟩ := log.course
    have member : job.node ∈ plan.graph.nodes :=
      ((course.passage.consistent arranged).building_of_due job.node List.mem_cons_self).1
    have ran : calls later = calls world ++ (Recipe.command job.node
        (plan.assessment job.node.name).newer).toList.map executor.words :=
      (worked ▸ ledger.ends_contain running making job world).of_ok made
    rw [ran, ih fine, jobsDone_concat_job, plan.recipes_append, plan.recipes_single arranged member,
      List.map_append, List.append_assoc]
  | @adopt deeds world later node rest result own before after log shared ended made ih =>
    have fine : ∀ deed ∈ deeds, deed.result.status = .succeeded := fun deed listed =>
      succeeded deed (List.mem_append_left _ listed)
    have made : result.status = .succeeded :=
      succeeded _ (List.mem_append_right deeds (List.mem_singleton_self (Deed.share node result)))
    rw [jobsDone_concat_share, share_success making made shared]
    exact ih fine

/-- What a single worker has done, what it is doing and what it is to do are the submitted jobs. -/
theorem Event.inSequence (single : setting.options.slots.length = 1) {one two : Scene σ}
    (consistent : Consistent setting.graph setting.options one.moment) (quiet : one.stage.Quiet)
    (event : Event setting one two) {done : List String}
    (sequence : done ++ (one.stage.jobs ++ one.state.running.map (·.node.name)) =
      one.state.dispatched) :
    done ++ (two.stage.jobs ++ two.state.running.map (·.node.name)) = two.state.dispatched := by
  have alone : one.state.running.length + one.state.freeSlots.length = 1 :=
    consistent.slots.trans single
  cases event with
  | skip enabled made =>
    obtain ⟨waiting, ready, rfl⟩ := consistent.eq_of_skip enabled made
    exact sequence
  | share enabled made =>
    obtain rfl := consistent.eq_of_share enabled made
    exact sequence
  | ride enabled made =>
    obtain rfl := consistent.eq_of_ride enabled made
    exact sequence
  | @dispatch world node slot cost before after enabled made =>
    obtain rfl := consistent.eq_of_dispatch enabled made
    -- The worker is free, so nothing is in flight.
    have landed : before.running = [] := by
      cases enabled with
      | dispatch first going free unfinished apart slotFree =>
        have taken : before.running.length + before.freeSlots.length = 1 := alone
        rw [slotFree, List.length_cons] at taken
        exact List.length_eq_zero_iff.mp (by omega)
    rw [landed] at sequence
    show _ ++ ([] ++ (before.running ++ [(⟨node, slot, before.clock + cost⟩ : Job)]).map _) =
      before.dispatched ++ [node.name]
    rw [landed, ← sequence]
    simp [Stage.jobs]
  | @land world job before flying =>
    have only : before.running = [job] := by
      obtain ⟨other, found⟩ := List.length_eq_one_iff.mp
        (Nat.le_antisymm (Nat.le.intro alone) (List.length_pos_of_mem flying))
      rw [found] at flying ⊢
      rw [List.mem_singleton.mp flying]
    rw [only] at sequence
    show _ ++ ([job.node.name] ++ (before.running.erase job).map _) = before.dispatched
    rw [only, ← sequence]
    simp [Stage.jobs]
  | work => exact quiet.elim
  | @finish world group result before ended =>
    rw [Stage.jobs_shared]
    exact sequence
  | adopt => exact quiet.elim

/-- **A single worker does the jobs in the order of their submission.** -/
theorem Log.inSequence (single : setting.options.slots.length = 1)
    (same : setting.graph = plan.graph) (arranged : Arranged plan.graph.nodes)
    (log : Log setting (State.start plan setting.options) origin deeds scene) :
    jobsDone deeds ++ (scene.stage.jobs ++ scene.state.running.map (·.node.name)) =
      scene.state.dispatched := by
  induction log with
  | start => rfl
  | print log piece ih => exact ih
  | @quiet deeds one two log quiet event ih =>
    obtain ⟨past, passage⟩ := log.passage same
    exact event.inSequence single (same ▸ passage.consistent arranged) quiet ih
  | @work deeds world later job result before after log worked ended made ih =>
    obtain ⟨past, passage⟩ := log.passage same
    obtain ⟨waiting, ready, rfl⟩ := (passage.consistent arranged).eq_of_settle (same ▸ made)
    rw [Stage.jobs_worked, jobsDone_concat_job, List.append_assoc]
    exact ih
  | @adopt deeds world later node rest result own before after log shared ended made ih =>
    obtain ⟨past, passage⟩ := log.passage same
    obtain ⟨waiting, ready, rfl⟩ := (passage.consistent arranged).eq_of_settle (same ▸ made)
    rw [Stage.jobs_shared, jobsDone_concat_share]
    exact ih

end Logs

/-! ### Predictions -/

/-- **What a dry run tells of a run**: its report, with the statuses, the submitted jobs and what
decides about the exit code.  Nothing is run, all files stay as they are, and the recipes that are
shown are the commands of a single worker. -/
structure Predicts (host : Host σ) (calls : σ → List (List String)) (executor : Executor)
    (options : Options) (graph : Graph) (before : σ) (state : State) (after : σ) (dryState : State)
    (dryAfter : σ) : Prop where
  report : dryState.report graph = state.report graph
  idle : calls dryAfter = calls before
  files : ∀ name, host.modified name dryAfter = host.modified name before ∧
    host.text name dryAfter = host.text name before
  prints : ∃ pieces, dryAfter = host.tell pieces before ∧
    (options.workers ≤ 1 → ∃ recipes, calls after = calls before ++ recipes.map executor.words ∧
      shown pieces = echoes recipes)

section Runs

variable {calls : σ → List (List String)} {before after : σ} {state : State}

theorem length_slots_single (single : options.workers ≤ 1) : options.slots.length = 1 := by
  unfold Options.slots
  rw [List.length_range]
  omega

/-- The commands of a run by a single worker are the recipes of the submitted jobs, in order. -/
theorem run_called (ledger : Ledger host calls) (running : executor.dryRun = false)
    (making : executor.touchOnly = false) (arranged : Arranged plan.graph.nodes)
    (single : options.workers ≤ 1)
    (made : run (.ofPlan host console options executor plan cost order) plan before =
      .ok state after) (unfailed : state.failures = []) :
    calls after = calls before ++ (plan.recipes state.dispatched).map executor.words := by
  have lawful := lawful_ofPlan host console options executor plan cost order
  obtain ⟨past, ran⟩ := runPlan_of_run made
  have ends := runPlan_course rfl arranged lawful before
  rw [ran] at ends
  obtain ⟨course, stops⟩ := ends.of_ok
  obtain ⟨deeds, log⟩ := course.log
  have done : jobsDone deeds = state.dispatched := by
    have sequence := log.inSequence (length_slots_single single) rfl arranged
    rw [State.landed_of_stop stops] at sequence
    exact (List.append_nil _).symm.trans sequence
  rw [← done]
  exact log.called ledger running making arranged (log.succeeded lawful rfl arranged unfailed)

/-- **A dry run predicts the run**, if nothing fails in it, and also if targets are to be touched.
The jobs in flight are finished in an order that does not depend on the world, such as that of
their costs. -/
theorem dryRun_predicts {rules : RuleSet} {available : String → Bool} {targets : List String}
    {choose : Choice} (built : (Graph.build rules available targets).1 = .ok plan.graph)
    (ledger : Ledger host calls) (running : executor.dryRun = false)
    (making : executor.touchOnly = false)
    (made : run (.ofPlan host console options executor plan cost
      fun job others _ => choose job others) plan before = .ok state after)
    (unfailed : (state.report plan.graph).failures = []) (touch : Bool) :
    ∃ dryState dryAfter, run (.ofPlan host console options (dry executor touch) plan cost
        fun job others _ => choose job others) plan before = .ok dryState dryAfter ∧
      Predicts host calls executor options plan.graph before state after dryState dryAfter := by
  have arranged := build_arranged built
  obtain ⟨rehearsed, -⟩ := run_rehearsed arranged (tells_nothing _) trivial made unfailed
  obtain ⟨dryState, dryAfter, ran, dryRehearsed, pieces, rfl, told⟩ :=
    run_dry choose arranged touch before
  have same : dryState.bare = state.bare :=
    Except.ok.inj (dryRehearsed.symm.trans rehearsed)
  obtain ⟨idle, files⟩ := ledger.tell pieces before
  refine ⟨dryState, _, ran, ?_, idle, files, pieces, rfl, fun single => ?_⟩
  · show dryState.bare.report plan.graph = state.bare.report plan.graph
    rw [same]
  · have dispatched : dryState.bare.dispatched = state.bare.dispatched := by rw [same]
    refine ⟨plan.recipes state.dispatched, ?_, dispatched ▸ told⟩
    exact run_called ledger running making arranged single made unfailed

end Runs

/-! ### A dry run for a parser -/

/-- The jobs are finished at the times that their costs give. -/
def Choice.byFinish : Choice := fun job others =>
  ⟨firstFinished job others, firstFinished_mem job others⟩

/-- A world in memory records the commands that are run in it. -/
theorem ledger_world : Ledger World.host fun world => world.commands.map (·.words) where
  print := fun _ _ => ⟨rfl, fun _ => ⟨rfl, rfl⟩⟩
  run := by
    intro words environment world
    refine (World.ends_run words environment world).imp fun _ after recorded => ?_
    rw [recorded, List.map_append]
    rfl

/-- Nothing fails when a parser is made from its grammar, and two recipes are run. -/
theorem run_tokenPlan_unfailed : ∃ state after,
    run (.ofPlan World.host {} {} { values := [] } tokenPlan (fun _ => 1) fun job others _ =>
      Choice.byFinish job others) tokenPlan grammarWorld = .ok state after ∧
    (state.report tokenPlan.graph).failures = [] ∧
    after.commands.map (·.words) = [["sh", "-e", "-c", "yacc"], ["sh", "-e", "-c", "lex"]] := by
  have ran : (match run (.ofPlan World.host {} {} { values := [] } tokenPlan (fun _ => 1)
        fun job others _ => Choice.byFinish job others) tokenPlan grammarWorld with
      | .ok state after => decide ((state.report tokenPlan.graph).failures = [] ∧
        after.commands.map (·.words) = [["sh", "-e", "-c", "yacc"], ["sh", "-e", "-c", "lex"]])
      | .error _ _ => false) = true := by
    decide +kernel
  cases result : run (.ofPlan World.host {} {} { values := [] } tokenPlan (fun _ => 1)
      fun job others _ => Choice.byFinish job others) tokenPlan grammarWorld with
  | ok state after =>
    rw [result] at ran
    exact ⟨state, after, rfl, of_decide_eq_true ran⟩
  | error failure after =>
    rw [result] at ran
    cases ran

theorem dryRun_predicts_tokenPlan : ∃ state after dryState dryAfter,
    run (.ofPlan World.host {} {} { values := [] } tokenPlan (fun _ => 1) fun job others _ =>
      Choice.byFinish job others) tokenPlan grammarWorld = .ok state after ∧
    (state.report tokenPlan.graph).failures = [] ∧
    after.commands.map (·.words) = [["sh", "-e", "-c", "yacc"], ["sh", "-e", "-c", "lex"]] ∧
    run (.ofPlan World.host {} {} (dry { values := [] } true) tokenPlan (fun _ => 1)
      fun job others _ => Choice.byFinish job others) tokenPlan grammarWorld =
        .ok dryState dryAfter ∧
    Predicts World.host (fun world => world.commands.map (·.words)) { values := [] } {}
      tokenPlan.graph grammarWorld state after dryState dryAfter := by
  obtain ⟨state, after, made, unfailed, commands⟩ := run_tokenPlan_unfailed
  obtain ⟨dryState, dryAfter, ran, predicts⟩ :=
    dryRun_predicts build_tokenRules ledger_world rfl rfl made unfailed true
  exact ⟨state, after, dryState, dryAfter, made, unfailed, commands, ran, predicts⟩

end Schedule

end BuildSystem
