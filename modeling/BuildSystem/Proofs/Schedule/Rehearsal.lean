/-
**A build in which all work succeeds can be rehearsed.**

What a build does next depends on statuses, on counts, on slots and on which groups have a result,
but neither on times nor on what results say.  So as long as all work succeeds, the states that a
build comes to are those of a rehearsal that does no work at all.

* `State.bare` — a state without times and without what results say.
* `State.bare_skip`, `State.bare_settle` and the like — changes go through it; `State.next_bare` —
  and so does the choice of the next move.
* `Score.advance`, `Score.rehearse` — one move, and all moves, if all work succeeds.
* `Tells` — what is told of a build as it goes on, by its jobs and the world.
* `Faithful`, `OnScore` — what holds of a build as long as nothing has failed.
* `ends_perform_onScore` — a move goes as in the rehearsal, or something has failed and stays so.
* `runPlan_rehearsed` — a run in which nothing fails ends as the rehearsal does.
-/

import BuildSystem.Proofs.Following
import BuildSystem.Proofs.Schedule.Statuses

namespace BuildSystem

/-- The world after pieces of text have been printed. -/
def Host.tell {σ : Type} (host : Host σ) (pieces : List Printed) (world : σ) : σ :=
  pieces.foldl (fun current piece => host.print piece current) world

namespace Schedule

/-! ### States without times and results -/

/-- A result of which only the success counts. -/
def blank : JobResult where
  name := ""
  status := .succeeded

/-- **A state without times, and without what the results of groups say.** -/
def State.bare (state : State) : State :=
  { state with
    times := []
    finished := state.finished.mapValues fun _ => blank }

/-- A move without what a result says. -/
def Move.bare : Move → Move
  | .share node _ => .share node blank
  | .skip node blocker => .skip node blocker
  | .ride node group => .ride node group
  | .dispatch node slot => .dispatch node slot
  | .await => .await
  | .stop => .stop

namespace State

variable {graph : Graph} {options : Options} {state after : State} {node : Node}

theorem bare_changeStatus (state : State) (name : String) (status : Status) :
    state.bare.changeStatus name status = (state.changeStatus name status).map bare := by
  unfold changeStatus
  rw [show state.bare.status name = state.status name from rfl]
  cases Status.change name (state.status name) status with
  | error error => rfl
  | ok status => rfl

theorem bare_arrive (state : State) (node : Node) :
    state.bare.arrive node = (state.arrive node).bare := by
  unfold arrive
  rw [show state.bare.status node.name = state.status node.name from rfl,
    show state.bare.waitingFor node.name = state.waitingFor node.name from rfl]
  split
  · split
    · rfl
    · rfl
    · rfl
  · rfl

theorem bare_release (graph : Graph) (name : String) (state : State) :
    release graph name state.bare = (release graph name state).bare := by
  unfold release
  generalize graph.nodes.filter (·.prereqs.contains name) = nodes
  induction nodes generalizing state with
  | nil => rfl
  | cons node rest ih => rw [List.foldl_cons, List.foldl_cons, bare_arrive, ih]

theorem bare_skip (graph : Graph) (node : Node) (state : State) :
    state.bare.skip graph node = (state.skip graph node).map bare := by
  unfold skip
  rw [show state.bare.popReady = state.popReady.bare from rfl, bare_changeStatus]
  cases state.popReady.changeStatus node.name .skipped with
  | error error => rfl
  | ok after => exact congrArg Except.ok (bare_release graph node.name after)

theorem bare_begin (node : Node) (state : State) :
    state.bare.begin node = (state.begin node).map bare :=
  bare_changeStatus state.popReady node.name .building

theorem bare_ride (node : Node) (group : Recipe.Group) (state : State) :
    state.bare.ride node group = (state.ride node group).map bare := by
  unfold ride
  rw [bare_begin]
  cases state.begin node with
  | error error => rfl
  | ok after => rfl

theorem bare_dispatch (node : Node) (slot : Nat) (cost : Int) (state : State) :
    state.bare.dispatch node slot cost = (state.dispatch node slot cost).map bare := by
  unfold dispatch
  rw [bare_begin]
  cases state.begin node with
  | error error => rfl
  | ok after => rfl

/-- What a success says is not recorded. -/
theorem bare_settle (graph : Graph) (options : Options) (node : Node) {result : JobResult}
    (succeeded : result.status = .succeeded) (state : State) :
    state.bare.settle graph options node blank =
      (state.settle graph options node result).map bare := by
  have recorded : state.bare.record options node blank =
      (state.record options node result).bare := by
    unfold record stops bare
    simp [succeeded, blank]
  unfold settle
  rw [recorded, show blank.status = .succeeded from rfl, succeeded, bare_changeStatus]
  cases (state.record options node result).changeStatus node.name .succeeded with
  | error error => rfl
  | ok after => exact congrArg Except.ok (bare_release graph node.name after)

theorem bare_finishGroup (group : Recipe.Group) (result : JobResult) (state : State) :
    state.bare.finishGroup group blank = (state.finishGroup group result).bare := by
  unfold finishGroup bare
  rw [Table.mapValues_set]

theorem bare_wait (state : State) : state.bare.wait = state.wait.bare := by
  unfold wait
  rw [show state.bare.running = state.running from rfl]
  split
  · rfl
  · rfl

/-- **The next move does not depend on times and on what results say.** -/
theorem next_bare (state : State) : state.bare.next = state.next.bare := by
  have found : ∀ group : Option Recipe.Group, group.bind state.bare.finished.get? =
      (group.bind state.finished.get?).map fun _ => blank := by
    intro group
    cases group with
    | none => rfl
    | some group => exact Table.get?_mapValues (fun _ => blank) state.finished group
  unfold next
  rw [show state.bare.ready = state.ready from rfl, show state.bare.aborted = state.aborted from rfl]
  cases state.ready with
  | nil => exact bare_wait state
  | cons node rest =>
    dsimp only
    split
    · exact bare_wait state
    · rw [show (fun prereq => (state.bare.status prereq).blocks) =
        fun prereq => (state.status prereq).blocks from rfl]
      split
      · rfl
      · rw [found]
        cases (Recipe.group? node).bind state.finished.get? with
        | some result => rfl
        | none =>
          rw [Option.map_none]
          dsimp only
          rw [show state.bare.riding = state.riding from rfl,
            show state.bare.freeSlots = state.freeSlots from rfl]
          split
          · rfl
          · split
            · rfl
            · exact bare_wait state

end State

/-! ### The rehearsal -/

/-- Tells which of some jobs in flight is finished next, without a look at the world. -/
abbrev Choice :=
  (job : Job) → (others : List Job) → { found : Job // found ∈ job :: others }

/-- How a build goes on apart from its work. -/
structure Score where
  graph : Graph
  options : Options
  cost : String → Int
  choose : Choice

namespace Score

/-- A target is settled. -/
def settle (score : Score) (node : Node) (state : State) : Except BuildError State :=
  state.settle score.graph score.options node blank

/-- The job of a target has been finished, and all that ride on it are settled. -/
def settleRiders (score : Score) (node : Node) (state : State) : Except BuildError State :=
  match Recipe.group? node with
  | none => return state
  | some group =>
    (state.riders group).foldlM (fun state rider => score.settle rider state)
      (state.finishGroup group blank)

/-- A job is finished, and its target and its riders are settled. -/
def conclude (score : Score) (job : Job) (state : State) : Except BuildError State := do
  score.settleRiders job.node (← score.settle job.node (state.land job))

/-- **One move, if all work succeeds.** -/
def advance (score : Score) : Move → State → Except BuildError State
  | .skip node _, state => state.skip score.graph node
  | .share node _, state => do score.settle node (← state.begin node)
  | .ride node group, state => state.ride node group
  | .dispatch node slot, state => state.dispatch node slot (score.cost node.name)
  | .await, state =>
    match state.running with
    | [] => return state
    | job :: others => score.conclude (score.choose job others) state
  | .stop, state => return state

/-- **All moves, if all work succeeds**; `rounds` bounds their number. -/
def rehearse (score : Score) : (rounds : Nat) → State → Except BuildError State
  | 0, state => return state
  | rounds + 1, state =>
    if state.next = .stop then return state
    else do score.rehearse rounds (← score.advance state.next state)

end Score

/-! ### Changes of the record -/

section Record

variable {graph : Graph} {options : Options} {state after : State} {node : Node}

/-- **The record of a build stays as it is**: failures, results of groups, and submitted jobs. -/
structure State.Unrecorded (before after : State) : Prop where
  failures : after.failures = before.failures
  finished : after.finished = before.finished
  dispatched : after.dispatched = before.dispatched

theorem eq_of_changeStatus {name : String} {status : Status}
    (made : state.changeStatus name status = .ok after) : after = state.put name status := by
  unfold State.changeStatus Status.change at made
  split at made
  · cases made
  · exact (Except.ok.inj made).symm

theorem unrecorded_begin (made : state.begin node = .ok after) : state.Unrecorded after := by
  obtain rfl := eq_of_changeStatus made
  exact ⟨rfl, rfl, rfl⟩

theorem unrecorded_skip (made : state.skip graph node = .ok after) : state.Unrecorded after := by
  obtain ⟨given, changed, rfl⟩ := exists_of_map_eq_ok made
  obtain rfl := eq_of_changeStatus changed
  obtain ⟨waiting, ready, released⟩ :=
    State.release_frame graph node.name (state.popReady.put node.name .skipped)
  rw [released]
  exact ⟨rfl, rfl, rfl⟩

theorem unrecorded_ride {group : Recipe.Group} (made : state.ride node group = .ok after) :
    state.Unrecorded after := by
  obtain ⟨given, begun, rfl⟩ := exists_of_map_eq_ok made
  obtain ⟨failures, finished, dispatched⟩ := unrecorded_begin begun
  exact ⟨failures, finished, dispatched⟩

/-- Submitting a job is recorded as such. -/
theorem recorded_dispatch {slot : Nat} {cost : Int}
    (made : state.dispatch node slot cost = .ok after) : after.failures = state.failures ∧
      after.finished = state.finished ∧ after.dispatched = state.dispatched ++ [node.name] := by
  obtain ⟨given, begun, rfl⟩ := exists_of_map_eq_ok made
  obtain ⟨failures, finished, dispatched⟩ := unrecorded_begin begun
  exact ⟨failures, finished, congrArg (· ++ [node.name]) dispatched⟩

/-- Settling a target records a failure, and nothing else. -/
theorem recorded_settle {result : JobResult}
    (made : state.settle graph options node result = .ok after) :
    after.failures = (state.record options node result).failures ∧
      after.finished = state.finished ∧ after.dispatched = state.dispatched := by
  obtain ⟨given, changed, rfl⟩ := exists_of_map_eq_ok made
  obtain rfl := eq_of_changeStatus changed
  obtain ⟨waiting, ready, released⟩ := State.release_frame graph node.name
    ((state.record options node result).put node.name result.status)
  rw [released]
  exact ⟨rfl, rfl, rfl⟩

theorem failures_record_ne_nil {result : JobResult}
    (failed : state.failures ≠ [] ∨ result.status = .failed) :
    (state.record options node result).failures ≠ [] := by
  have set : ∀ table : Table String JobResult, table.set node.name result ≠ [] := by
    intro table
    cases table with
    | nil => exact List.cons_ne_nil _ _
    | cons entry rest =>
      unfold Table.set
      split
      · exact List.cons_ne_nil _ _
      · exact List.cons_ne_nil _ _
  show (if result.status = .failed then state.failures.set node.name result
    else state.failures) ≠ []
  split
  · exact set _
  · next fine => exact failed.resolve_right fine

end Record

/-! ### Builds that follow it -/

variable {σ : Type}

/-- The score of a setting in which jobs are finished in a given order. -/
def Setting.score (setting : Setting σ) (choose : Choice) : Score where
  graph := setting.graph
  options := setting.options
  cost := setting.workers.cost
  choose := choose

/-- What is echoed when the job of a target is submitted. -/
def Setting.echo (setting : Setting σ) (node : Node) : List Printed :=
  let shown := (setting.workers.describe node).getD ""
  if shown.isEmpty then [] else Console.recipe shown

/-- **What is told of a build as it goes on**, by the jobs that were submitted and the world: traces
and quiet results add nothing, and the echo of a recipe adds its target. -/
structure Tells (setting : Setting σ) (told : List String → σ → Prop) (quiet : JobResult → Prop) :
    Prop where
  trace : ∀ names world, told names world → ∀ pieces : List Printed,
    (∀ piece ∈ pieces, piece.stream = .error) → told names (setting.host.tell pieces world)
  echo : ∀ node ∈ setting.graph.nodes, ∀ names world, told names world →
    told (names ++ [node.name])
      (setting.host.tell (setting.echo node) world)
  work : ∀ job names world result after, told names world →
    contain setting.workers job world = .ok result after → quiet result ∧ told names after
  share : ∀ result node names world own after, told names world → result.status = .succeeded →
    setting.workers.share result node world = .ok own after → quiet own ∧ told names after
  settled : ∀ node result stopped names world, told names world → quiet result →
    told names (setting.host.tell (settled setting.console node result stopped) world)

/-- Of any build nothing can be told. -/
theorem tells_nothing (setting : Setting σ) : Tells setting (fun _ _ => True) fun _ => True where
  trace := fun _ _ _ _ _ => trivial
  echo := fun _ _ _ _ _ => trivial
  work := fun _ _ _ _ _ _ _ => ⟨trivial, trivial⟩
  share := fun _ _ _ _ _ _ _ _ _ => ⟨trivial, trivial⟩
  settled := fun _ _ _ _ _ _ _ => trivial

/-- **What holds of a build as long as nothing has failed**: what is left of the rehearsal leads to
the target, and every group with a result has been made. -/
structure Faithful (told : List String → σ → Prop) (target : Except BuildError State)
    (rest : State → Except BuildError State) (progress : Progress σ) : Prop where
  rest : rest progress.state.bare = target
  made : ∀ group result, progress.state.finished.get? group = some result →
    result.status = .succeeded
  told : told progress.state.dispatched progress.outside

theorem Faithful.congr {told : List String → σ → Prop} {target : Except BuildError State}
    {rest rest' : State → Except BuildError State} {progress : Progress σ}
    (faithful : Faithful told target rest progress) (same : ∀ state, rest state = rest' state) :
    Faithful told target rest' progress :=
  ⟨(same _).symm.trans faithful.rest, faithful.made, faithful.told⟩

/-- A build is faithful, or something has failed. -/
def OnScore (told : List String → σ → Prop) (target : Except BuildError State)
    (rest : State → Except BuildError State) (progress : Progress σ) : Prop :=
  progress.state.failures ≠ [] ∨ Faithful told target rest progress

theorem silent_debug (console : Console) (message : String) :
    ∀ piece ∈ console.debug message, piece.stream = .error := by
  unfold Console.debug
  split
  · exact fun piece member => List.eq_of_mem_singleton member ▸ rfl
  · exact fun piece member => nomatch member

theorem silent_skipped (name reason : String) :
    ∀ piece ∈ Console.skipped name reason, piece.stream = .error :=
  fun _ member => List.eq_of_mem_singleton member ▸ rfl

section Moves

variable {setting : Setting σ} {told : List String → σ → Prop} {quiet : JobResult → Prop}
  (choose : Choice) {target : Except BuildError State} {rest : State → Except BuildError State}
  {progress : Progress σ}

theorem ends_say_onScore (tells : Tells setting told quiet)
    (played : OnScore told target rest progress) (pieces : List Printed)
    (silent : ∀ piece ∈ pieces, piece.stream = .error) :
    Ends (fun _ after => OnScore told target rest after) (fun _ _ => True)
      (setting.say pieces progress) :=
  .ok (played.imp_right fun faithful =>
    ⟨faithful.rest, faithful.made, tells.trace _ _ faithful.told pieces silent⟩)

/-- A change that records nothing goes as in the rehearsal. -/
theorem ends_change_onScore {alter : State → Except BuildError State}
    (played : OnScore told target (fun state => alter state >>= rest) progress)
    (bare : alter progress.state.bare = (alter progress.state).map State.bare)
    (unrecorded : ∀ after, alter progress.state = .ok after → progress.state.Unrecorded after) :
    Ends (fun _ after => progress.state.Unrecorded after.state ∧ OnScore told target rest after)
      (fun _ _ => True) (change alter progress) := by
  unfold change
  cases made : alter progress.state with
  | error error => exact .error trivial
  | ok after =>
    have kept := unrecorded after made
    rcases played with failed | faithful
    · exact .ok ⟨kept, Or.inl (kept.failures.symm ▸ failed)⟩
    · refine .ok ⟨kept, Or.inr ⟨?_, kept.finished.symm ▸ faithful.made,
        kept.dispatched.symm ▸ faithful.told⟩⟩
      have leads := faithful.rest
      rw [bare, made] at leads
      exact leads

/-- Settling a target goes as in the rehearsal, unless it has failed. -/
theorem ends_settle_onScore (tells : Tells setting told quiet) {node : Node} {result : JobResult}
    (played : progress.state.failures ≠ [] ∨ Ended result ∧ quiet result ∧ Faithful told target
      (fun state => (setting.score choose).settle node state >>= rest) progress) :
    Ends (fun _ after => after.state.failures ≠ [] ∨
        result.status = .succeeded ∧ Faithful told target rest after)
      (fun _ _ => True) (settle setting node result progress) := by
  unfold settle
  refine Ends.get (Ends.bind ?_)
  unfold change
  cases made : progress.state.settle setting.graph setting.options node result with
  | error error => exact .error trivial
  | ok after =>
    obtain ⟨failures, finished, dispatched⟩ := recorded_settle made
    refine .ok (.ok ?_)
    rcases played with failed | ⟨succeeded | failed, silent, faithful⟩
    · exact Or.inl (failures.symm ▸ failures_record_ne_nil (Or.inl failed))
    · refine Or.inr ⟨succeeded, ?_, finished.symm ▸ faithful.made, ?_⟩
      · have leads : (progress.state.bare.settle setting.graph setting.options node blank >>= rest) =
          target := faithful.rest
        rw [State.bare_settle _ _ _ succeeded, made] at leads
        exact leads
      · exact tells.settled _ _ _ _ _ (dispatched.symm ▸ faithful.told) silent
    · exact Or.inl (failures.symm ▸ failures_record_ne_nil (Or.inr failed))

theorem ends_settleShared_onScore (tells : Tells setting told quiet)
    (lawful : setting.workers.Lawful) {node : Node} {result : JobResult}
    (played : progress.state.failures ≠ [] ∨ result.status = .succeeded ∧ Faithful told target
      (fun state => (setting.score choose).settle node state >>= rest) progress) :
    Ends (fun _ after => after.state.failures ≠ [] ∨
        result.status = .succeeded ∧ Faithful told target rest after)
      (fun _ _ => True) (settleShared setting result node progress) := by
  have shares := lawful.share result node progress.outside
  unfold settleShared
  refine Ends.bind ?_
  unfold outside
  cases shared : setting.workers.share result node progress.outside with
  | error failure later => exact .error trivial
  | ok own later =>
    rw [shared] at shares
    have same : own.status = result.status := shares.of_ok
    refine .ok ((ends_settle_onScore choose tells ?_).imp fun _ after => Or.imp_right
      (And.imp_left (same.symm.trans ·)))
    refine played.imp_right fun ⟨succeeded, faithful⟩ => ?_
    obtain ⟨silent, told⟩ := tells.share _ _ _ _ _ _ faithful.told succeeded shared
    exact ⟨Or.inl (same.trans succeeded), silent, faithful.rest, faithful.made, told⟩

/-- The riders of a group get its result one after the other. -/
theorem ends_riders_onScore (tells : Tells setting told quiet) (lawful : setting.workers.Lawful)
    {result : JobResult} {riders : List Node}
    (played : progress.state.failures ≠ [] ∨ result.status = .succeeded ∧ Faithful told target
      (fun state => riders.foldlM (fun state rider => (setting.score choose).settle rider state)
        state >>= rest) progress) :
    Ends (fun _ after => OnScore told target rest after) (fun _ _ => True)
      (riders.forM (settleShared setting result) progress) := by
  refine (Ends.forM (fun riders after => after.state.failures ≠ [] ∨ result.status = .succeeded ∧
    Faithful told target (fun state => riders.foldlM (fun state rider =>
      (setting.score choose).settle rider state) state >>= rest) after) ?_ progress played).imp
    fun _ after => Or.imp_right And.right
  intro rider riders before played
  refine ends_settleShared_onScore choose tells lawful
    (played.imp_right (And.imp_right fun faithful => faithful.congr fun state => ?_))
  rw [List.foldlM_cons]
  exact bind_assoc (m := Except BuildError) _ _ _

/-- The result of a job is recorded for its group and goes to the riders. -/
theorem ends_finish_onScore (tells : Tells setting told quiet) (lawful : setting.workers.Lawful)
    {node : Node} {result : JobResult}
    (played : progress.state.failures ≠ [] ∨ result.status = .succeeded ∧ Faithful told target
      (fun state => (setting.score choose).settleRiders node state >>= rest) progress) :
    Ends (fun _ after => OnScore told target rest after) (fun _ _ => True)
      ((do
        if let some group := Recipe.group? node then
          let riders := (← get).state.riders group
          change fun state => .ok (state.finishGroup group result)
          riders.forM (settleShared setting result) : Step σ Unit) progress) := by
  unfold Score.settleRiders at played
  cases grouped : Recipe.group? node with
  | none =>
    rw [grouped] at played
    exact .ok (played.imp_right And.right)
  | some group =>
    rw [grouped] at played
    refine Ends.get (Ends.bind (.ok (ends_riders_onScore choose tells lawful ?_)))
    refine played.imp_right fun ⟨succeeded, faithful⟩ => ⟨succeeded, ?_, ?_, faithful.told⟩
    · rw [← faithful.rest, ← State.bare_finishGroup]
      rfl
    · intro other own found
      rw [State.finishGroup, Table.get?_set] at found
      split at found
      · exact Option.some.inj found ▸ succeeded
      · exact faithful.made other own found

/-- The work of a job, and what follows from it for its target and its riders. -/
theorem ends_complete_onScore (tells : Tells setting told quiet) (lawful : setting.workers.Lawful)
    {job : Job} (played : OnScore told target
      (fun state => (setting.score choose).conclude job state >>= rest) progress) :
    Ends (fun _ after => OnScore told target rest after) (fun _ _ => True)
      (complete setting job progress) := by
  have contained := ends_contain lawful job
    (.start : Reaches setting progress.outside progress.outside)
  unfold complete
  refine Ends.bind (.ok (Ends.bind ?_))
  unfold outside
  dsimp only
  cases worked : contain setting.workers job progress.outside with
  | error failure later => exact .error trivial
  | ok result later =>
    rw [worked] at contained
    obtain ⟨ended, -⟩ := contained.of_ok
    have landed : progress.state.failures ≠ [] ∨ Ended result ∧ quiet result ∧ Faithful told target
        (fun state => (setting.score choose).settle job.node state >>= fun state =>
          (setting.score choose).settleRiders job.node state >>= rest)
        ⟨later, progress.state.land job, progress.past ++ [progress.state]⟩ := by
      refine played.imp_right fun faithful => ?_
      obtain ⟨silent, told⟩ := tells.work _ _ _ _ _ faithful.told worked
      refine ⟨ended, silent, ?_, faithful.made, told⟩
      rw [← faithful.rest]
      exact (bind_assoc (m := Except BuildError) _ _ _).symm
    refine .ok (Ends.bind ((ends_settle_onScore choose tells landed).imp ?_))
    exact fun _ after played => ends_finish_onScore choose tells lawful played

/-- Submitting a job goes as in the rehearsal, and the recipe of its target is echoed. -/
theorem ends_dispatch_onScore (tells : Tells setting told quiet) {node : Node} {slot : Nat}
    (member : node ∈ setting.graph.nodes) (played : OnScore told target
      (fun state => (setting.score choose).advance (.dispatch node slot) state >>= rest) progress) :
    Ends (fun _ after => OnScore told target rest after) (fun _ _ => True)
      (perform setting (.dispatch node slot) progress) := by
  refine Ends.bind ?_
  unfold change
  cases made : progress.state.dispatch node slot (setting.workers.cost node.name) with
  | error error => exact .error trivial
  | ok after =>
    obtain ⟨failures, finished, dispatched⟩ := recorded_dispatch made
    refine .ok (.ok ?_)
    rcases played with failed | faithful
    · exact Or.inl (failures.symm ▸ failed)
    · refine Or.inr ⟨?_, finished.symm ▸ faithful.made, ?_⟩
      · have leads : (progress.state.bare.dispatch node slot (setting.workers.cost node.name) >>=
          rest) = target := faithful.rest
        rw [State.bare_dispatch, made] at leads
        exact leads
      · rw [dispatched]
        exact tells.trace _ _ (tells.echo node member _ _ faithful.told) _
          (silent_debug setting.console _)

/-- Sharing the result of a group that has ended goes as in the rehearsal. -/
theorem ends_share_onScore (tells : Tells setting told quiet) (lawful : setting.workers.Lawful)
    {node : Node} {result : JobResult} {group : Recipe.Group}
    (found : progress.state.finished.get? group = some result) (played : OnScore told target
      (fun state => (setting.score choose).advance (.share node result) state >>= rest) progress) :
    Ends (fun _ after => OnScore told target rest after) (fun _ _ => True)
      (perform setting (.share node result) progress) := by
  have begins : OnScore told target (fun state => state.begin node >>= fun state =>
      (setting.score choose).settle node state >>= rest) progress :=
    played.imp_right fun faithful =>
      faithful.congr fun _ => bind_assoc (m := Except BuildError) _ _ _
  refine Ends.bind ((ends_change_onScore begins (State.bare_begin _ _)
    fun _ made => unrecorded_begin made).imp ?_)
  intro _ after ⟨kept, played⟩
  refine (ends_settleShared_onScore choose tells lawful (played.imp_right fun faithful =>
    ⟨faithful.made group result ?_, faithful⟩)).imp fun _ _ => Or.imp_right And.right
  rw [kept.finished]
  exact found

/-- The job that is waited for is the one of the rehearsal. -/
theorem ends_await_onScore (tells : Tells setting told quiet) (lawful : setting.workers.Lawful)
    (ordered : ∀ job others world, setting.workers.order job others world = choose job others)
    (flying : progress.state.running ≠ []) (played : OnScore told target
      (fun state => (setting.score choose).advance .await state >>= rest) progress) :
    Ends (fun _ after => OnScore told target rest after) (fun _ _ => True)
      (perform setting .await progress) := by
  refine Ends.get ?_
  cases running : progress.state.running with
  | nil => exact absurd running flying
  | cons job others =>
    have concludes : OnScore told target (fun state =>
        (setting.score choose).conclude (choose job others) state >>= rest) progress := by
      refine played.imp_right fun faithful => ⟨?_, faithful.made, faithful.told⟩
      have leads : ((match progress.state.running with
        | [] => .ok progress.state.bare
        | job :: others => (setting.score choose).conclude (choose job others)
          progress.state.bare) >>= rest) = target := faithful.rest
      rw [running] at leads
      exact leads
    dsimp only
    rw [ordered]
    exact ends_complete_onScore choose tells lawful concludes

/-- **A move goes as in the rehearsal, unless something has failed.** -/
theorem ends_perform_onScore (tells : Tells setting told quiet) (lawful : setting.workers.Lawful)
    (ordered : ∀ job others world, setting.workers.order job others world = choose job others)
    {move : Move} (enabled : Enabled progress.state move)
    (pending : ∀ node rest, progress.state.ready = node :: rest → node ∈ setting.graph.nodes)
    (played : OnScore told target
      (fun state => (setting.score choose).advance move state >>= rest) progress) :
    Ends (fun _ after => OnScore told target rest after) (fun _ _ => True)
      (perform setting move progress) := by
  cases move with
  | skip node blocker =>
    refine Ends.bind ((ends_change_onScore played (State.bare_skip _ _ _)
      fun _ made => unrecorded_skip made).imp ?_)
    exact fun _ after played => ends_say_onScore tells played.2 _ (silent_skipped _ _)
  | share node result =>
    cases enabled with
    | share first going free grouped found =>
      exact ends_share_onScore choose tells lawful found played
  | ride node group =>
    refine Ends.bind ((ends_change_onScore played (State.bare_ride _ _ _)
      fun _ made => unrecorded_ride made).imp ?_)
    exact fun _ after played => ends_say_onScore tells played.2 _ (silent_debug _ _)
  | dispatch node slot =>
    cases enabled with
    | dispatch first => exact ends_dispatch_onScore choose tells (pending _ _ first) played
  | await =>
    cases enabled with
    | await flying => exact ends_await_onScore choose tells lawful ordered flying played
  | stop => exact .ok played

/-- A move that fails ends the build. -/
theorem ends_performOrDrain_onScore {move : Move}
    (performs : Ends (fun _ after => OnScore told target rest after) (fun _ _ => True)
      (perform setting move progress)) :
    Ends (fun _ after => OnScore told target rest after) (fun _ _ => True)
      (performOrDrain setting move progress) :=
  Ends.tryCatch (performs.mono (fun _ _ played => played)
    fun _ after _ => Ends.andThen after fun _ _ => .error trivial)

end Moves

/-! ### Runs that follow it -/

section Runs

variable {setting : Setting σ} {told : List String → σ → Prop} {quiet : JobResult → Prop}
  (choose : Choice) {target : Except BuildError State}

theorem Move.bare_eq_stop {move : Move} : move.bare = .stop ↔ move = .stop := by
  cases move <;> simp [Move.bare]

theorem Score.advance_bare (score : Score) (move : Move) :
    score.advance move.bare = score.advance move := by
  cases move <;> rfl

/-- The rehearsal goes on as the build does. -/
theorem Score.rehearse_bare (score : Score) (rounds : Nat) (state : State) :
    score.rehearse (rounds + 1) state.bare =
      if state.next = .stop then .ok state.bare
      else score.advance state.next state.bare >>= score.rehearse rounds := by
  unfold rehearse
  simp only [State.next_bare, Move.bare_eq_stop, Score.advance_bare]
  rfl

/-- **All moves go as in the rehearsal, unless something has failed.** -/
theorem ends_runFrom_onScore (tells : Tells setting told quiet) (lawful : setting.workers.Lawful)
    (ordered : ∀ job others world, setting.workers.order job others world = choose job others)
    (arranged : Arranged setting.graph.nodes) {start : State} {origin : σ} (rounds : Nat)
    {progress : Progress σ} (stands : Stands setting start origin .idle rounds progress)
    (played : OnScore told target ((setting.score choose).rehearse rounds) progress) :
    Ends (fun _ after => OnScore told target .ok after) (fun _ _ => True)
      (runFrom setting rounds progress) := by
  induction rounds generalizing progress with
  | zero => exact .ok played
  | succ rounds ih =>
    have goesOn : OnScore told target (fun state => if progress.state.next = .stop then .ok state
        else (setting.score choose).advance progress.state.next state >>=
          (setting.score choose).rehearse rounds) progress :=
      played.imp_right fun faithful =>
        ⟨(Score.rehearse_bare _ rounds progress.state).symm.trans faithful.rest, faithful.made,
          faithful.told⟩
    unfold runFrom
    refine Ends.get ?_
    by_cases stops : progress.state.next = .stop
    · simp only [if_pos stops] at goesOn ⊢
      exact .ok goesOn
    · simp only [if_neg stops] at goesOn ⊢
      have enabled := progress.state.enabled_next
      have performs := ends_perform_onScore choose tells lawful ordered enabled
        (fun _ _ first => (stands.consistent.first_pending first).1) goesOn
      have moves := ends_performOrDrain stands arranged lawful enabled stops
      refine Ends.bind ((moves.and (ends_performOrDrain_onScore performs)).mono ?_ ?_)
      · rintro _ after ⟨stands, played⟩
        exact ih stands played
      · exact fun _ _ _ => trivial

/-- **A run in which nothing fails ends as the rehearsal does**, and all of it is told. -/
theorem runPlan_rehearsed {plan : Plan} (tells : Tells setting told quiet)
    (same : setting.graph = plan.graph) (arranged : Arranged plan.graph.nodes)
    (lawful : setting.workers.Lawful)
    (ordered : ∀ job others world, setting.workers.order job others world = choose job others)
    {origin : σ} (begins : told [] origin) :
    Ends (fun _ after => after.state.failures = [] →
        (setting.score choose).rehearse (State.start plan setting.options).roundLimit
          (State.start plan setting.options).bare = .ok after.state.bare ∧
        told after.state.dispatched after.outside)
      (fun _ _ => True) (runPlan setting plan origin) := by
  have stands : Stands setting (State.start plan setting.options) origin .idle
      (State.start plan setting.options).roundLimit
      { outside := origin, state := State.start plan setting.options } :=
    stands_start same arranged origin
  refine (ends_runFrom_onScore choose tells lawful ordered (same ▸ arranged) _ stands
    (Or.inr ⟨rfl, fun _ _ found => (nomatch found), begins⟩)).imp ?_
  intro _ after played fine
  rcases played with failed | faithful
  · exact absurd fine failed
  · exact ⟨faithful.rest.symm, faithful.told⟩

end Runs

end Schedule

end BuildSystem
