/-
**What a build itself does to files.**

Commands aside, a build touches its targets, or removes the targets of recipes that fail.  Where
commands change no files, nothing else happens to files.

* `Harmless` — commands that change no files and raise nothing.
* `Executor.Alters`, `Executor.alter` — when the work on a target alters its file, and how.
* `Calm.ends_execute`, `Calm.ends_share` — work and sharing alter the file of their target at most.
* `Effected`, `Effected.event` — in every scene exactly the files of the targets that have ended in
  the way that counts have been altered; every event keeps it.
* `run_effects` — a dry run changes no file; where targets are touched, exactly those that must be
  built are; and otherwise exactly those that have failed are removed, if their rules ask for it.
-/

import BuildSystem.Proofs.Schedule.DryRun
import BuildSystem.Proofs.Schedule.Resumption

namespace BuildSystem

namespace World

/-- A world in which commands are run in a given way, as the system of a build. -/
def hostOf (commands : List String → Environment → Action World Completion) : Host World :=
  { host with run := commands }

end World

/-- The names of the files that chosen targets denote; a virtual target denotes none. -/
def Graph.Files (graph : Graph) (chosen : Node → Prop) (name : String) : Prop :=
  ∃ node ∈ graph.nodes, chosen node ∧ node.isVirtual = false ∧
    FileName.canonical name = FileName.canonical node.name

theorem Graph.files_congr {graph : Graph} {chosen chosen' : Node → Prop}
    (same : ∀ node ∈ graph.nodes, chosen node ↔ chosen' node) (name : String) :
    graph.Files chosen name ↔ graph.Files chosen' name := by
  unfold Files
  constructor
  · rintro ⟨node, member, picked, denotes⟩
    exact ⟨node, member, (same node member).mp picked, denotes⟩
  · rintro ⟨node, member, picked, denotes⟩
    exact ⟨node, member, (same node member).mpr picked, denotes⟩

namespace Schedule

/-! ### Commands that change no files -/

/-- Neither files nor the clock have changed. -/
def Still (before after : World) : Prop :=
  after.files = before.files ∧ after.now = before.now

/-- **Commands change no files and raise nothing**, but their programs may be missing, in all worlds
to which they and the build itself lead. -/
structure Harmless (commands : List String → Environment → Action World Completion)
    (usual : World → Prop) : Prop where
  print : ∀ world, usual world → ∀ piece, usual (World.host.print piece world)
  touch : ∀ world, usual world → ∀ name, usual (world.setTime name world.now)
  remove : ∀ world, usual world → ∀ name, usual (world.delete name)
  run : ∀ words environment world, usual world →
    Ends (fun _ after => usual after ∧ Still world after)
      (fun failure after => (∃ message, failure = .programMissing message) ∧ usual after ∧
        Still world after)
      (commands words environment world)

/-- A world to which harmless commands lead, without locked files, whose clock shows a given
time. -/
structure Calm (usual : World → Prop) (now : Int) (world : World) : Prop where
  usual : usual world
  free : world.Open now

section Work

variable {commands : List String → Environment → Action World Completion} {usual : World → Prop}
  {now : Int} {world after : World} {name : String}

theorem Calm.still (calm : Calm usual now world) (kept : usual after) (still : Still world after) :
    Calm usual now after := by
  obtain ⟨files, clock⟩ := still
  refine ⟨kept, fun entry member => calm.free.unlocked entry (files ▸ member), ?_,
    clock.trans calm.free.clock⟩
  rw [files]
  exact calm.free.distinct

theorem Calm.print (calm : Calm usual now world) (harmless : Harmless commands usual)
    (piece : Printed) : Calm usual now (World.host.print piece world) :=
  calm.still (harmless.print world calm.usual piece) ⟨rfl, rfl⟩

/-- A missing program is reported as a shell reports it, so commands end. -/
theorem Calm.ends_attempt (calm : Calm usual now world) (harmless : Harmless commands usual)
    (words : List String) (environment : Environment) :
    Ends (fun _ after => Calm usual now after ∧ after.files = world.files) (fun _ _ => False)
      ((World.hostOf commands).attempt words environment world) := by
  refine Ends.tryCatch ((harmless.run words environment world calm.usual).mono ?_ ?_)
  · exact fun _ after ran => ⟨calm.still ran.1 ran.2, ran.2.1⟩
  · rintro failure after ⟨⟨message, rfl⟩, kept, still⟩
    exact .ok ⟨calm.still kept still, still.1⟩

theorem Calm.ends_touch (calm : Calm usual now world) (harmless : Harmless commands usual)
    (named : FileName.canonical name ≠ "") :
    Ends (fun _ after => Calm usual now after ∧
        World.Altered (fun other => FileName.canonical other = FileName.canonical name)
          (World.touched now) world after)
      (fun _ _ => False) (Executor.touch (World.hostOf commands) name world) := by
  have kept := harmless.touch world calm.usual name
  rw [calm.free.clock] at kept
  unfold Executor.touch
  refine Ends.bind ?_
  rw [show (World.hostOf commands).touch name world = _ from World.touch_eq calm.free name]
  exact .ok (.ok ⟨⟨kept, calm.free.setTime name now⟩, World.altered_setTime named world now⟩)

theorem Calm.ends_removeFailed (calm : Calm usual now world) (harmless : Harmless commands usual)
    (node : Node) :
    Ends (fun _ after => Calm usual now after ∧
        World.Altered (fun other => node.attributes.deleteOnFailure = true ∧
          node.isVirtual = false ∧ FileName.canonical other = FileName.canonical node.name)
          (fun _ => none) world after)
      (fun _ _ => False) (Executor.removeFailed (World.hostOf commands) node world) := by
  unfold Executor.removeFailed
  split
  · next removes =>
    simp only [Bool.and_eq_true, Bool.not_eq_true'] at removes
    rw [show (World.hostOf commands).remove node.name world = _ from
      World.remove_eq calm.free node.name]
    refine .ok ⟨⟨harmless.remove world calm.usual node.name, calm.free.delete node.name⟩, ?_⟩
    exact (World.altered_delete calm.free.distinct node.name).congr fun other =>
      ⟨fun denotes => denotes.2.2, fun same => ⟨removes.1, removes.2, same⟩⟩
  · next keeps =>
    refine .ok ⟨calm, .none (fun other denotes => keeps ?_) rfl⟩
    simp [denotes.1, denotes.2.1]

end Work

end Schedule

/-! ### The work on a target -/

namespace Executor

/-- **When the work on a target alters its file**, given how the work ends: where targets are
touched, if it succeeds, and otherwise if it fails and the rule asks for that. -/
def Alters (executor : Executor) (node : Node) (status : Status) : Prop :=
  if executor.touchOnly then status = .succeeded
  else status = .failed ∧ node.attributes.deleteOnFailure = true

/-- How the work on a target alters its file: it is touched, or removed. -/
def alter (executor : Executor) (now : Int) : Option World.File → Option World.File :=
  if executor.touchOnly then World.touched now else fun _ => none

/-- The file that the work on a target alters. -/
def Own (executor : Executor) (node : Node) (status : Status) (name : String) : Prop :=
  executor.Alters node status ∧ node.isVirtual = false ∧
    FileName.canonical name = FileName.canonical node.name

variable {executor : Executor} {node : Node} {status : Status}

theorem alter_alter (executor : Executor) (now : Int) (file : Option World.File) :
    executor.alter now (executor.alter now file) = executor.alter now file := by
  unfold alter
  split
  · rfl
  · rfl

/-- What has not ended, and what has been given up, alters no file. -/
theorem not_alters (unmade : status ≠ .succeeded) (unfailed : status ≠ .failed) :
    ¬ executor.Alters node status := by
  unfold Alters
  split
  · exact unmade
  · exact fun alters => unfailed alters.1

theorem not_own_of_virtual (virtual : node.isVirtual = true) (name : String) :
    ¬ executor.Own node status name := fun own => by
  rw [own.2.1] at virtual
  cases virtual

/-- A success alters no file unless targets are touched. -/
theorem not_own_of_succeeded (full : executor.touchOnly = false) (name : String) :
    ¬ executor.Own node .succeeded name := fun own => by
  have alters := own.1
  rw [Alters, if_neg (by simp [full])] at alters
  cases alters.1

theorem own_iff_of_touched (only : executor.touchOnly = true) (real : node.isVirtual = false)
    (name : String) : executor.Own node .succeeded name ↔
      FileName.canonical name = FileName.canonical node.name := by
  unfold Own Alters
  rw [if_pos only]
  simp [real]

theorem own_iff_of_failed (full : executor.touchOnly = false) (name : String) :
    executor.Own node .failed name ↔ node.attributes.deleteOnFailure = true ∧
      node.isVirtual = false ∧ FileName.canonical name = FileName.canonical node.name := by
  unfold Own Alters
  rw [if_neg (by simp [full])]
  simp

end Executor

namespace Schedule

section Work

variable {commands : List String → Environment → Action World Completion} {usual : World → Prop}
  {now : Int} {world : World} {executor : Executor} {node : Node}

/-- A target that is touched is the only file that is altered. -/
theorem Calm.ends_touch_own (calm : Calm usual now world) (harmless : Harmless commands usual)
    (only : executor.touchOnly = true) (real : node.isVirtual = false)
    (named : FileName.canonical node.name ≠ "") :
    Ends (fun _ after => Calm usual now after ∧
        World.Altered (executor.Own node .succeeded) (executor.alter now) world after)
      (fun _ _ => False) (Executor.touch (World.hostOf commands) node.name world) := by
  have how : executor.alter now = World.touched now := if_pos only
  rw [how]
  refine (calm.ends_touch harmless named).imp fun _ after touched => ⟨touched.1, ?_⟩
  exact touched.2.congr (Executor.own_iff_of_touched only real)

/-- After a failure only the file of the target is removed. -/
theorem Calm.ends_removeFailed_own (calm : Calm usual now world)
    (harmless : Harmless commands usual) (full : executor.touchOnly = false) (node : Node) :
    Ends (fun _ after => Calm usual now after ∧
        World.Altered (executor.Own node .failed) (executor.alter now) world after)
      (fun _ _ => False) (Executor.removeFailed (World.hostOf commands) node world) := by
  have how : executor.alter now = fun _ => none := if_neg (by simp [full])
  rw [how]
  refine (calm.ends_removeFailed harmless node).imp fun _ after removed => ⟨removed.1, ?_⟩
  exact removed.2.congr (Executor.own_iff_of_failed full)

/-- **The work on a target alters its own file at most.** -/
theorem Calm.ends_execute (calm : Calm usual now world) (harmless : Harmless commands usual)
    (real : executor.dryRun = false) (named : FileName.canonical node.name ≠ "")
    (newer : List String) (slot : Nat) :
    Ends (fun result after => Calm usual now after ∧
        (executor.touchOnly = true → result.status = .succeeded) ∧
        World.Altered (executor.Own node result.status) (executor.alter now) world after)
      (fun _ _ => False) (executor.execute (World.hostOf commands) node newer slot world) := by
  unfold Executor.execute
  rw [if_neg (by simp [real])]
  by_cases only : executor.touchOnly = true
  · rw [if_pos only]
    cases virtual : node.isVirtual with
    | true => exact .ok ⟨calm, fun _ => rfl, .none (Executor.not_own_of_virtual virtual) rfl⟩
    | false =>
      have touched := calm.ends_touch_own harmless only virtual named
      refine Ends.bind (Ends.map (touched.imp fun _ after both => ?_))
      exact .ok ⟨both.1, fun _ => rfl, both.2⟩
  · rw [if_neg only]
    have full : executor.touchOnly = false := by simpa using only
    cases Recipe.command node newer with
    | none =>
      exact .ok ⟨calm, fun touches => absurd touches only,
        .none (Executor.not_own_of_succeeded full) rfl⟩
    | some recipe =>
      unfold Executor.runRecipe
      refine Ends.get (Ends.bind ((calm.ends_attempt harmless _ _).imp ?_))
      rintro completion middle ⟨kept, same⟩
      split
      · exact .ok ⟨kept, fun touches => absurd touches only,
          .none (Executor.not_own_of_succeeded full) same⟩
      · have removed := kept.ends_removeFailed_own harmless full node
        refine Ends.bind (removed.imp fun _ after both => ?_)
        exact .ok ⟨both.1, fun touches => absurd touches only, both.2.of_files same⟩

/-- **So does sharing a result with a target**; where targets are touched, that of a success. -/
theorem Calm.ends_share (calm : Calm usual now world) (harmless : Harmless commands usual)
    (real : executor.dryRun = false) (named : FileName.canonical node.name ≠ "")
    {result : JobResult} (made : executor.touchOnly = true → result.status = .succeeded) :
    Ends (fun own after => Calm usual now after ∧
        (Ended own →
          World.Altered (executor.Own node own.status) (executor.alter now) world after))
      (fun _ _ => False) (executor.share (World.hostOf commands) result node world) := by
  unfold Executor.share
  dsimp only
  by_cases unmade : result.status ≠ .succeeded
  · rw [if_pos unmade]
    have full : executor.touchOnly = false :=
      Bool.eq_false_iff.mpr fun touches => unmade (made touches)
    have removed := calm.ends_removeFailed_own harmless full node
    refine Ends.bind (removed.imp fun _ after both => .ok ⟨both.1, fun ended => ?_⟩)
    have failed : result.status = .failed := ended.resolve_left unmade
    rw [failed]
    exact both.2
  · rw [if_neg unmade]
    rw [not_not] at unmade
    cases virtual : node.isVirtual with
    | true =>
      rw [if_pos (by simp)]
      exact .ok ⟨calm, fun _ => .none (Executor.not_own_of_virtual virtual) rfl⟩
    | false =>
      rw [if_neg (by simp [real])]
      by_cases only : executor.touchOnly = true
      · rw [if_pos only]
        have touched := calm.ends_touch_own harmless only virtual named
        refine Ends.bind (Ends.map (touched.imp fun _ after both => .ok ⟨both.1, fun _ => ?_⟩))
        rw [unmade]
        exact both.2
      · rw [if_neg only]
        refine .ok ⟨calm, fun _ => ?_⟩
        rw [unmade]
        exact .none (Executor.not_own_of_succeeded (by simpa using only)) rfl

end Work

/-! ### Along a run -/

/-- The targets that had to be built and have ended in the way that alters their files. -/
def State.Alters (executor : Executor) (plan : Plan) (state : State) (node : Node) : Prop :=
  (plan.assessment node.name).mustBuild = true ∧ executor.Alters node (state.status node.name)

/-- **Exactly the files of the targets that have ended in the way that counts have been altered**,
and all targets that have been touched have succeeded. -/
structure Effected (executor : Executor) (plan : Plan) (usual : World → Prop) (now : Int)
    (origin : World) (scene : Scene World) : Prop where
  calm : Calm usual now scene.outside
  altered : World.Altered (plan.graph.Files (scene.state.Alters executor plan))
    (executor.alter now) origin scene.outside
  foretold : executor.touchOnly = true →
    Foretold plan (fun _ => true) (Calm usual now) scene

section Runs

variable {commands : List String → Environment → Action World Completion} {usual : World → Prop}
  {now : Int} {console : Console} {options : Options} {executor : Executor} {plan : Plan}
  {cost : String → Int} {order : Order World} {origin : World} {node : Node}

/-- A target that ends adds its file to those that have been altered. -/
theorem State.files_alters (arranged : Arranged plan.graph.nodes)
    (member : node ∈ plan.graph.nodes) (stale : (plan.assessment node.name).mustBuild = true)
    {before after : State} {status : Status}
    (idle : ¬ executor.Alters node (before.status node.name))
    (changed : ∀ name, after.status name = if name = node.name then status else before.status name)
    (name : String) :
    plan.graph.Files (after.Alters executor plan) name ↔
      plan.graph.Files (before.Alters executor plan) name ∨ executor.Own node status name := by
  constructor
  · rintro ⟨other, known, ⟨otherStale, alters⟩, denotes⟩
    rw [changed] at alters
    split at alters
    · next same =>
      obtain rfl := arranged.eq_of_name known member same
      exact Or.inr ⟨alters, denotes⟩
    · exact Or.inl ⟨other, known, ⟨otherStale, alters⟩, denotes⟩
  · rintro (⟨other, known, ⟨otherStale, alters⟩, denotes⟩ | ⟨alters, denotes⟩)
    · have differ : other.name ≠ node.name := fun same => by
        obtain rfl := arranged.eq_of_name known member same
        exact idle alters
      refine ⟨other, known, ⟨otherStale, ?_⟩, denotes⟩
      rw [changed, if_neg differ]
      exact alters
    · refine ⟨node, member, ⟨stale, ?_⟩, denotes⟩
      rw [changed, if_pos rfl]
      exact alters

/-- Where no work is done, the first ready target gets a status that alters no file. -/
theorem Effected.wait {scene : Scene World} {rest : List Node} {status : Status}
    (effected : Effected executor plan usual now origin scene)
    (arranged : Arranged plan.graph.nodes) (consistent : Consistent plan.graph options scene.moment)
    (explained : Explained plan scene.state) (first : scene.state.ready = node :: rest)
    (unmade : status ≠ .succeeded) (unfailed : status ≠ .failed) :
    World.Altered (plan.graph.Files ((scene.state.put node.name status).Alters executor plan))
      (executor.alter now) origin scene.outside := by
  have member := (consistent.first_pending first).1
  have pending : scene.state.status node.name = .pending := (consistent.first_pending first).2
  have stale := (explained.of_open member (by simp [pending])).2
  have idle : ¬ executor.Alters node (scene.state.status node.name) :=
    pending ▸ Executor.not_alters (by decide) (by decide)
  refine effected.altered.congr fun name => ?_
  have files := State.files_alters arranged member stale idle
    (fun other => State.status_put scene.state node.name other status) name
  exact files.trans (or_iff_left fun own => Executor.not_alters unmade unfailed own.1)

/-- The work on a target that is settled alters its file. -/
theorem Effected.settle {scene : Scene World} {before after : State} {later : World}
    {rest : List Node} {group : Option Recipe.Group} {result : JobResult}
    (effected : Effected executor plan usual now origin scene)
    (arranged : Arranged plan.graph.nodes)
    (consistent : Consistent plan.graph options ⟨before, ⟨node :: rest, group⟩⟩)
    (stale : (plan.assessment node.name).mustBuild = true) (here : scene.state = before)
    (made : before.settle plan.graph options node result = .ok after)
    (altered : World.Altered (executor.Own node result.status) (executor.alter now) scene.outside
      later) :
    World.Altered (plan.graph.Files (after.Alters executor plan)) (executor.alter now) origin
      later := by
  have member := (consistent.building_of_due node List.mem_cons_self).1
  obtain ⟨building, changed⟩ := consistent.status_settle made
  subst here
  have idle : ¬ executor.Alters node (scene.state.status node.name) :=
    building ▸ Executor.not_alters (by decide) (by decide)
  refine (effected.altered.trans (executor.alter_alter now) altered).congr ?_
  exact State.files_alters arranged member stale idle changed

theorem Effected.print {world : World} {state : State} {stage : Stage}
    (effected : Effected executor plan usual now origin ⟨world, state, stage⟩)
    (harmless : Harmless commands usual) (piece : Printed) :
    Effected executor plan usual now origin ⟨World.host.print piece world, state, stage⟩ := by
  have calm : Calm usual now (World.host.print piece world) :=
    effected.calm.print harmless piece
  refine ⟨calm, effected.altered.of_files_after rfl, fun only => ?_⟩
  obtain ⟨-, right, finished, told⟩ := effected.foretold only
  exact ⟨calm, right, finished, told⟩

/-- Where targets are touched, the work on them succeeds. -/
theorem foreseen_touching (harmless : Harmless commands usual) (real : executor.dryRun = false)
    (only : executor.touchOnly = true)
    (named : ∀ node ∈ plan.graph.nodes, FileName.canonical node.name ≠ "") :
    Foreseen (World.hostOf commands) executor plan (fun _ => true) (Calm usual now) where
  printing := fun _ calm piece => calm.print harmless piece
  execute := by
    intro node member stale slot world calm
    refine (calm.ends_execute harmless real (named node member) _ slot).never.imp ?_
    exact fun result after ended => ⟨ended.2.1 only, ended.1⟩
  share := by
    intro node member stale result world calm succeeded
    refine (calm.ends_share harmless real (named node member) fun _ => succeeded).imp ?_
    exact fun own after ended => ended.1

/-- The work of a job alters the file of its target at most. -/
theorem Calm.ends_contain {world : World} (calm : Calm usual now world)
    (harmless : Harmless commands usual) (real : executor.dryRun = false) {job : Job}
    (named : FileName.canonical job.node.name ≠ "") :
    Ends (fun result after => Calm usual now after ∧
        World.Altered (executor.Own job.node result.status) (executor.alter now) world after)
      (fun _ _ => False)
      (contain (Setting.ofPlan (World.hostOf commands) console options executor plan cost
        order).workers job world) := by
  unfold contain
  refine Ends.tryCatch ((calm.ends_execute harmless real named _ job.slot).mono ?_ ?_)
  · exact fun result after ended => ⟨ended.1, ended.2.2⟩
  · exact fun _ _ => False.elim

/-- A result that is shared where targets are touched is that of a success. -/
theorem Effected.succeeded {scene : Scene World}
    (effected : Effected executor plan usual now origin scene) {result : JobResult}
    {rest : List Node} (sharing : scene.stage = .sharing result (node :: rest))
    (member : node ∈ plan.graph.nodes) (only : executor.touchOnly = true) :
    result.status = .succeeded := by
  have right := (effected.foretold only).right
  rw [sharing] at right
  exact right node List.mem_cons_self member

/-- **Every event keeps it.** -/
theorem Effected.event {one two : Scene World}
    (effected : Effected executor plan usual now origin one) (harmless : Harmless commands usual)
    (real : executor.dryRun = false)
    (named : ∀ node ∈ plan.graph.nodes, FileName.canonical node.name ≠ "")
    (arranged : Arranged plan.graph.nodes) (consistent : Consistent plan.graph options one.moment)
    (explained : Explained plan one.state) (grouped : one.state.Grouped)
    (due : ∀ node ∈ one.stage.due.nodes, node ∈ plan.graph.nodes ∧
      (plan.assessment node.name).mustBuild = true)
    (event : Event (.ofPlan (World.hostOf commands) console options executor plan cost order) one
      two) : Effected executor plan usual now origin two := by
  have calm := effected.calm
  -- Results that are shared where targets are touched are known to be successes.
  have foretold : executor.touchOnly = true →
      Foretold plan (fun _ => true) (Calm usual now) two := fun only =>
    (effected.foretold only).event (foreseen_touching harmless real only named)
      (fun _ _ _ _ _ _ _ => rfl) arranged consistent grouped (fun node member => (due node member).2) event
  cases event with
  | skip enabled made =>
    obtain ⟨waiting, ready, rfl⟩ := consistent.eq_of_skip enabled made
    cases enabled with
    | skip first =>
      exact ⟨calm, effected.wait arranged consistent explained first (by decide) (by decide), foretold⟩
  | share enabled made =>
    obtain rfl := consistent.eq_of_share enabled made
    cases enabled with
    | share first =>
      exact ⟨calm, effected.wait arranged consistent explained first (by decide) (by decide), foretold⟩
  | ride enabled made =>
    obtain rfl := consistent.eq_of_ride enabled made
    cases enabled with
    | ride first =>
      exact ⟨calm, effected.wait arranged consistent explained first (by decide) (by decide), foretold⟩
  | dispatch enabled made =>
    obtain rfl := consistent.eq_of_dispatch enabled made
    cases enabled with
    | dispatch first =>
      exact ⟨calm, effected.wait arranged consistent explained first (by decide) (by decide), foretold⟩
  | land flying => exact ⟨calm, effected.altered, foretold⟩
  | @work world later job result before after worked ended made =>
    obtain ⟨member, stale⟩ := due job.node List.mem_cons_self
    obtain ⟨kept, altered⟩ := (worked ▸ calm.ends_contain harmless real (named _ member)).of_ok
    exact ⟨kept, effected.settle arranged consistent stale rfl made altered, foretold⟩
  | finish ended => exact ⟨calm, effected.altered, foretold⟩
  | @adopt world later node rest result own before after shared ended made =>
    obtain ⟨member, stale⟩ := due node List.mem_cons_self
    have shares := calm.ends_share harmless real (named node member)
      (effected.succeeded rfl member)
    have shared : executor.share (World.hostOf commands) result node world = .ok own later := shared
    rw [shared] at shares
    obtain ⟨kept, altered⟩ := shares.of_ok
    exact ⟨kept, effected.settle arranged consistent stale rfl made (altered ended), foretold⟩

/-- The work in a scene raises no failure. -/
theorem Effected.not_fault {scene : Scene World}
    (effected : Effected executor plan usual now origin scene) (harmless : Harmless commands usual)
    (real : executor.dryRun = false)
    (named : ∀ node ∈ plan.graph.nodes, FileName.canonical node.name ≠ "")
    (due : ∀ node ∈ scene.stage.due.nodes, node ∈ plan.graph.nodes) (failure : Failure) :
    ¬ Fault (.ofPlan (World.hostOf commands) console options executor plan cost order) failure
      scene := by
  have calm := effected.calm
  intro fault
  cases fault with
  | @work world later state job failed =>
    have member := due job.node List.mem_cons_self
    exact (failed ▸ calm.ends_contain harmless real (named _ member)).of_error
  | @share world later state node rest result failed =>
    have member := due node List.mem_cons_self
    have shares := calm.ends_share harmless real (named node member)
      (effected.succeeded rfl member)
    have failed : executor.share (World.hostOf commands) result node world = .error failure later :=
      failed
    rw [failed] at shares
    exact shares.of_error

variable (console options cost order) in
/-- **A run has a result**, and exactly the files of the targets that have ended in the way that
counts have been altered. -/
theorem run_effected (harmless : Harmless commands usual) (real : executor.dryRun = false)
    (named : ∀ node ∈ plan.graph.nodes, FileName.canonical node.name ≠ "")
    (arranged : Arranged plan.graph.nodes)
    (ruled : ∀ node ∈ plan.graph.nodes, (plan.assessment node.name).mustBuild = true →
      node.isSource = false)
    (calm : Calm usual now origin) :
    ∃ past state after,
      run (.ofPlan (World.hostOf commands) console options executor plan cost order) plan origin =
        .ok state after ∧
      Passage plan.graph options (State.start plan options) past ⟨state, {}⟩ ∧
      Effected executor plan usual now origin ⟨after, state, .idle⟩ ∧ state.next = .stop := by
  have untouched : ∀ name,
      ¬ plan.graph.Files ((State.start plan options).Alters executor plan) name := by
    rintro name ⟨node, member, ⟨stale, alters⟩, -⟩
    have pending := (startStatus_eq_pending_iff plan node).mpr ⟨ruled node member stale, stale⟩
    rw [status_start options arranged member, pending] at alters
    exact Executor.not_alters (by decide) (by decide) alters
  have told : (State.start plan options).Told plan fun _ => true := by
    intro node member pending ended
    rw [status_start options arranged member, pending] at ended
    simp at ended
  have begins : Effected executor plan usual now origin
      ⟨origin, State.start plan options, .idle⟩ :=
    ⟨calm, .none untouched rfl, fun _ => ⟨calm, trivial, fun _ _ found => (by cases found), told⟩⟩
  obtain ⟨past, state, after, ran, course, effected, stops⟩ := run_keeps rfl arranged
    (lawful_ofPlan (World.hostOf commands) console options executor plan cost order) begins
    (fun world state stage piece effected => effected.print harmless piece)
    (fun past one two course effected event => effected.event harmless real named arranged
      (course.passage.consistent arranged) (course.passage.explained arranged)
      (course.passage.grouped arranged)
      (fun node due => (course.passage.of_due arranged node due).imp_right And.right) event)
    (fun past scene failure course effected => effected.not_fault harmless real named
      (fun node due => (course.passage.of_due arranged node due).1) failure)
  exact ⟨past, state, after, ran, course.passage, effected, stops⟩

/-- Where targets are touched, all of them succeed. -/
theorem Effected.all_made {past : List State} {state : State} {after : World}
    (effected : Effected executor plan usual now origin ⟨after, state, .idle⟩)
    (arranged : Arranged plan.graph.nodes) (only : executor.touchOnly = true)
    (passage : Passage plan.graph options (State.start plan options) past ⟨state, {}⟩)
    (stops : state.next = .stop) :
    ∀ node ∈ plan.graph.nodes, state.status node.name = .succeeded := by
  have explained : Explained plan state := passage.explained arranged
  have unfailed := explained.unfailed (effected.foretold only).told
  have going : state.aborted = false := by
    refine Bool.eq_false_iff.mpr fun aborted => ?_
    obtain ⟨-, node, member, -, failed⟩ := (passage.aborted_iff arranged).mp aborted
    exact unfailed node member failed
  exact explained.all_made arranged ((passage.consistent arranged).complete arranged stops) going
    unfailed

variable {τ : Type} {rules : RuleSet} {available : String → Bool} {targets : List String}

/-- **What a build itself does to files**, where commands change no files, no file is locked, and
every target denotes a possible file.  A dry run changes nothing.  Where targets are touched, exactly
those that must be built have the time of the clock, and are created if they are missing.  Otherwise
exactly those that have failed and whose rules ask for it are removed. -/
theorem run_effects {planner : Host τ} {planConsole : Console} {planOptions : PlanOptions}
    {early late : τ} (built : (Graph.build rules available targets).1 = .ok plan.graph)
    (evaluated : Plan.evaluate planner planConsole planOptions plan.graph early = .ok plan late)
    (named : ∀ node ∈ plan.graph.nodes, FileName.canonical node.name ≠ "")
    (harmless : Harmless commands usual) (start : usual origin) (free : origin.Open now) :
    ∃ state after,
      run (.ofPlan (World.hostOf commands) console options executor plan cost order) plan origin =
        .ok state after ∧
      (executor.dryRun = true → after.files = origin.files) ∧
      (executor.dryRun = false → executor.touchOnly = true →
        World.Altered (plan.graph.Files fun node => (plan.assessment node.name).mustBuild = true)
          (World.touched now) origin after) ∧
      (executor.dryRun = false → executor.touchOnly = false →
        World.Altered (plan.graph.Files fun node => state.status node.name = .failed ∧
            node.attributes.deleteOnFailure = true)
          (fun _ => none) origin after) := by
  have arranged := build_arranged built
  have ruled : ∀ node ∈ plan.graph.nodes, (plan.assessment node.name).mustBuild = true →
      node.isSource = false := fun node member stale =>
    (upward_of_evaluate built evaluated).ruled member stale
  cases real : executor.dryRun with
  | true =>
    obtain ⟨state, after, ran, same⟩ := run_idle (World.hostOf commands) console options cost
      order arranged real (fun world => world.files = origin.files) (fun _ same _ => same) rfl
    exact ⟨state, after, ran, fun _ => same, (by simp), by simp⟩
  | false =>
    obtain ⟨past, state, after, ran, passage, effected, stops⟩ := run_effected console options cost
      order harmless real named arranged ruled ⟨start, free⟩
    have altered := effected.altered
    refine ⟨state, after, ran, (by simp), fun _ only => ?_, fun _ full => ?_⟩
    · have how : executor.alter now = World.touched now := if_pos only
      rw [how] at altered
      refine altered.congr (Graph.files_congr fun node member => ?_)
      have made := effected.all_made arranged only passage stops node member
      exact (and_iff_left (show executor.Alters node (state.status node.name) from
        (if_pos only).mpr made)).symm
    · have how : executor.alter now = fun _ => none := if_neg (by simp [full])
      rw [how] at altered
      refine altered.congr (Graph.files_congr fun node member => ?_)
      unfold State.Alters Executor.Alters
      rw [if_neg (by simp [full])]
      refine (and_iff_right_of_imp fun failed => ?_).symm
      exact ((passage.explained arranged).of_open member (by simp [failed.1])).2

end Runs

/-! ### A program that cannot be linked -/

/-- A script none of whose commands changes a file is harmless. -/
theorem harmless_run : Harmless World.run fun world => world.script.Idle where
  print := fun _ idle _ => idle
  touch := by
    intro world idle name
    obtain ⟨files, changed⟩ := world.setTime_frame name world.now
    rw [changed]
    exact idle
  remove := fun _ idle _ => idle
  run := by
    intro words environment world idle
    cases there : world.programs.contains (words.headD "") with
    | true =>
      rw [World.run_eq environment there, World.perform_idle (idle.effect _)]
      exact .ok ⟨idle, rfl, rfl⟩
    | false =>
      refine Ends.get ?_
      rw [there]
      exact .error ⟨⟨_, rfl⟩, idle, rfl, rfl⟩

/-- A world in which the program cannot be linked, and commands make nothing. -/
def lazyWorld : World where
  files := [("main.c", { time := 3 }), ("main", { time := 2 }), ("notes", {})]
  script := { byTarget := [("main", { exitCode := 1 })] }

theorem idle_lazyWorld : lazyWorld.script.Idle := by
  refine ⟨fun entry member => ?_, fun entry member => (by cases member), ⟨rfl, rfl, rfl, rfl⟩⟩
  obtain rfl := List.mem_singleton.mp member
  exact ⟨rfl, rfl, rfl, rfl⟩

theorem run_effects_chain :
    (Graph.build chainRules (· = "main.c") ["main"]).1 = .ok chainPlan.graph ∧
    Plan.evaluate World.host {} {} chainPlan.graph chainWorld = .ok chainPlan chainWorld ∧
    (∃ state after,
      run (.ofPlan (World.hostOf World.run) {} { workers := 2 } { values := [] } chainPlan
        (fun _ => 1) .byFinish) chainPlan lazyWorld = .ok state after ∧
      World.Altered (chainPlan.graph.Files fun node => state.status node.name = .failed ∧
          node.attributes.deleteOnFailure = true) (fun _ => none) lazyWorld after) ∧
    ∃ state after,
      run (.ofPlan (World.hostOf World.run) {} { workers := 2 } { values := [], touchOnly := true }
        chainPlan (fun _ => 1) .byFinish) chainPlan lazyWorld = .ok state after ∧
      World.Altered
        (chainPlan.graph.Files fun node => (chainPlan.assessment node.name).mustBuild = true)
        (World.touched 1000000) lazyWorld after := by
  have built : (Graph.build chainRules (· = "main.c") ["main"]).1 = .ok chainPlan.graph := rfl
  have evaluated : Plan.evaluate World.host {} {} chainPlan.graph chainWorld =
      .ok chainPlan chainWorld := rfl
  have named : ∀ node ∈ chainPlan.graph.nodes, FileName.canonical node.name ≠ "" :=
    fun node member => (separate_chain node member).1
  have free : lazyWorld.Open 1000000 := ⟨by decide, by decide, rfl⟩
  obtain ⟨state, after, ran, -, -, removed⟩ :=
    run_effects built evaluated named harmless_run idle_lazyWorld free
  obtain ⟨state', after', ran', -, touched, -⟩ :=
    run_effects built evaluated named harmless_run idle_lazyWorld free
  exact ⟨built, evaluated, ⟨state, after, ran, removed rfl rfl⟩,
    ⟨state', after', ran', touched rfl rfl⟩⟩

/-- The program is removed, as it cannot be linked. -/
example : (match run (.ofPlan World.host {} {} { values := [] } chainPlan (fun _ => 1) .byFinish)
      chainPlan lazyWorld with
    | .ok _ after => after.files.keys
    | .error _ _ => []) = ["main.c", "notes"] := by
  decide +kernel

end Schedule

end BuildSystem
