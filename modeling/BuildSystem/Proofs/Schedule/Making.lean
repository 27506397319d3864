/-
**What the work on targets does to files.**

Targets are made by touching them or by recipes.  What is said here is that nothing else changes
files, and what the work on a target leaves when it has succeeded and when it has failed.

* `Sets`, `Leaves` — what happens to the files of a graph, and what the work on a target leaves.
* `Makes`, `Tidy` — targets are touched, or each is made by a recipe of its own, and nothing else
  changes files.
* `Tidy.ends_contain`, `Tidy.ends_share` — the work on a target leaves a file with the time of the
  clock if it succeeds, and otherwise the old file or none.
* `Separate`, `tidy_touching` — where the names of targets are names of different files, targets can
  be touched in every world in memory without locked files.
-/

import BuildSystem.Proofs.Files
import BuildSystem.Proofs.Plan.Afresh
import BuildSystem.Proofs.Schedule.Execution

namespace BuildSystem.Schedule

variable {σ : Type}

/-! ### Files -/

/-- The file of one node has the given time afterwards, and those of the others are as before. -/
def Sets (host : Host σ) (graph : Graph) (name : String) (time : Option Int) (before after : σ) :
    Prop :=
  ∀ node ∈ graph.nodes, host.modified node.name after =
    if node.name = name then time else host.modified node.name before

/-- **What the work on a target leaves**: if it has succeeded, the file has the given time;
otherwise it is as before, or it is gone. -/
def Leaves (host : Host σ) (graph : Graph) (now : Int) (name : String) (status : Status)
    (before after : σ) : Prop :=
  ∃ time, Sets host graph name time before after ∧
    (status = .succeeded → time = some now) ∧
    (status ≠ .succeeded → time = host.modified name before ∨ time = none)

section Files

variable {host : Host σ} {graph : Graph} {name : String} {before middle after : σ}

theorem Sets.none (host : Host σ) (graph : Graph) (name : String) (world : σ) :
    Sets host graph name (host.modified name world) world world := by
  intro node member
  split
  · next same => rw [same]
  · rfl

theorem Sets.trans {first second : Option Int} (sets : Sets host graph name first before middle)
    (again : Sets host graph name second middle after) :
    Sets host graph name second before after := by
  intro node member
  rw [again node member, sets node member]
  split
  · rfl
  · rfl

namespace Leaves

variable {now : Int} {status : Status}

theorem made (sets : Sets host graph name (some now) before after) :
    Leaves host graph now name .succeeded before after :=
  ⟨some now, sets, fun _ => rfl, fun unmade => absurd rfl unmade⟩

theorem same (unmade : status ≠ .succeeded)
    (sets : Sets host graph name (host.modified name before) before after) :
    Leaves host graph now name status before after :=
  ⟨_, sets, fun made => absurd made unmade, fun _ => Or.inl rfl⟩

theorem gone (unmade : status ≠ .succeeded) (sets : Sets host graph name none before after) :
    Leaves host graph now name status before after :=
  ⟨none, sets, fun made => absurd made unmade, fun _ => Or.inr rfl⟩

end Leaves

end Files

/-! ### Work -/

/-- **How targets are made**: they are touched, or each is made by a recipe of its own. -/
inductive Makes (host : Host σ) (executor : Executor) (plan : Plan) (now : Int)
    (usual : σ → Prop) : Prop
  | touching (only : executor.touchOnly = true)
      (touch : ∀ node ∈ plan.graph.nodes, ∀ world, usual world →
        Ends (fun _ after => usual after ∧ Sets host plan.graph node.name (some now) world after)
          (fun _ _ => False) (host.touch node.name world))
  /-- A recipe that ends with zero sets the time of its target, and any other one no time. -/
  | cooking (full : executor.touchOnly = false)
      (alone : ∀ node ∈ plan.graph.nodes, node.allTargets.length ≤ 1)
      (given : ∀ node ∈ plan.graph.nodes, node.isSource = false → node.recipe.isSome = true)
      (recipes : ∀ node ∈ plan.graph.nodes, ∀ recipe,
        Recipe.command node (plan.assessment node.name).newer = some recipe →
          ∀ slot world, usual world →
            Ends
              (fun completion after => usual after ∧ Sets host plan.graph node.name
                (if completion.exitCode = 0 then some now else host.modified node.name world)
                world after)
              (fun failure after => failure.isInterruption = false ∧ usual after ∧
                Sets host plan.graph node.name (host.modified node.name world) world after)
              (host.attempt (executor.words recipe)
                (executor.environment (host.environment world) node
                  (plan.assessment node.name).newer slot) world))

/-- **Nothing but the work on a target changes its file**, in all worlds that printing and work lead
to; files that are to be removed can be removed. -/
structure Tidy (host : Host σ) (executor : Executor) (plan : Plan) (now : Int)
    (usual : σ → Prop) : Prop where
  printing : ∀ world, usual world → ∀ piece, usual (host.print piece world) ∧
    ∀ name, host.modified name (host.print piece world) = host.modified name world
  remove : ∀ node ∈ plan.graph.nodes, ∀ world, usual world →
    Ends (fun _ after => usual after ∧ Sets host plan.graph node.name none world after)
      (fun _ _ => False) (host.remove node.name world)
  makes : Makes host executor plan now usual

section Work

variable {host : Host σ} {console : Console} {options : Options} {executor : Executor} {plan : Plan}
  {cost : String → Int} {order : Order σ} {now : Int} {usual : σ → Prop} {node : Node} {world : σ}

/-- Only where targets are touched do targets have a group. -/
theorem Makes.touchOnly_of_group (makes : Makes host executor plan now usual)
    (member : node ∈ plan.graph.nodes) {group : Recipe.Group}
    (grouped : Recipe.group? node = some group) : executor.touchOnly = true := by
  cases makes with
  | touching only => exact only
  | cooking full alone =>
    unfold Recipe.group? at grouped
    split at grouped
    · next several =>
      have single := alone node member
      simp only [Bool.and_eq_true, decide_eq_true_eq] at several
      omega
    · cases grouped

namespace Tidy

theorem ends_touch
    (touch : Ends
      (fun _ after => usual after ∧ Sets host plan.graph node.name (some now) world after)
      (fun _ _ => False) (host.touch node.name world)) :
    Ends (fun _ after => usual after ∧ Leaves host plan.graph now node.name .succeeded world after)
      (fun _ _ => False) (Executor.touch host node.name world) := by
  unfold Executor.touch
  refine Ends.bind (touch.imp ?_)
  rintro _ after ⟨kept, sets⟩
  exact .ok ⟨kept, .made sets⟩

/-- After a failure the file of a target is as before, or it is gone. -/
theorem ends_removeFailed (tidy : Tidy host executor plan now usual)
    (member : node ∈ plan.graph.nodes) {middle : σ} (start : usual middle)
    (same : Sets host plan.graph node.name (host.modified node.name world) world middle)
    {status : Status} (unmade : status ≠ .succeeded) :
    Ends (fun _ after => usual after ∧ Leaves host plan.graph now node.name status world after)
      (fun _ _ => False) (Executor.removeFailed host node middle) := by
  unfold Executor.removeFailed
  split
  · refine (tidy.remove node member middle start).imp ?_
    rintro _ after ⟨kept, gone⟩
    exact ⟨kept, .gone unmade (same.trans gone)⟩
  · exact .ok ⟨start, .same unmade same⟩

/-- **The work on a target leaves its file with the time of the clock if it succeeds**; a failure of
the work is a failed result. -/
theorem ends_contain (tidy : Tidy host executor plan now usual) (real : executor.dryRun = false)
    (plain : ∀ node ∈ plan.graph.nodes, node.Plain) {job : Job}
    (member : job.node ∈ plan.graph.nodes) (ruled : job.node.isSource = false)
    (start : usual world) :
    Ends (fun result after => usual after ∧
        Leaves host plan.graph now job.node.name result.status world after)
      (fun _ _ => False)
      (contain (Setting.ofPlan host console options executor plan cost order).workers job
        world) := by
  unfold contain
  refine Ends.tryCatch ?_
  show Ends _ _
    (executor.execute host job.node (plan.assessment job.node.name).newer job.slot world)
  unfold Executor.execute
  rw [if_neg (by simp [real])]
  cases tidy.makes with
  | touching only touch =>
    rw [if_pos only, if_neg (by simp [(plain job.node member).real])]
    have touched := ends_touch (touch job.node member world start)
    exact Ends.bind (Ends.map (touched.never.imp fun _ after both => .ok both))
  | cooking full alone given recipes =>
    rw [if_neg (by simp [full])]
    obtain ⟨text, written⟩ := Option.isSome_iff_exists.mp (given job.node member ruled)
    obtain ⟨recipe, command⟩ : ∃ recipe,
        Recipe.command job.node (plan.assessment job.node.name).newer = some recipe := by
      unfold Recipe.command
      rw [written]
      exact ⟨_, rfl⟩
    rw [command]
    unfold Executor.runRecipe
    refine Ends.get (Ends.bind ((recipes job.node member recipe command job.slot world
      start).mono ?_ ?_))
    · rintro completion after ⟨kept, sets⟩
      split
      · next ended =>
        rw [if_pos ended] at sets
        exact .ok ⟨kept, .made sets⟩
      · next failed =>
        rw [if_neg failed] at sets
        have unmade : Status.failed ≠ .succeeded := by decide
        have removed := tidy.ends_removeFailed member kept sets unmade
        exact Ends.bind (removed.never.imp fun _ later both => .ok both)
    · rintro failure after ⟨survives, kept, same⟩
      rw [if_neg (by simp [survives])]
      exact .ok ⟨kept, .same (by simp) same⟩

/-- A target that is touched with another one has the time of the clock if that one succeeded. -/
theorem ends_share (tidy : Tidy host executor plan now usual) (real : executor.dryRun = false)
    (only : executor.touchOnly = true) (plain : ∀ node ∈ plan.graph.nodes, node.Plain)
    (member : node ∈ plan.graph.nodes) (result : JobResult) (start : usual world) :
    Ends (fun own after => usual after ∧
        Leaves host plan.graph now node.name own.status world after)
      (fun _ _ => False) (executor.share host result node world) := by
  unfold Executor.share
  dsimp only
  split
  · next unmade =>
    have removed := tidy.ends_removeFailed member start (.none host plan.graph node.name world)
      unmade
    exact Ends.bind (removed.imp fun _ after both => .ok both)
  · next made =>
    rw [not_not] at made
    rw [if_neg (by simp [real, (plain node member).real])]
    cases tidy.makes with
    | touching _ touch =>
      refine Ends.bind (Ends.map ((ends_touch (touch node member world start)).imp ?_))
      rintro _ after ⟨kept, leaves⟩
      exact .ok ⟨kept, by rw [made]; exact leaves⟩
    | cooking full =>
      rw [only] at full
      cases full

end Tidy

end Work

/-! ### Worlds in memory -/

/-- The names of the nodes are names of different files. -/
def Separate (graph : Graph) : Prop :=
  ∀ one ∈ graph.nodes, FileName.canonical one.name ≠ "" ∧ ∀ other ∈ graph.nodes,
    FileName.canonical other.name = FileName.canonical one.name → other.name = one.name

section Worlds

variable {graph : Graph} {plan : Plan} {node : Node} {world : World} {now : Int}

theorem Separate.sets_setTime (separate : Separate graph) (member : node ∈ graph.nodes)
    (world : World) (time : Int) :
    Sets World.host graph node.name (some time) world (world.setTime node.name time) := by
  obtain ⟨named, different⟩ := separate node member
  intro other known
  rw [World.modified_setTime named]
  by_cases same : other.name = node.name
  · rw [if_pos same, if_pos (congrArg _ same)]
  · rw [if_neg same, if_neg (fun equal => same (different other known equal))]

theorem Separate.sets_delete (separate : Separate graph) (member : node ∈ graph.nodes)
    (free : world.Open now) :
    Sets World.host graph node.name none world (world.delete node.name) := by
  obtain ⟨named, different⟩ := separate node member
  intro other known
  rw [World.modified_delete free.distinct]
  by_cases same : other.name = node.name
  · rw [if_pos same, if_pos (congrArg _ same)]
  · rw [if_neg same, if_neg (fun equal => same (different other known equal))]

/-- In a world without locked files targets can be touched. -/
theorem tidy_touching (separate : Separate plan.graph) (values : Values) (now : Int) :
    Tidy World.host { values, touchOnly := true } plan now (World.Open now) where
  printing := fun world free piece => ⟨⟨free.unlocked, free.distinct, free.clock⟩, fun _ => rfl⟩
  remove := by
    intro node member world free
    rw [show World.host.remove node.name world = _ from World.remove_eq free node.name]
    exact .ok ⟨free.delete node.name, separate.sets_delete member free⟩
  makes := by
    refine .touching rfl fun node member world free => ?_
    rw [show World.host.touch node.name world = _ from World.touch_eq free node.name]
    exact .ok ⟨free.setTime node.name now, separate.sets_setTime member world now⟩

end Worlds

end BuildSystem.Schedule
