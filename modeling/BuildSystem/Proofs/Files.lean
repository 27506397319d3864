/-
**Files of a world in memory.**

* `World.file?_setTime`, `World.file?_delete` — the files after a change, and their times.
* `World.Open` — a world without locked files whose clock shows a given time; setting times and
  deleting files keep it so.
* `World.touch_eq`, `World.remove_eq` — in such a world files can be touched and removed.
* `World.Altered` — exactly the files of some names have been altered, in a given way.
* `World.effect_eq`, `World.effect_of_command`, `World.perform_target` — what commands do by their
  targets, or by their last words.
* `World.Script.Idle` — a script whose commands change no file and raise no failure.
* `World.ends_run` — every command that is run is recorded.
-/

import BuildSystem.Host.World
import BuildSystem.Proofs.Ending

namespace BuildSystem.World

variable {world : World} {name : String} {now : Int}

theorem file?_setTime (named : FileName.canonical name ≠ "") (world : World) (time : Int)
    (other : String) : (world.setTime name time).file? other =
      if FileName.canonical other = FileName.canonical name then
        some { (world.file? name).getD {} with time }
      else world.file? other := by
  unfold setTime put
  rw [if_neg (by simpa using named)]
  unfold file?
  dsimp only
  rw [Table.get?_set]

/-- Setting the time of a file changes nothing but files. -/
theorem setTime_frame (world : World) (name : String) (time : Int) :
    ∃ files, world.setTime name time = { world with files } := by
  unfold setTime put
  dsimp only
  split
  · exact ⟨world.files, rfl⟩
  · exact ⟨_, rfl⟩

theorem file?_delete (distinct : world.files.keys.Nodup) (name other : String) :
    (world.delete name).file? other =
      if FileName.canonical other = FileName.canonical name then none else world.file? other := by
  unfold delete file?
  dsimp only
  rw [Table.get?_erase distinct]

/-- The times of files after the time of one has been set. -/
theorem modified_setTime (named : FileName.canonical name ≠ "") (world : World) (time : Int)
    (other : String) : host.modified other (world.setTime name time) =
      if FileName.canonical other = FileName.canonical name then some time
      else host.modified other world := by
  show ((world.setTime name time).file? other).map (·.time) = _
  rw [file?_setTime named]
  split
  · rfl
  · rfl

/-- The times of files after one has been deleted. -/
theorem modified_delete (distinct : world.files.keys.Nodup) (name other : String) :
    host.modified other (world.delete name) =
      if FileName.canonical other = FileName.canonical name then none
      else host.modified other world := by
  show ((world.delete name).file? other).map (·.time) = _
  rw [file?_delete distinct]
  split
  · rfl
  · rfl

/-- A world without locked files, each of which has one entry, whose clock shows a given time. -/
structure Open (now : Int) (world : World) : Prop where
  unlocked : ∀ entry ∈ world.files, entry.2.locked = false
  distinct : world.files.keys.Nodup
  clock : world.now = now

namespace Open

theorem file_unlocked (free : world.Open now) (name : String) :
    (world.file? name).any (·.locked) = false := by
  cases found : world.file? name with
  | none => rfl
  | some file => exact free.unlocked (_, file) (Table.mem_of_get? found)

theorem setTime (free : world.Open now) (name : String) (time : Int) :
    (world.setTime name time).Open now := by
  unfold World.setTime put
  dsimp only
  split
  · exact free
  · refine ⟨fun entry member => ?_, Table.nodup_keys_set free.distinct _ _, free.clock⟩
    rcases Table.mem_set member with rfl | old
    · have unlocked := free.file_unlocked name
      cases found : world.file? name with
      | none => rfl
      | some file =>
        rw [found] at unlocked
        exact unlocked
    · exact free.unlocked entry old

theorem delete (free : world.Open now) (name : String) : (world.delete name).Open now := by
  refine ⟨fun entry member => free.unlocked entry (Table.mem_of_mem_erase member), ?_, free.clock⟩
  show (Table.erase _ world.files).keys.Nodup
  rw [Table.keys_erase]
  exact free.distinct.erase _

end Open

theorem touch_eq (free : world.Open now) (name : String) :
    touch name world = .ok () (world.setTime name now) := by
  show (if ((world.file? name).any (·.locked)) = true then _ else _ : Action World Unit) world = _
  rw [if_neg (by simp [free.file_unlocked])]
  show EStateM.Result.ok () (world.setTime name world.now) = _
  rw [free.clock]

theorem remove_eq (free : world.Open now) (name : String) :
    remove name world = .ok () (world.delete name) := by
  show (if ((world.file? name).any (·.locked)) = true then _ else _ : Action World Unit) world = _
  rw [if_neg (by simp [free.file_unlocked])]
  rfl

/-! ### Files that are altered -/

/-- A file whose time has been set; a missing one has been created. -/
def touched (time : Int) (file : Option File) : Option File :=
  some { file.getD {} with time }

/-- **Exactly the files of some names have been altered.** -/
structure Altered (names : String → Prop) (alter : Option File → Option File)
    (before after : World) : Prop where
  named : ∀ name, names name → after.file? name = alter (before.file? name)
  other : ∀ name, ¬ names name → after.file? name = before.file? name

theorem file?_congr {before after : World} (same : after.files = before.files) (name : String) :
    after.file? name = before.file? name := by
  unfold file?
  rw [same]

namespace Altered

variable {names names' : String → Prop} {alter : Option File → Option File}
  {before middle after : World}

theorem none (nothing : ∀ name, ¬ names name) (same : after.files = before.files) :
    Altered names alter before after :=
  ⟨fun name named => absurd named (nothing name), fun name _ => file?_congr same name⟩

theorem congr (altered : Altered names alter before after)
    (same : ∀ name, names' name ↔ names name) : Altered names' alter before after :=
  ⟨fun name named => altered.named name ((same name).mp named),
    fun name apart => altered.other name fun named => apart ((same name).mpr named)⟩

theorem of_files (altered : Altered names alter middle after)
    (same : middle.files = before.files) : Altered names alter before after :=
  ⟨fun name named => file?_congr same name ▸ altered.named name named,
    fun name apart => file?_congr same name ▸ altered.other name apart⟩

theorem of_files_after (altered : Altered names alter before middle)
    (same : after.files = middle.files) : Altered names alter before after :=
  ⟨fun name named => (file?_congr same name).trans (altered.named name named),
    fun name apart => (file?_congr same name).trans (altered.other name apart)⟩

/-- A file that is altered twice is as if it had been altered once. -/
theorem trans (twice : ∀ file, alter (alter file) = alter file)
    (first : Altered names alter before middle) (second : Altered names' alter middle after) :
    Altered (fun name => names name ∨ names' name) alter before after := by
  -- Two targets may denote one file, so a file may be altered twice.
  refine ⟨fun name named => ?_, fun name apart => ?_⟩
  · by_cases early : names name
    · by_cases late : names' name
      · rw [second.named name late, first.named name early, twice]
      · rw [second.other name late, first.named name early]
    · have late := named.resolve_left early
      rw [second.named name late, first.other name early]
  · rw [not_or] at apart
    rw [second.other name apart.2, first.other name apart.1]

end Altered

theorem altered_setTime {name : String} (named : FileName.canonical name ≠ "") (world : World)
    (time : Int) :
    Altered (fun other => FileName.canonical other = FileName.canonical name) (touched time) world
      (world.setTime name time) := by
  refine ⟨fun other same => ?_, fun other apart => ?_⟩
  · rw [file?_setTime named, if_pos same]
    unfold file? touched
    rw [same]
  · rw [file?_setTime named, if_neg apart]

theorem altered_delete {world : World} (distinct : world.files.keys.Nodup) (name : String) :
    Altered (fun other => FileName.canonical other = FileName.canonical name) (fun _ => .none) world
      (world.delete name) :=
  ⟨fun other same => by rw [file?_delete distinct, if_pos same],
    fun other apart => by rw [file?_delete distinct, if_neg apart]⟩

/-! ### Scripts -/

/-- What a command does whose script names one target only. -/
theorem effect_eq {script : Script} {effect : Effect} {other : String} {words : List String}
    {environment : Environment} (single : script.byTarget = [(name, effect)])
    (silent : script.byCommand = []) (target : environment.get? "target" = some other) :
    script.effect ⟨words, environment⟩ = if other = name then effect else script.otherwise := by
  unfold Script.effect
  dsimp only
  rw [target, single, silent, Option.bind_some]
  by_cases same : other = name
  · rw [if_pos same, Table.get?, if_pos same.symm]
    rfl
  · rw [if_neg same, Table.get?, if_neg (Ne.symm same)]
    cases words.getLast? with
    | none => rfl
    | some word => rfl

/-- What a command does whose script names no targets. -/
theorem effect_of_command {script : Script} {words : List String} {word : String}
    (untargeted : script.byTarget = []) (last : words.getLast? = some word)
    (environment : Environment) :
    script.effect ⟨words, environment⟩ = (script.byCommand.get? word).getD script.otherwise := by
  have nothing : (environment.get? "target").bind (fun name => script.byTarget.get? name) =
      none := by
    rw [untargeted]
    cases environment.get? "target" with
    | none => rfl
    | some name => rfl
  unfold Script.effect
  dsimp only
  rw [nothing, last]
  rfl

/-- A command that makes its target sets the time of that file. -/
theorem perform_target {command : Command} (target : command.environment.get? "target" = some name)
    (clock : world.now = now) : perform command { product := some .target } world =
      .ok ⟨0, ""⟩ (world.setTime name now) := by
  show EStateM.Result.ok (⟨0, ""⟩ : Completion) (make command.environment .target world) = _
  unfold make
  rw [target, ← clock]
  rfl

/-- What changes no file and raises no failure. -/
structure Effect.Idle (effect : Effect) : Prop where
  removed : effect.removed = []
  written : effect.written = []
  product : effect.product = .none
  failure : effect.failure = .none

theorem perform_idle {effect : Effect} (idle : effect.Idle) (command : Command) (world : World) :
    perform command effect world = .ok ⟨effect.exitCode, effect.output⟩ world := by
  unfold perform
  rw [idle.removed, idle.written, idle.product, idle.failure]
  rfl

/-- A script none of whose commands changes a file or raises a failure. -/
structure Script.Idle (script : Script) : Prop where
  byTarget : ∀ entry ∈ script.byTarget, entry.2.Idle
  byCommand : ∀ entry ∈ script.byCommand, entry.2.Idle
  otherwise : script.otherwise.Idle

theorem Script.Idle.effect {script : Script} (idle : script.Idle) (command : Command) :
    (script.effect command).Idle := by
  unfold Script.effect
  dsimp only
  cases target : (command.environment.get? "target").bind fun name => script.byTarget.get? name with
  | some effect =>
    obtain ⟨name, -, found⟩ := Option.bind_eq_some_iff.mp target
    exact idle.byTarget _ (Table.mem_of_get? found)
  | none =>
    cases word : command.words.getLast?.bind fun word => script.byCommand.get? word with
    | some effect =>
      obtain ⟨name, -, found⟩ := Option.bind_eq_some_iff.mp word
      exact idle.byCommand _ (Table.mem_of_get? found)
    | none => exact idle.otherwise

/-! ### The record of commands -/

theorem commands_setTime (world : World) (name : String) (time : Int) :
    (world.setTime name time).commands = world.commands := by
  obtain ⟨files, changed⟩ := world.setTime_frame name time
  rw [changed]

theorem commands_foldl {α : Type} {step : World → α → World}
    (keeps : ∀ world item, (step world item).commands = world.commands) (items : List α)
    (world : World) : (items.foldl step world).commands = world.commands := by
  induction items generalizing world with
  | nil => rfl
  | cons item rest ih => exact (ih (step world item)).trans (keeps world item)

theorem commands_setTimes (times : List (String × Option Int)) (world : World) :
    (times.foldl (fun current entry => current.setTime entry.1 (entry.2.getD current.now))
      world).commands = world.commands := by
  refine commands_foldl (fun current entry => ?_) times world
  exact commands_setTime current entry.1 (entry.2.getD current.now)

theorem commands_make (environment : Environment) (product : Product) (world : World) :
    (make environment product world).commands = world.commands := by
  unfold make
  exact commands_foldl (fun current name => commands_setTime current name current.now) _ world

theorem ends_remove (name : String) (world : World) :
    Ends (fun _ after => after.commands = world.commands) (fun _ _ => True)
      (remove name world) := by
  show Ends _ _ ((if ((world.file? name).any (·.locked)) = true then _ else _ :
    Action World Unit) world)
  split
  · exact .error trivial
  · exact .ok rfl

/-- What a command does is not recorded; only the command is. -/
theorem ends_perform (command : Command) (effect : Effect) (world : World) :
    Ends (fun _ after => after.commands = world.commands) (fun _ _ => True)
      (perform command effect world) := by
  unfold perform
  refine Ends.bind ((Ends.forM (fun _ after => after.commands = world.commands)
    (fun name _ before kept => (ends_remove name before).imp fun _ after same =>
      same.trans kept) world rfl).imp fun _ removed kept => ?_)
  have written : ((effect.written.foldl (fun current entry =>
      current.setTime entry.1 (entry.2.getD current.now)) removed).commands = world.commands) :=
    (commands_setTimes effect.written removed).trans kept
  refine Ends.bind (.ok ?_)
  cases effect.product with
  | none =>
    cases effect.failure with
    | some failure => exact .error trivial
    | none => exact .ok written
  | some product =>
    refine Ends.bind (.ok ?_)
    cases effect.failure with
    | some failure => exact .error trivial
    | none => exact .ok ((commands_make command.environment product _).trans written)

/-- **Every command that is run is recorded.** -/
theorem ends_run (words : List String) (environment : Environment) (world : World) :
    Ends (fun _ after => after.commands = world.commands ++ [⟨words, environment⟩])
      (fun _ _ => True) (run words environment world) := by
  cases there : world.programs.contains (words.headD "") with
  | true =>
    rw [run_eq environment there]
    exact ends_perform _ _ { world with commands := world.commands ++ [⟨words, environment⟩] }
  | false =>
    refine Ends.get ?_
    rw [there]
    exact .error trivial

end BuildSystem.World
