/-
**The slots of the workers.**

A job takes a free slot when it is submitted, and gives it back when it is finished; its recipe
sees the number of the slot as `nproc`.  While the job for a group is in flight, the group is open
for riders; afterwards it has a result.

* `Allotted`, `Change.allotted`, `Passage.allotted` — at every moment each slot is held by one job
  in flight or is free, and the groups that are open are those of the jobs in flight and of the
  job that is being finished.
* `State.Exclusive`, `Allotted.exclusive` — what this says between two moves.
* `runFrom_add` — the states after a smaller number of moves are those that a run goes through.
* `runPlan_exclusive` — after any number of moves of a run, the slots are exclusive.
-/

import BuildSystem.Proofs.Schedule.Carrying

namespace BuildSystem.Schedule

variable {graph : Graph} {options : Options} {one two : Moment} {before : State} {node : Node}

/-! ### Groups of jobs -/

/-- The groups for which there are jobs. -/
def jobGroups (jobs : List Job) : List Recipe.Group :=
  jobs.filterMap fun job => Recipe.group? job.node

theorem jobGroups_cons (job : Job) (jobs : List Job) :
    jobGroups (job :: jobs) = (Recipe.group? job.node).toList ++ jobGroups jobs := by
  unfold jobGroups
  rw [List.filterMap_cons]
  cases Recipe.group? job.node with
  | none => rfl
  | some group => rfl

/-- A job that is submitted opens its group. -/
theorem State.keys_openGroup {riding : Table Recipe.Group (List Node)}
    (alone : ∀ group, Recipe.group? node = some group → group ∉ riding.keys) :
    (openGroup node riding).keys = riding.keys ++ (Recipe.group? node).toList := by
  unfold openGroup
  split
  · next group grouped =>
    rw [Table.keys_set, if_neg (alone group grouped), grouped]
    rfl
  · next none => rw [none, Option.toList_none, List.append_nil]

/-! ### Slots and open groups at every moment -/

/-- **Who holds the slots, and which groups are open**, at any moment. -/
structure Allotted (options : Options) (moment : Moment) : Prop where
  /-- Every slot is held by one job in flight, or is free. -/
  slots : (moment.state.running.map (·.slot) ++ moment.state.freeSlots).Perm options.slots
  /-- The open groups are those of the jobs in flight and of the job that is being finished. -/
  groups : moment.state.riding.keys.Perm
    (moment.due.group.toList ++ jobGroups moment.state.running)
  /-- No open group has a result. -/
  apart : ∀ group ∈ moment.state.riding.keys, group ∉ moment.state.finished.keys

namespace Allotted

/-- The target rides on an open group. -/
theorem ride (allotted : Allotted options ⟨before, {}⟩) {group : Recipe.Group}
    (enabled : Enabled before (.ride node group)) :
    Allotted options ⟨{ before.popReady.put node.name .building with
      riding := before.riding.set group (before.riders group ++ [node]) }, {}⟩ := by
  cases enabled with
  | ride first going free grouped carried =>
    have sameKeys : (before.riding.set group (before.riders group ++ [node])).keys =
        before.riding.keys := by
      rw [Table.keys_set, if_pos carried]
    exact ⟨allotted.slots, sameKeys ▸ allotted.groups, sameKeys ▸ allotted.apart⟩

/-- A job takes a free slot, and opens its group, which has no result. -/
theorem dispatch (allotted : Allotted options ⟨before, {}⟩) {slot : Nat} (cost : Int)
    (enabled : Enabled before (.dispatch node slot)) :
    Allotted options ⟨{ before.popReady.put node.name .building with
      running := before.running ++ [⟨node, slot, before.clock + cost⟩]
      freeSlots := before.freeSlots.tail
      dispatched := before.dispatched ++ [node.name]
      riding := State.openGroup node before.riding }, {}⟩ := by
  cases enabled with
  | dispatch first going free unfinished alone slotFree =>
    have opened := State.keys_openGroup alone
    have slots : (before.running.map (·.slot) ++ before.freeSlots).Perm _ := allotted.slots
    have groups : before.riding.keys.Perm (jobGroups before.running) := allotted.groups
    refine ⟨?_, ?_, fun group listed => ?_⟩
    · simpa [slotFree] using slots
    · show (State.openGroup node before.riding).keys.Perm
        (jobGroups (before.running ++ [⟨node, slot, before.clock + cost⟩]))
      have more : jobGroups (before.running ++ [⟨node, slot, before.clock + cost⟩]) =
          jobGroups before.running ++ (Recipe.group? node).toList := by
        rw [jobGroups, List.filterMap_append, ← jobGroups, ← jobGroups, jobGroups_cons]
        exact congrArg _ (List.append_nil _)
      rw [opened, more]
      exact groups.append_right _
    · have listed : group ∈ (State.openGroup node before.riding).keys := listed
      rw [opened, List.mem_append] at listed
      rcases listed with old | own
      · exact allotted.apart group old
      · have without := unfinished group (Option.mem_toList.mp own)
        intro finished
        have there := Table.contains_iff.mpr (show group ∈ before.finished.keys from finished)
        rw [Table.contains, without] at there
        cases there

/-- A job that is finished frees its slot; its group stays open until its result is recorded. -/
theorem land (allotted : Allotted options ⟨before, {}⟩) {job : Job}
    (flying : job ∈ before.running) :
    Allotted options ⟨before.land job, ⟨[job.node], Recipe.group? job.node⟩⟩ := by
  have landed := List.perm_cons_erase flying
  have slots : (before.running.map (·.slot) ++ before.freeSlots).Perm _ := allotted.slots
  have groups : before.riding.keys.Perm (jobGroups before.running) := allotted.groups
  refine ⟨?_, ?_, allotted.apart⟩
  · show ((before.running.erase job).map (·.slot) ++ (before.freeSlots ++ [job.slot])).Perm _
    refine List.Perm.trans ?_ slots
    rw [← List.append_assoc]
    refine (List.perm_append_singleton _ _).trans ?_
    exact ((landed.map (·.slot)).append_right before.freeSlots).symm
  · show before.riding.keys.Perm
      ((Recipe.group? job.node).toList ++ jobGroups (before.running.erase job))
    rw [← jobGroups_cons]
    exact groups.trans (landed.filterMap _)

/-- The group whose result is recorded is closed. -/
theorem finish {group : Recipe.Group} (allotted : Allotted options ⟨before, ⟨[], some group⟩⟩)
    (distinct : before.riding.keys.Nodup) (result : JobResult) (nodes : List Node) :
    Allotted options ⟨before.finishGroup group result, ⟨nodes, none⟩⟩ := by
  have groups : before.riding.keys.Perm (group :: jobGroups before.running) := allotted.groups
  have closed : (before.riding.erase group).keys = before.riding.keys.erase group :=
    Table.keys_erase group before.riding
  refine ⟨allotted.slots, ?_, fun other listed finished => ?_⟩
  · show (before.riding.erase group).keys.Perm (jobGroups before.running)
    rw [closed]
    simpa using groups.erase group
  · have listed : other ∈ (before.riding.erase group).keys := listed
    rw [closed, distinct.mem_erase_iff] at listed
    rcases Table.mem_keys_set.mp finished with same | earlier
    · exact listed.1 same
    · exact allotted.apart other listed.2 earlier

end Allotted

/-- **Every change keeps the slots and the open groups in order.** -/
theorem Change.allotted (consistent : Consistent graph options one)
    (change : Change graph options one two) (allotted : Allotted options one) :
    Allotted options two := by
  cases change with
  | skip enabled made =>
    obtain ⟨waiting, ready, rfl⟩ := consistent.eq_of_skip enabled made
    exact ⟨allotted.slots, allotted.groups, allotted.apart⟩
  | share enabled made =>
    obtain rfl := consistent.eq_of_share enabled made
    exact ⟨allotted.slots, allotted.groups, allotted.apart⟩
  | ride enabled made =>
    obtain rfl := consistent.eq_of_ride enabled made
    exact allotted.ride enabled
  | dispatch enabled made =>
    obtain rfl := consistent.eq_of_dispatch enabled made
    exact allotted.dispatch _ enabled
  | land flying => exact allotted.land flying
  | settle ended made =>
    obtain ⟨waiting, ready, rfl⟩ := consistent.eq_of_settle made
    exact ⟨allotted.slots, allotted.groups, allotted.apart⟩
  | finish ended => exact allotted.finish consistent.groups _ _

/-- **At every moment that a build can come to, the slots and the open groups are in order.** -/
theorem Passage.allotted {plan : Plan} (arranged : Arranged plan.graph.nodes) {past : List State}
    {moment : Moment}
    (passage : Passage plan.graph options (State.start plan options) past moment) :
    Allotted options moment := by
  induction passage with
  | start => exact ⟨.refl _, .refl _, fun group open' => by cases open'⟩
  | step passage change ih => exact change.allotted (passage.consistent arranged) ih

/-! ### Between two moves -/

/-- The number of a slot as a recipe sees it. -/
theorem Executor.get?_nproc (executor : Executor) (outer : Environment) (node : Node)
    (newer : List String) (slot : Nat) :
    (executor.environment outer node newer slot).get? "nproc" = some (toString slot) :=
  Table.get?_set_self _ _ _

theorem toString_injective : Function.Injective (toString : Nat → String) := by
  intro first second same
  rw [Nat.toString_eq_ofList_toDigits, Nat.toString_eq_ofList_toDigits, String.ofList_inj] at same
  have read := congrArg (fun digits => Nat.ofDigitChars 10 digits 0) same
  rwa [Nat.ofDigitChars_ten_toDigits, Nat.ofDigitChars_ten_toDigits] at read

/-- **The workers do not get in each other's way**: jobs in flight are no more than workers and have
slots of their own, and a group is open exactly while a job for it is in flight. -/
structure State.Exclusive (workers : Nat) (state : State) : Prop where
  bounded : state.running.length ≤ workers
  /-- The slots of the jobs in flight and the free slots are all slots, each once. -/
  slots : (state.running.map (·.slot) ++ state.freeSlots).Perm (List.range workers)
  /-- The open groups are those of the jobs in flight that have one, each once. -/
  groups : state.riding.keys.Perm (jobGroups state.running)
  /-- No open group has a result. -/
  apart : ∀ group ∈ state.riding.keys, group ∉ state.finished.keys
  /-- No two recipes that run at the same time see the same number. -/
  numbers : ∀ (executor : Executor) (outer : Job → Environment) (newer : Job → List String),
    (state.running.map fun job =>
      (executor.environment (outer job) job.node (newer job) job.slot).get? "nproc").Nodup

theorem Allotted.exclusive {state : State} (allotted : Allotted options ⟨state, {}⟩) :
    state.Exclusive (max 1 options.workers.toNat) := by
  have slots : (state.running.map (·.slot) ++ state.freeSlots).Perm
      (List.range (max 1 options.workers.toNat)) := allotted.slots
  refine ⟨?_, slots, allotted.groups, allotted.apart, fun executor outer newer => ?_⟩
  · have count := slots.length_eq
    rw [List.length_append, List.length_map, List.length_range] at count
    omega
  · have distinct : (state.running.map (·.slot)).Nodup :=
      (slots.nodup_iff.mpr List.nodup_range).of_append_left
    have injective : Function.Injective fun slot : Nat => some (toString slot) :=
      fun _ _ same => toString_injective (Option.some.inj same)
    have shown := distinct.map injective
    rw [List.map_map] at shown
    simpa [Executor.get?_nproc, Function.comp_def] using shown

/-! ### Runs -/

variable {σ : Type}

/-- **The states after a smaller number of moves are those that a longer run goes through.** -/
theorem runFrom_add (setting : Setting σ) (first more : Nat) :
    runFrom setting (first + more) =
      (runFrom setting first >>= fun _ => runFrom setting more) := by
  funext progress
  induction first generalizing progress with
  | zero =>
    rw [Nat.zero_add]
    rfl
  | succ first ih =>
    rw [Nat.succ_add]
    by_cases stops : progress.state.next = .stop
    · have stays : ∀ rounds, runFrom setting rounds progress = .ok () progress := by
        intro rounds
        cases rounds with
        | zero => rfl
        | succ rounds =>
          show (if progress.state.next = .stop then _ else _ : Step σ Unit) progress = _
          rw [if_pos stops]
          rfl
      rw [stays]
      show _ = EStateM.bind (runFrom setting (first + 1)) _ progress
      unfold EStateM.bind
      rw [stays]
      exact (stays more).symm
    · have goes : ∀ rounds, runFrom setting (rounds + 1) progress =
          (performOrDrain setting progress.state.next >>= fun _ => runFrom setting rounds)
            progress := by
        intro rounds
        show (if progress.state.next = .stop then _ else _ : Step σ Unit) progress = _
        rw [if_neg stops]
      have begins : (runFrom setting (first + 1) >>= fun _ => runFrom setting more) progress =
          ((performOrDrain setting progress.state.next >>= fun _ => runFrom setting first) >>=
            fun _ => runFrom setting more) progress := by
        show EStateM.bind _ _ progress = EStateM.bind _ _ progress
        rw [EStateM.bind, goes first]
        rfl
      rw [goes, begins, bind_assoc]
      show EStateM.bind _ _ progress = EStateM.bind _ _ progress
      unfold EStateM.bind
      cases performOrDrain setting progress.state.next progress with
      | ok _ after => exact ih after
      | error failure after => rfl

/-- After any number of moves a build stands at a scene of its course, unless it breaks off. -/
theorem Stands.runFrom {setting : Setting σ} {start : State} {origin : σ} {bound : Nat}
    {progress : Progress σ} (stands : Stands setting start origin .idle bound progress)
    (arranged : Arranged setting.graph.nodes) (lawful : setting.workers.Lawful) (rounds : Nat) :
    Ends (fun _ after => ∃ left, Stands setting start origin .idle left after)
      (Founders setting start origin) (runFrom setting rounds progress) := by
  induction rounds generalizing bound progress with
  | zero => exact .ok ⟨bound, stands⟩
  | succ rounds ih =>
    unfold Schedule.runFrom
    refine Ends.get ?_
    by_cases stops : progress.state.next = .stop
    · rw [if_pos stops]
      exact .ok ⟨bound, stands⟩
    · rw [if_neg stops]
      obtain ⟨less, rfl⟩ : ∃ less, bound = less + 1 := by
        refine Nat.exists_eq_succ_of_ne_zero fun none => stops (next_eq_stop ?_)
        exact Nat.le_zero.mp (none ▸ stands.bounded)
      refine Ends.bind ((ends_performOrDrain stands arranged lawful progress.state.enabled_next
        stops).imp ?_)
      exact fun _ after stands => ih stands

variable {rules : RuleSet} {available : String → Bool} {targets : List String} {plan : Plan}

/-- **After any number of moves of a run, the workers do not get in each other's way**, whatever
commands do, in whatever order jobs are finished, and whether or not the run is stopped by a failure
or breaks off later. -/
theorem runPlan_exclusive (built : (Graph.build rules available targets).1 = .ok plan.graph)
    (host : Host σ) (console : Console) (options : Options) (executor : Executor)
    (cost : String → Int) (order : Order σ) (outside : σ) :
    (∀ rounds, Ends
      (fun _ progress => progress.state.Exclusive (max 1 options.workers.toNat))
      (fun _ _ => True)
      (runFrom (.ofPlan host console options executor plan cost order) rounds
        { outside, state := State.start plan options })) ∧
    ∀ rounds more, rounds + more = (State.start plan options).roundLimit →
      runPlan (.ofPlan host console options executor plan cost order) plan outside =
        (runFrom (.ofPlan host console options executor plan cost order) rounds >>= fun _ =>
          runFrom (.ofPlan host console options executor plan cost order) more)
          { outside, state := State.start plan options } := by
  have arranged := build_arranged built
  have lawful := lawful_ofPlan host console options executor plan cost order
  have stands : Stands (.ofPlan host console options executor plan cost order)
      (State.start plan options) outside .idle (State.start plan options).roundLimit
      { outside, state := State.start plan options } := stands_start rfl arranged outside
  refine ⟨fun rounds => (stands.runFrom arranged lawful rounds).mono ?_ fun _ _ _ => trivial, ?_⟩
  · rintro _ progress ⟨left, there⟩
    exact (there.course.passage.allotted arranged).exclusive
  · intro rounds more all
    rw [← runFrom_add, all]
    rfl

/-- With two workers, the parser is made in slot 0 while its tokens are made in slot 1; the group of
the parser is open. -/
theorem runPlan_exclusive_tokenPlan :
    (Graph.build tokenRules (· = "gram.y") ["gram.c", "gram.h"]).1 = .ok tokenPlan.graph ∧
    ∃ progress, runFrom (.ofPlan World.host {} { workers := 2 } { values := [] } tokenPlan
        (fun _ => 1) .byFinish) 2
        { outside := grammarWorld, state := State.start tokenPlan { workers := 2 } } =
          .ok () progress ∧
      progress.state.Exclusive 2 ∧
      progress.state.running.map (fun job => (job.node.name, job.slot)) =
        [("gram.c", 0), ("tokens", 1)] ∧
      progress.state.riding.keys.length = 1 := by
  have ends := (runPlan_exclusive build_tokenRules World.host {} { workers := 2 } { values := [] }
    (fun _ => 1) .byFinish grammarWorld).1 2
  have moved : (match runFrom (.ofPlan World.host {} { workers := 2 } { values := [] } tokenPlan
        (fun _ => 1) .byFinish) 2
        { outside := grammarWorld, state := State.start tokenPlan { workers := 2 } } with
      | .ok _ progress => decide (
          progress.state.running.map (fun job => (job.node.name, job.slot)) =
            [("gram.c", 0), ("tokens", 1)] ∧ progress.state.riding.keys.length = 1)
      | .error _ _ => false) = true := by
    decide +kernel
  generalize runFrom _ 2 _ = result at ends moved ⊢
  cases ends with
  | ok exclusive =>
    obtain ⟨slots, opened⟩ := of_decide_eq_true moved
    exact ⟨build_tokenRules, _, rfl, exclusive, slots, opened⟩
  | error broken => cases moved

end BuildSystem.Schedule
