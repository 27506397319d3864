/-
**Looking at files afresh after some of them have been made.**

Targets are made at one time, which is later than the times of all files before.  So what has been
made is up to date, and what has not been made is as much out of date as before.

* `Node.Plain` — a target that is a file with nothing but times to compare.
* `outOfDate_iff_of_plain` — when such a target is out of date by itself.
* `Renewed` — how files have changed when some of the targets that must be built were made;
  `Renewed.of_made`, `of_left` and `of_kept` say what is out of date then.
* `Exact.afresh` — looked at afresh, exactly the other ones must be built.
-/

import BuildSystem.Proofs.Plan.Staleness

namespace BuildSystem

variable {graph : Graph}

/-- A target that is a file, is not always updated, and has no comparator. -/
structure Node.Plain (node : Node) : Prop where
  real : node.isVirtual = false
  lazy : node.attributes.forceUpdate = false
  uncompared : node.comparator = none

theorem Node.Plain.recorded {node : Node} (plain : node.Plain) (seen : Observation) :
    seen.recorded node = seen.modified node.name := by
  unfold Observation.recorded
  rw [plain.real]
  rfl

/-- A plain target is out of date by itself if its file is missing or older than a prerequisite. -/
theorem outOfDate_iff_of_plain {seen : Observation} (plain : ∀ node ∈ graph.nodes, node.Plain)
    {node : Node} (member : node ∈ graph.nodes) :
    OutOfDate seen false graph node ↔ ∀ own, seen.modified node.name = some own →
      ∃ prereq, graph.Needs node prereq ∧
        ∃ later, seen.modified prereq.name = some later ∧ own < later := by
  have own := plain node member
  constructor
  · intro outOfDate time there
    cases outOfDate with
    | forced everything => cases everything
    | virtualTarget unreal =>
      rw [own.real] at unreal
      cases unreal
    | alwaysUpdated always =>
      rw [own.lazy] at always
      cases always
    | missing real absent =>
      rw [there] at absent
      cases absent
    | differs _ comparator compares =>
      rw [own.uncompared] at compares
      cases compares
    | newer first firstThere _ prereq needed later recorded after =>
      rw [there] at firstThere
      obtain rfl := Option.some.inj firstThere
      rw [(plain prereq needed.1).recorded] at recorded
      exact ⟨prereq, needed, later, recorded, after⟩
  · intro older
    cases there : seen.modified node.name with
    | none => exact .missing own.real there
    | some time =>
      obtain ⟨prereq, needed, later, recorded, after⟩ := older time there
      rw [← (plain prereq needed.1).recorded] at recorded
      exact .newer time there (by simp [own.uncompared]) prereq needed later recorded after

/-- **How files have changed when some of the targets that must be built were made**: those have a
new time, the others may have lost their files, and nothing else has changed. -/
structure Renewed (graph : Graph) (stale done : String → Prop) (now : Int)
    (old new : String → Option Int) : Prop where
  made : ∀ node ∈ graph.nodes, stale node.name → done node.name → new node.name = some now
  left : ∀ node ∈ graph.nodes, stale node.name → ¬ done node.name →
    new node.name = old node.name ∨ new node.name = none
  kept : ∀ node ∈ graph.nodes, ¬ stale node.name → new node.name = old node.name

namespace Renewed

variable {stale done : String → Prop} {now : Int} {old new : String → Option Int} {node : Node}

/-- No file has a time later than the one at which targets are made, unless its target must be built
and was not made. -/
theorem le_now (renewed : Renewed graph stale done now old new)
    (earlier : ∀ node ∈ graph.nodes, ∀ time, old node.name = some time → time < now)
    (member : node ∈ graph.nodes) (made : stale node.name → done node.name) {time : Int}
    (there : new node.name = some time) : time ≤ now := by
  by_cases isStale : stale node.name
  · rw [renewed.made node member isStale (made isStale)] at there
    exact Int.le_of_eq (Option.some.inj there).symm
  · rw [renewed.kept node member isStale] at there
    exact Int.le_of_lt (earlier node member time there)

/-- The file of a target that was not made is older than the ones that were made, if it is there. -/
theorem lt_now (renewed : Renewed graph stale done now old new)
    (earlier : ∀ node ∈ graph.nodes, ∀ time, old node.name = some time → time < now)
    (member : node ∈ graph.nodes) (isStale : stale node.name) (unmade : ¬ done node.name)
    {time : Int} (there : new node.name = some time) : old node.name = some time ∧ time < now := by
  rcases renewed.left node member isStale unmade with same | lost
  · rw [same] at there
    exact ⟨there, earlier node member time there⟩
  · rw [lost] at there
    cases there

/-! The three kinds of nodes, given what is found below them; `again` are the names that must be
built the second time. -/

variable {seen later : Observation} (again : String → Prop)

/-- What was made is as new as everything below it, which was made before. -/
theorem of_made (renewed : Renewed graph stale done now seen.modified later.modified)
    (plain : ∀ node ∈ graph.nodes, node.Plain)
    (earlier : ∀ node ∈ graph.nodes, ∀ time, seen.modified node.name = some time → time < now)
    (member : node ∈ graph.nodes) (isStale : stale node.name) (made : done node.name)
    (below : ∀ prereq, graph.Needs node prereq →
      (again prereq.name ↔ stale prereq.name ∧ ¬ done prereq.name))
    (begun : ∀ prereq, graph.Needs node prereq → done prereq.name) :
    ¬ (OutOfDate later false graph node ∨
      ∃ prereq, graph.Needs node prereq ∧ again prereq.name) := by
  rw [outOfDate_iff_of_plain plain member]
  rintro (older | ⟨prereq, needs, prereqAgain⟩)
  · obtain ⟨prereq, needs, time, there, after⟩ := older now (renewed.made node member isStale made)
    have bound := renewed.le_now earlier needs.1 (fun _ => begun prereq needs) there
    omega
  · exact ((below prereq needs).mp prereqAgain).2 (begun prereq needs)

/-- What had to be built and was not made is older than what was made below it. -/
theorem of_left (renewed : Renewed graph stale done now seen.modified later.modified)
    (plain : ∀ node ∈ graph.nodes, node.Plain)
    (earlier : ∀ node ∈ graph.nodes, ∀ time, seen.modified node.name = some time → time < now)
    (member : node ∈ graph.nodes) (isStale : stale node.name) (unmade : ¬ done node.name)
    (below : ∀ prereq, graph.Needs node prereq →
      (again prereq.name ↔ stale prereq.name ∧ ¬ done prereq.name))
    (reason : OutOfDate seen false graph node ∨
      ∃ prereq, graph.Needs node prereq ∧ stale prereq.name) :
    OutOfDate later false graph node ∨ ∃ prereq, graph.Needs node prereq ∧ again prereq.name := by
  rw [outOfDate_iff_of_plain plain member] at reason ⊢
  by_cases waits : ∃ prereq, graph.Needs node prereq ∧ stale prereq.name ∧ ¬ done prereq.name
  · obtain ⟨prereq, needs, left⟩ := waits
    exact Or.inr ⟨prereq, needs, (below prereq needs).mpr left⟩
  · refine Or.inl fun own there => ?_
    obtain ⟨thereBefore, ownEarlier⟩ := renewed.lt_now earlier member isStale unmade there
    have newer : ∀ prereq, graph.Needs node prereq → stale prereq.name →
        later.modified prereq.name = some now := by
      intro prereq needs prereqStale
      refine renewed.made prereq needs.1 prereqStale ?_
      by_contra prereqUnmade
      exact waits ⟨prereq, needs, prereqStale, prereqUnmade⟩
    rcases reason with older | ⟨prereq, needs, prereqStale⟩
    · obtain ⟨prereq, needs, time, prereqThere, after⟩ := older own thereBefore
      by_cases prereqStale : stale prereq.name
      · exact ⟨prereq, needs, now, newer prereq needs prereqStale, ownEarlier⟩
      · rw [← renewed.kept prereq needs.1 prereqStale] at prereqThere
        exact ⟨prereq, needs, time, prereqThere, after⟩
    · exact ⟨prereq, needs, now, newer prereq needs prereqStale, ownEarlier⟩

/-- Where nothing had to be built, nothing has changed. -/
theorem of_kept (renewed : Renewed graph stale done now seen.modified later.modified)
    (plain : ∀ node ∈ graph.nodes, node.Plain) (member : node ∈ graph.nodes)
    (fresh : ¬ stale node.name)
    (below : ∀ prereq, graph.Needs node prereq →
      (again prereq.name ↔ stale prereq.name ∧ ¬ done prereq.name))
    (reason : OutOfDate later false graph node ∨
      ∃ prereq, graph.Needs node prereq ∧ again prereq.name) :
    OutOfDate seen false graph node ∨ ∃ prereq, graph.Needs node prereq ∧ stale prereq.name := by
  rw [outOfDate_iff_of_plain plain member] at reason ⊢
  rcases reason with older | ⟨prereq, needs, prereqAgain⟩
  · by_cases waits : ∃ prereq, graph.Needs node prereq ∧ stale prereq.name
    · exact Or.inr waits
    · refine Or.inl fun own there => ?_
      rw [← renewed.kept node member fresh] at there
      obtain ⟨prereq, needs, time, prereqThere, after⟩ := older own there
      rw [renewed.kept prereq needs.1 fun isStale => waits ⟨prereq, needs, isStale⟩] at prereqThere
      exact ⟨prereq, needs, time, prereqThere, after⟩
  · exact Or.inr ⟨prereq, needs, ((below prereq needs).mp prereqAgain).1⟩

end Renewed

section Afresh

variable {seen later : Observation} {before after : Assessments} {done : String → Prop} {now : Int}

/-- **Looked at afresh, exactly what had to be built and was not made must be built.** -/
theorem Exact.afresh (first : Exact seen false graph graph.nodes before)
    (second : Exact later false graph graph.nodes after) (arranged : Arranged graph.nodes)
    (plain : ∀ node ∈ graph.nodes, node.Plain)
    (earlier : ∀ node ∈ graph.nodes, ∀ time, seen.modified node.name = some time → time < now)
    (renewed : Renewed graph (fun name => (before.of name).mustBuild = true) done now seen.modified
      later.modified)
    (begun : ∀ node ∈ graph.nodes, (before.of node.name).mustBuild = true → done node.name →
      ∀ prereq, graph.Needs node prereq → done prereq.name) :
    ∀ node ∈ graph.nodes, (after.of node.name).mustBuild = true ↔
      (before.of node.name).mustBuild = true ∧ ¬ done node.name := by
  refine arranged.rec_on fun node member below => ?_
  have prereqs : ∀ prereq, graph.Needs node prereq →
      ((after.of prereq.name).mustBuild = true ↔
        (before.of prereq.name).mustBuild = true ∧ ¬ done prereq.name) :=
    fun prereq needs => below prereq needs.1 needs.2
  rw [second.stale node member]
  by_cases stale : (before.of node.name).mustBuild = true
  · obtain ⟨ruled, reason⟩ := (first.stale node member).mp stale
    by_cases made : done node.name
    · have upToDate := renewed.of_made (fun name => (after.of name).mustBuild = true) plain earlier
        member stale made prereqs (begun node member stale made)
      exact ⟨fun again => absurd again.2 upToDate, fun both => absurd made both.2⟩
    · exact ⟨fun _ => ⟨stale, made⟩, fun _ => ⟨ruled,
        renewed.of_left (fun name => (after.of name).mustBuild = true) plain earlier member stale
          made prereqs reason⟩⟩
  · refine ⟨fun ⟨ruled, reason⟩ => absurd ?_ stale, fun both => absurd both.1 stale⟩
    exact (first.stale node member).mpr ⟨ruled,
      renewed.of_kept (fun name => (after.of name).mustBuild = true) plain member stale prereqs
        reason⟩

end Afresh

end BuildSystem
