/-
**Targets that one run of a recipe makes.**

Whether a target must be built is decided for the target alone, also if its recipe makes other
targets too.

* `SiblingsAgree` — of the targets of a group all must be built, or none.
* `not_siblingsAgree` — this fails if one of them is missing and another one is up to date.
* `SetsApart` — what sets a target apart from another one of its group: it is out of date by itself
  and the other one is not, or it needs something stale that the other one does not need.
* `siblings_agree_unless` — nothing else does, and all that needs a target that must be built must
  be built too.
-/

import BuildSystem.Proofs.Plan.Staleness
import BuildSystem.Recipe

namespace BuildSystem

open Plan

/-- **Of the targets that one run of a recipe makes all must be built, or none.** -/
def SiblingsAgree (plan : Plan) : Prop :=
  ∀ one ∈ plan.graph.nodes, ∀ two ∈ plan.graph.nodes, ∀ group,
    Recipe.group? one = some group → Recipe.group? two = some group →
      (plan.assessment one.name).mustBuild = (plan.assessment two.name).mustBuild

/-- **What sets a target that must be built apart from one that need not be.** -/
inductive SetsApart (seen : Observation) (forceAll : Bool) (plan : Plan) (one two : Node) : Prop
  /-- It is out of date by itself. -/
  | itself (outOfDate : OutOfDate seen forceAll plan.graph one)
      (current : ¬ OutOfDate seen forceAll plan.graph two)
  /-- It needs something that must be built and that the other one does not need. -/
  | prereq (name : String) (needed : name ∈ one.prereqs) (foreign : name ∉ two.prereqs)
      (stale : (plan.assessment name).mustBuild = true)

/-- The targets of a group all must be built, or none, unless something sets two of them apart; and
everything that needs a target that must be built must be built too. -/
structure AgreeUnlessApart (seen : Observation) (forceAll : Bool) (plan : Plan) : Prop where
  siblings : ∀ one ∈ plan.graph.nodes, ∀ two ∈ plan.graph.nodes, ∀ group,
    Recipe.group? one = some group → Recipe.group? two = some group →
      (plan.assessment one.name).mustBuild = (plan.assessment two.name).mustBuild ∨
        SetsApart seen forceAll plan one two ∨ SetsApart seen forceAll plan two one
  dependents : ∀ node ∈ plan.graph.nodes, ∀ prereq ∈ node.prereqs,
    (plan.assessment prereq).mustBuild = true → (plan.assessment node.name).mustBuild = true

section Siblings

variable {seen : Observation} {forceAll : Bool} {plan : Plan} {rules : RuleSet}
  {available : String → Bool} {targets : List String} {graph : Graph}

/-- A target of a group is made by a rule. -/
theorem ruled_of_group (built : (Graph.build rules available targets).1 = .ok graph) {node : Node}
    (member : node ∈ graph.nodes) {group : Recipe.Group}
    (grouped : Recipe.group? node = some group) : node.isSource = false := by
  have ofOrigin : node.origin ≠ .source → node.isSource = false := fun made => by
    unfold Node.isSource
    exact decide_eq_false made
  cases build_justified built node member with
  | source origin unruled there prereqs recipe =>
    unfold Recipe.group? at grouped
    rw [recipe] at grouped
    cases grouped
  | explicit origin => exact ofOrigin (by simp [origin])
  | pattern index rule found origin => exact ofOrigin (by simp [origin])

/-- What must be built is set apart from what is made by a rule and need not be. -/
theorem Exact.setsApart
    (exact : Exact seen forceAll plan.graph plan.graph.nodes plan.assessments)
    {one two : Node} (oneMember : one ∈ plan.graph.nodes)
    (twoMember : two ∈ plan.graph.nodes) (ruled : two.isSource = false)
    (stale : (plan.assessment one.name).mustBuild = true)
    (fresh : (plan.assessment two.name).mustBuild ≠ true) :
    SetsApart seen forceAll plan one two := by
  have apart : ¬ (OutOfDate seen forceAll plan.graph two ∨
      ∃ prereq, plan.graph.Needs two prereq ∧ (plan.assessment prereq.name).mustBuild = true) :=
    fun why => fresh ((exact.stale two twoMember).mpr ⟨ruled, why⟩)
  rw [not_or] at apart
  obtain ⟨current, settled⟩ := apart
  rcases ((exact.stale one oneMember).mp stale).2 with outOfDate | ⟨prereq, needs, preStale⟩
  · exact .itself outOfDate current
  · exact .prereq prereq.name needs.2 (fun shared => settled ⟨prereq, ⟨needs.1, shared⟩, preStale⟩)
      preStale

/-- **In what is known exactly, siblings agree unless something sets them apart.** -/
theorem Exact.agreeUnlessApart
    (built : (Graph.build rules available targets).1 = .ok plan.graph)
    (exact : Exact seen forceAll plan.graph plan.graph.nodes plan.assessments) :
    AgreeUnlessApart seen forceAll plan where
  siblings := by
    intro one oneMember two twoMember group oneGroup twoGroup
    by_cases oneStale : (plan.assessment one.name).mustBuild = true
    · by_cases twoStale : (plan.assessment two.name).mustBuild = true
      · exact Or.inl (oneStale.trans twoStale.symm)
      · exact Or.inr (Or.inl (exact.setsApart oneMember twoMember
          (ruled_of_group built twoMember twoGroup) oneStale twoStale))
    · by_cases twoStale : (plan.assessment two.name).mustBuild = true
      · exact Or.inr (Or.inr (exact.setsApart twoMember oneMember
          (ruled_of_group built oneMember oneGroup) twoStale oneStale))
      · exact Or.inl (by rw [Bool.eq_false_iff.mpr oneStale, Bool.eq_false_iff.mpr twoStale])
  dependents := by
    intro node member prereq needed stale
    obtain ⟨other, needs, rfl⟩ := (build_arranged built).exists_needs member needed
    refine (exact.stale node member).mpr ⟨?_, Or.inr ⟨other, needs, stale⟩⟩
    refine Bool.eq_false_iff.mpr fun source => ?_
    rw [(build_source built node member source).1] at needed
    cases needed

/-- **The targets that one run of a recipe makes all must be built, or none, unless one of them is
out of date by itself or needs something stale, and another one is not and does not**; and
everything that needs a target that must be built must be built too, if no file may wait.  Whether
a target is out of date is said by the times and the answers that the host shows while the plan is
made; only the command of a comparator can prevent the plan. -/
theorem siblings_agree_unless {σ : Type} {host : Host σ} {console : Console}
    {options : PlanOptions} {usual : σ → Prop} {state : σ}
    (built : (Graph.build rules available targets).1 = .ok graph)
    (watched : Watched host options.shell graph usual) (start : usual state)
    (strict : options.ignoreMissing = false) :
    Ends (fun plan _ => plan.graph = graph ∧
        ∃ seen, Shown host options.shell usual graph.nodes seen ∧
          AgreeUnlessApart seen options.forceAll plan)
      (ComparatorRaises host options.shell graph usual)
      (evaluate host console options graph state) := by
  refine (watched.ends_evaluate (build_arranged built) start).imp ?_
  rintro _ _ ⟨-, seen, shown, rfl⟩
  have exact := exact_assessments seen (build_arranged built)
    (fun node member source => (build_source built node member source).2) strict
  exact ⟨rfl, seen, shown, Exact.agreeUnlessApart built exact⟩

end Siblings

/-! ### A parser and a program -/

/-- One run of a recipe makes both files of a parser, and a program needs one of them. -/
def headerRules : RuleSet where
  rules := [
    .explicit {
      prereqs := ["gram.y"]
      recipe := some "yacc"
      attributes := {}
      comparator := none
      location := ⟨"mkfile", 1⟩
      targets := ["gram.c", "gram.h"] },
    .explicit {
      prereqs := ["gram.h"]
      recipe := some "cc"
      attributes := {}
      comparator := none
      location := ⟨"mkfile", 4⟩
      targets := ["prog"] }]
  values := []

/-- The node of one of the files of the parser. -/
def headerNode (name : String) : Node where
  name := name
  prereqs := ["gram.y"]
  recipe := some "yacc"
  allTargets := ["gram.c", "gram.h"]
  location := some ⟨"mkfile", 1⟩
  origin := .explicit

/-- The graph of the parser and the program. -/
def headerGraph : Graph where
  nodes := [
    { name := "gram.y", origin := .source },
    headerNode "gram.c",
    headerNode "gram.h",
    { name := "prog"
      prereqs := ["gram.h"]
      recipe := some "cc"
      allTargets := ["prog"]
      location := some ⟨"mkfile", 4⟩
      origin := .explicit }]
  roots := ["gram.c", "prog"]

/-- Of all files only one of the parser is missing, and the others are up to date. -/
def headerWorld : World where
  files := [
    ("gram.y", { time := 1 }),
    ("gram.h", { time := 2 }),
    ("prog", { time := 3 })]

/-- The missing file must be built, and nothing else. -/
def headerPlan : Plan where
  graph := headerGraph
  assessments := [
    ("gram.y", { time := some 1 }),
    ("gram.c", { mustBuild := true, reasons := [.missing], newer := ["gram.y"] }),
    ("gram.h", { time := some 2 }),
    ("prog", { time := some 3 })]

theorem build_headerRules : (Graph.build headerRules (fun name =>
    World.host.fileExists name headerWorld) ["gram.c", "prog"]).1 = .ok headerPlan.graph := by
  rfl

/-- **Siblings do not always agree**: the run that makes the missing file makes the other one anew,
and the program that needs it is left alone. -/
theorem not_siblingsAgree :
    (Graph.build headerRules (fun name => World.host.fileExists name headerWorld)
      ["gram.c", "prog"]).1 = .ok headerPlan.graph ∧
    evaluate World.host {} {} headerPlan.graph headerWorld = .ok headerPlan headerWorld ∧
    ¬ SiblingsAgree headerPlan ∧ (headerPlan.assessment "prog").mustBuild = false := by
  refine ⟨build_headerRules, rfl, fun agree => ?_, rfl⟩
  have same := agree (headerNode "gram.c") (by decide) (headerNode "gram.h") (by decide)
    ⟨some ⟨"mkfile", 1⟩, ["gram.c", "gram.h"]⟩ rfl rfl
  cases same

/-- The files of the parser are as they were; something may have been printed. -/
def HeaderKept (world : World) : Prop :=
  ∃ printed, world = { headerWorld with printed }

/-- Without comparators only printing could change the world. -/
theorem watched_headerGraph :
    Watched World.host ({} : PlanOptions).shell headerGraph HeaderKept where
  printing := by
    rintro _ ⟨printed, rfl⟩ piece
    exact ⟨printed ++ [piece], rfl⟩
  asking := by
    intro node member comparator compares
    have uncompared : ∀ node ∈ headerGraph.nodes, node.comparator = none := by decide
    rw [uncompared node member] at compares
    cases compares

theorem siblings_agree_unless_header :
    (Graph.build headerRules (fun name => World.host.fileExists name headerWorld)
      ["gram.c", "prog"]).1 = .ok headerGraph ∧
    Ends (fun plan _ => plan.graph = headerGraph ∧
        ∃ seen, Shown World.host ["sh"] HeaderKept headerGraph.nodes seen ∧
          AgreeUnlessApart seen false plan)
      (ComparatorRaises World.host ["sh"] headerGraph HeaderKept)
      (evaluate World.host {} {} headerGraph headerWorld) := by
  have start : HeaderKept headerWorld := ⟨[], rfl⟩
  have strict : ({} : PlanOptions).ignoreMissing = false := rfl
  exact ⟨build_headerRules,
    siblings_agree_unless build_headerRules watched_headerGraph start strict⟩

end BuildSystem
