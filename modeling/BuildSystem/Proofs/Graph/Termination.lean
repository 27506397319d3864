/-
**Every search comes to an end.**

The search for a name is carried out with a bound on its depth.  Here it is described without one,
and the description has exactly one result for every request: the bound is never noticed, also if
rules for targets of a common form lead to longer and longer names.

* `Calls` — the names that are resolved while a name is looked for.
* `Resolves`, `ResolvesRoots`, `Builds` — the search as a relation that knows no depth; every path
  that it enters is `within` a condition.
* `Calls.room_lt` — what a name calls has less room than the name itself: a name with explicit rules
  is used up, or a rule for targets of a common form.
* `resolve_resolves` — so the bounded search is described by the relation, and on the way no name
  occurs twice and no path is longer than the rules allow.
* `Resolves.eq_resolve` — and the relation describes nothing else.
* `build_terminates` — the same for requests.
-/

import BuildSystem.Proofs.Graph.Completeness

namespace BuildSystem

/-- **While a name is looked for, another one is resolved**, where the places of the rules in use are
those on the way to the name, and then those on the way to the other one. -/
inductive Calls (rules : RuleSet) (chain : List Nat) (name : String) : List Nat → String → Prop
  /-- The explicit rules of the name need it. -/
  | explicit {prereq : String} : rules.rulesFor name ≠ [] →
      prereq ∈ (rules.merged name).prereqs → Calls rules chain name chain prereq
  /-- A rule for targets of a common form that the name may borrow from needs it; the rule is then
  in use. -/
  | pattern {candidate : Candidate} {prereq : String} : (rules.merged name).mayBorrow = true →
      candidate ∈ candidates rules.patterns name chain →
      prereq ∈ candidate.prereqs (rules.merged name).prereqs →
      Calls rules chain name (chain ++ [candidate.index]) prereq

/-- **The search for one name, without a bound on its depth.**  A path is entered only if it is
`within` a condition. -/
inductive Resolves (rules : RuleSet) (available : String → Bool) (within : List String → Prop) :
    List String → List Nat → String → Search → Outcome × Search → Prop
  /-- The name has a node. -/
  | known {stack : List String} {chain : List Nat} {name : String} {search : Search} :
      search.knows name = true →
      Resolves rules available within stack chain name search (.made, search)
  /-- Explicit rules have led back to the name. -/
  | cycle {stack : List String} {name : String} {search : Search} :
      search.knows name = false → name ∈ stack →
      Resolves rules available within stack [] name search
        (.cycle (stack.dropWhile (· != name) ++ [name]), search)
  /-- A rule for targets of a common form has led back to the name. -/
  | rejected {stack : List String} {chain : List Nat} {name : String} {search : Search} :
      search.knows name = false → name ∈ stack → chain ≠ [] →
      Resolves rules available within stack chain name search
        (.unmade, (search.note (.cycleRejected name (stack.dropWhile (· != name) ++ [name]))).fail
          (.cycle (stack.dropWhile (· != name) ++ [name])))
  /-- The name is looked for, and everything that it calls is resolved one path further. -/
  | entered {stack : List String} {chain : List Nat} {name : String} {search : Search}
      {deeper : List Nat → Resolver} : search.knows name = false → name ∉ stack →
      within (stack ++ [name]) →
      (∀ inner prereq found, Calls rules chain name inner prereq →
        Resolves rules available within (stack ++ [name]) inner prereq found
          (deeper inner prereq found)) →
      Resolves rules available within stack chain name search
        (conclude stack name
          (attemptName rules available deeper chain name { search with failure := none }))

/-- The search for the requested names, one after the other. -/
inductive ResolvesRoots (rules : RuleSet) (available : String → Bool)
    (within : List String → Prop) :
    List String → Search → Except BuildError Unit × Search → Prop
  | done {search : Search} : ResolvesRoots rules available within [] search (.ok (), search)
  | made {name : String} {rest : List String} {search after : Search}
      {result : Except BuildError Unit × Search} :
      Resolves rules available within [] [] name { search with failure := none } (.made, after) →
      ResolvesRoots rules available within rest after result →
      ResolvesRoots rules available within (name :: rest) search result
  | unmade {name : String} {rest : List String} {search after : Search} :
      Resolves rules available within [] [] name { search with failure := none } (.unmade, after) →
      ResolvesRoots rules available within (name :: rest) search
        (.error (after.failure.getD (.noRule name none)), after)
  | cycle {name : String} {rest names : List String} {search after : Search} :
      Resolves rules available within [] [] name { search with failure := none }
        (.cycle names, after) →
      ResolvesRoots rules available within (name :: rest) search (.error (.cycle names), after)

/-- **The graph of a request, searched for without a bound on the depth.**  The roots are what is
asked for, or else the default target. -/
inductive Builds (rules : RuleSet) (available : String → Bool) (within : List String → Prop)
    (roots : List String) : Except BuildError Graph × List Decision → Prop
  | nothing : roots = [] →
      Builds rules available within roots (.error (.noRule "<default>" none), [])
  | failed {error : BuildError} {search : Search} : roots ≠ [] →
      ResolvesRoots rules available within roots {} (.error error, search) →
      Builds rules available within roots (.error error, search.trace)
  | built {search : Search} {nodes : List Node} : roots ≠ [] →
      ResolvesRoots rules available within roots {} (.ok (), search) →
      nodes = (reachableNodes roots search.nodes).map (·.markIntermediate rules roots) →
      Builds rules available within roots
        (.ok ⟨nodes, roots⟩, search.trace ++ [.complete nodes.length roots])

/-- **A path on which no name occurs twice**, with no more names than there are explicit targets and
rules for targets of a common form, and one more. -/
structure Narrow (rules : RuleSet) (stack : List String) : Prop where
  nodup : stack.Nodup
  short : stack.length ≤ rules.explicitTargets.length + rules.patterns.length + 1

/-! ### Searches that agree -/

theorem resolveAll_congr {first second : Resolver} {names : List String}
    (agree : ∀ name ∈ names, first name = second name) (search : Search) :
    resolveAll first names search = resolveAll second names search := by
  induction names generalizing search with
  | nil => rfl
  | cons name rest ih =>
    have later : ∀ search, resolveAll first rest search = resolveAll second rest search :=
      ih fun other member => agree other (List.mem_cons_of_mem name member)
    unfold resolveAll
    rw [agree name List.mem_cons_self]
    simp only [later]

theorem tryCandidates_congr {first second : Nat → Resolver} {extra : List String}
    {found : List Candidate}
    (agree : ∀ candidate ∈ found, ∀ prereq ∈ candidate.prereqs extra,
      first candidate.index prereq = second candidate.index prereq)
    (name : String) (attributes : Attributes) (search : Search) :
    tryCandidates first name extra attributes found search =
      tryCandidates second name extra attributes found search := by
  induction found generalizing search with
  | nil => rfl
  | cons candidate rest ih =>
    have later : ∀ search, tryCandidates first name extra attributes rest search =
        tryCandidates second name extra attributes rest search :=
      ih fun other member => agree other (List.mem_cons_of_mem candidate member)
    unfold tryCandidates
    dsimp only
    rw [resolveAll_congr (agree candidate List.mem_cons_self)]
    simp only [later]

section Search

variable {rules : RuleSet} {available : String → Bool} {within : List String → Prop}

/-- The search for the node of a name depends on nothing but what the name calls. -/
theorem attemptName_congr {first second : List Nat → Resolver} {chain : List Nat} {name : String}
    (agree : ∀ inner prereq, Calls rules chain name inner prereq →
      first inner prereq = second inner prereq) (search : Search) :
    attemptName rules available first chain name search =
      attemptName rules available second chain name search := by
  have tried (borrows : (rules.merged name).mayBorrow = true) : ∀ attributes search,
      tryCandidates (fun index => first (chain ++ [index])) name (rules.merged name).prereqs
        attributes (candidates rules.patterns name chain) search =
      tryCandidates (fun index => second (chain ++ [index])) name (rules.merged name).prereqs
        attributes (candidates rules.patterns name chain) search :=
    fun attributes search => tryCandidates_congr
      (fun candidate member prereq needed => agree _ prereq (.pattern borrows member needed)) name
      attributes search
  have applied (ruled : rules.rulesFor name ≠ []) : ∀ search,
      resolveAll (first chain) (rules.merged name).prereqs search =
        resolveAll (second chain) (rules.merged name).prereqs search :=
    resolveAll_congr fun prereq needed => agree chain prereq (.explicit ruled needed)
  unfold RuleSet.merged at tried applied
  unfold attemptName
  split
  · next unruled =>
    rw [unruled] at tried
    unfold attemptImplicit
    dsimp only
    rw [show tryCandidates (fun index => first (chain ++ [index])) name [] {}
      (candidates rules.patterns name chain) search = _ from tried rfl {} search]
    rfl
  · next own others ruled =>
    rw [ruled] at tried applied
    unfold attemptExplicit applyExplicit
    simp only [applied (List.cons_ne_nil own others)]
    split
    · next borrows => rw [tried borrows]
    · rfl

/-! ### Room -/

/-- **What a name calls has less room.** -/
theorem Calls.room_lt {chain inner : List Nat} {name prereq : String} {stack : List String}
    (calls : Calls rules chain name inner prereq) (fresh : name ∉ stack) :
    room rules (stack ++ [name]) inner < room rules stack chain := by
  cases calls with
  | explicit ruled => exact room_explicit ruled fresh chain
  | pattern _ member =>
    obtain ⟨declared, -, unused, -⟩ := of_mem_candidates member
    exact room_pattern (List.getElem?_eq_some_iff.mp declared).1 unused stack name

/-! ### One name -/

/-- **The bounded search is a search**: with more depth than there is room below a path it never
stops for lack of depth.  Every name on a path takes room, so that the paths are narrow. -/
theorem resolve_resolves {depth : Nat} {stack : List String} {chain : List Nat}
    (distinct : stack.Nodup)
    (short : stack.length + room rules stack chain ≤
      rules.explicitTargets.length + rules.patterns.length)
    (enough : room rules stack chain < depth) (name : String) (search : Search) :
    Resolves rules available (Narrow rules) stack chain name search
      (resolve rules available depth stack chain name search) := by
  induction depth generalizing stack chain name search with
  | zero => omega
  | succ depth ih =>
    unfold resolve
    split
    · next known => exact .known known
    · next unknown =>
      rw [Bool.not_eq_true] at unknown
      split
      · next repeated =>
        have onStack := List.contains_iff_mem.mp repeated
        dsimp only
        split
        · next explicit =>
          obtain rfl := List.isEmpty_iff.mp explicit
          exact .cycle unknown onStack
        · next inUse => exact .rejected unknown onStack (mt List.isEmpty_iff.mpr inUse)
      · next unrepeated =>
        have fresh : name ∉ stack := mt List.contains_iff_mem.mpr unrepeated
        have distinct' : (stack ++ [name]).Nodup :=
          List.nodup_append_comm.mp (List.nodup_cons.mpr ⟨fresh, distinct⟩)
        have longer : (stack ++ [name]).length = stack.length + 1 := by simp
        refine .entered unknown fresh ⟨distinct', by omega⟩ fun inner prereq found calls => ?_
        have less := calls.room_lt fresh
        exact ih distinct' (by omega) (by omega) prereq found

/-- **A search has no other result than the bounded one.** -/
theorem Resolves.eq_resolve {stack : List String} {chain : List Nat} {name : String}
    {search : Search} {result : Outcome × Search}
    (resolves : Resolves rules available within stack chain name search result) {depth : Nat}
    (enough : room rules stack chain < depth) :
    result = resolve rules available depth stack chain name search := by
  induction resolves generalizing depth with
  | known known =>
    obtain ⟨depth, rfl⟩ := Nat.exists_eq_succ_of_ne_zero (Nat.ne_zero_of_lt enough)
    simp [resolve, known]
  | cycle unknown onStack =>
    obtain ⟨depth, rfl⟩ := Nat.exists_eq_succ_of_ne_zero (Nat.ne_zero_of_lt enough)
    simp [resolve, unknown, onStack]
  | rejected unknown onStack inUse =>
    obtain ⟨depth, rfl⟩ := Nat.exists_eq_succ_of_ne_zero (Nat.ne_zero_of_lt enough)
    simp [resolve, unknown, onStack, inUse]
  | @entered stack chain name search deeper unknown fresh _ _ ih =>
    obtain ⟨depth, rfl⟩ := Nat.exists_eq_succ_of_ne_zero (Nat.ne_zero_of_lt enough)
    have agree : ∀ inner prereq, Calls rules chain name inner prereq →
        deeper inner prereq = resolve rules available depth (stack ++ [name]) inner prereq := by
      intro inner prereq calls
      have less := calls.room_lt fresh
      exact funext fun found => ih inner prereq found calls (by omega)
    simp only [resolve, unknown, fresh, List.contains_iff_mem, Bool.false_eq_true, if_false]
    rw [attemptName_congr agree]

/-! ### Requests -/

/-- There is exactly one result for a requested name. -/
theorem resolves_root_iff {name : String} {search : Search} {result : Outcome × Search} :
    Resolves rules available (Narrow rules) [] [] name search result ↔
      result = resolve rules available (resolutionDepth rules) [] [] name search := by
  have enough := room_lt_resolutionDepth rules [] []
  refine ⟨fun resolves => resolves.eq_resolve enough, ?_⟩
  rintro rfl
  refine resolve_resolves List.nodup_nil ?_ enough name search
  unfold resolutionDepth at enough
  simp only [List.length_nil]
  omega

theorem resolvesRoots_iff {roots : List String} {search : Search}
    {result : Except BuildError Unit × Search} :
    ResolvesRoots rules available (Narrow rules) roots search result ↔
      result = resolveRoots rules available roots search := by
  constructor
  · intro resolves
    induction resolves with
    | done => rfl
    | made root _ ih => rw [resolveRoots, ← resolves_root_iff.mp root, ih]
    | unmade root => rw [resolveRoots, ← resolves_root_iff.mp root]
    | cycle root => rw [resolveRoots, ← resolves_root_iff.mp root]
  · rintro rfl
    induction roots generalizing search with
    | nil => exact .done
    | cons root rest ih =>
      have resolves := resolves_root_iff.mpr
        (rfl : resolve rules available (resolutionDepth rules) [] [] root
          { search with failure := none } = _)
      unfold resolveRoots
      dsimp only
      rcases ended : resolve rules available (resolutionDepth rules) [] [] root
        { search with failure := none } with ⟨outcome, after⟩
      rw [ended] at resolves
      cases outcome with
      | made => exact .made resolves ih
      | unmade => exact .unmade resolves
      | cycle names => exact .cycle resolves

theorem builds_iff {targets : List String} {result : Except BuildError Graph × List Decision} :
    Builds rules available (Narrow rules)
      (if targets.isEmpty then rules.defaultTargets else targets) result ↔
    result = Graph.build rules available targets := by
  unfold Graph.build
  generalize (if targets.isEmpty then rules.defaultTargets else targets) = roots
  dsimp only
  constructor
  · intro builds
    cases builds with
    | nothing none => rw [if_pos (List.isEmpty_iff.mpr none)]
    | failed asked resolves =>
      rw [if_neg (mt List.isEmpty_iff.mp asked), ← resolvesRoots_iff.mp resolves]
    | built asked resolves kept =>
      rw [if_neg (mt List.isEmpty_iff.mp asked), ← resolvesRoots_iff.mp resolves, kept]
  · rintro rfl
    split
    · next none => exact .nothing (List.isEmpty_iff.mp none)
    · next asked =>
      have asked' : roots ≠ [] := mt List.isEmpty_iff.mpr asked
      have resolves := resolvesRoots_iff.mpr (rfl : resolveRoots rules available roots {} = _)
      split
      · next ended => exact .failed asked' (ended ▸ resolves)
      · next ended => exact .built asked' (ended ▸ resolves) rfl

end Search

/-- **Every request comes to an end**: without a bound on its depth the search has exactly one
result, which is that of the bounded search.  On the way no name is being resolved twice at a time,
and never more of them than there are explicit targets and rules for targets of a common form, and
one more. -/
theorem build_terminates (rules : RuleSet) (available : String → Bool) :
    (rules.explicitTargets.Nodup ∧
      ∀ name, name ∈ rules.explicitTargets ↔ rules.rulesFor name ≠ []) ∧
    ∀ (targets : List String) (result : Except BuildError Graph × List Decision),
      Builds rules available (Narrow rules)
        (if targets.isEmpty then rules.defaultTargets else targets) result ↔
      result = Graph.build rules available targets :=
  ⟨⟨nodup_explicitTargets rules, fun _ => mem_explicitTargets⟩, fun _ _ => builds_iff⟩

/-- A rule that makes every file out of one with a longer name. -/
def unpackRules : RuleSet where
  rules := [.pattern (.stem {
    prereqs := ["%.gz"]
    recipe := some "unpack"
    attributes := {}
    comparator := none
    location := ⟨"mkfile", 1⟩
    target := "%"
    start := ""
    finish := ""
    marker := '%'
    allowEmptyStem := false
    allTargets := ["%"] })]
  values := []

/-- Where every file exists the rule is used once on a path, which is as long as it may be. -/
example : (Graph.build unpackRules (fun _ => true) ["text"]).1.map (nodeNames ·.nodes) =
    .ok ["text.gz", "text"] := by
  rfl

end BuildSystem
