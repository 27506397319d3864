/-
**The order of requests.**

A name is looked for once; whatever needs it later takes the node that is there.  What is left out
on the way to a name — the names that are being resolved, and the rules in use — is not the same on
every way, so that it may matter for which name the search comes to it first.

* `Asked` — the ways on which names are asked for.
* `FirstChoice`, `build_firstChoice` — a node is made by the first rule that serves its name on such
  a way.
* `Graph.derivable` — the nodes of a graph in which no rule feeds itself can be made on every way
  that keeps clear of them.
* `Graph.Displaced` — a name that may be made by another rule when another order is asked for: an
  earlier rule makes it in one graph, and leads there back into the way on which the other search
  asks for it.
* `build_perm` — another order has a graph too, and all other names have the same node in both.
* `not_answeredAlike` — names of which each can be made from the other one are displaced.
-/

import BuildSystem.Proofs.Graph.Feeding

namespace BuildSystem

open Relation (ReflTransGen TransGen)

/-! ### Ways on which names are asked for -/

/-- **A name is asked for**, while some names are being resolved and the rules at some places are in
use: it is requested, or another name that is asked for calls it. -/
inductive Asked (rules : RuleSet) (roots : List String) : List String → List Nat → String → Prop
  | root {name : String} : name ∈ roots → Asked rules roots [] [] name
  | call {stack : List String} {chain inner : List Nat} {name prereq : String} :
      Asked rules roots stack chain name → name ∉ stack → Calls rules chain name inner prereq →
      Asked rules roots (stack ++ [name]) inner prereq

/-- A rule for targets of a common form is tried before that which a node is made by. -/
def Origin.After (index : Nat) : Origin → Prop
  | .pattern place => index < place
  | _ => True

section Search

variable {rules : RuleSet} {available : String → Bool} {roots : List String}

/-! ### First choices -/

/-- **A node is made by the first rule that serves its name** on a way on which the name is asked
for: no candidate before it has prerequisites that can all be made there. -/
def FirstChoice (rules : RuleSet) (available : String → Bool) (roots : List String)
    (node : Node) : Prop :=
  ∃ stack chain, Asked rules roots stack chain node.name ∧ node.name ∉ stack ∧
    ((rules.merged node.name).mayBorrow = true →
      ∀ candidate ∈ candidates rules.patterns node.name chain, node.origin.After candidate.index →
        ∃ prereq ∈ candidate.prereqs (rules.merged node.name).prereqs,
          ¬ Derivable rules available prereq (insert node.name {other | other ∈ stack})
            (insert candidate.index {index | index ∈ chain}))

/-- A candidate that is passed over has a prerequisite that cannot be made. -/
theorem PassedOver.not_derivable {depth : Nat} {stack : List String} {chain : List Nat}
    {name : String} {candidate : Candidate}
    (member : candidate ∈ candidates rules.patterns name chain)
    (enough : room rules stack chain ≤ depth) {extra : List String}
    (passed : PassedOver (fun index =>
      resolve rules available depth (stack ++ [name]) (chain ++ [index])) extra candidate) :
    ∃ prereq ∈ candidate.prereqs extra,
      ¬ Derivable rules available prereq (insert name {other | other ∈ stack})
        (insert candidate.index {index | index ∈ chain}) := by
  obtain ⟨prereq, needed, unmade⟩ := passed
  obtain ⟨declared, -, unused, -⟩ := of_mem_candidates member
  have less := room_pattern (List.getElem?_eq_some_iff.mp declared).1 unused stack name
  refine ⟨prereq, needed, fun derivable => unmade ?_⟩
  exact resolve_made derivable (mem_insert_of_mem_append fun _ onPath => onPath)
    (mem_insert_of_mem_append fun _ inUse => inUse) (by omega)

/-- Whatever an attempt gives is a first choice. -/
theorem firstChoice_of_attempt {depth : Nat} {stack : List String} {chain : List Nat}
    {search after : Search} {node : Node}
    (asked : Asked rules roots stack chain node.name) (fresh : node.name ∉ stack)
    (enough : room rules stack chain ≤ depth)
    (attempted : attemptName rules available (resolve rules available depth (stack ++ [node.name]))
      chain node.name search = (.node node, after)) :
    FirstChoice rules available roots node := by
  refine ⟨stack, chain, asked, fresh, fun borrows candidate member later => ?_⟩
  refine PassedOver.not_derivable member enough ?_
  rcases attemptName_node attempted with borrowed | ⟨middle, missing, -⟩
  · unfold attemptBorrowed at borrowed
    rw [if_pos borrows] at borrowed
    have chosen := @tryCandidates_node (fun _ => True) (fun _ _ => trivial) _ _ _
      (fun _ _ _ _ _ _ => trivial) _ _ _ _ _ trivial borrowed
    generalize named : node.name = name at *
    cases chosen with
    | @intro before rest made _ _ place passed =>
      -- The candidates stand in the order of their rules, so an earlier rule stands before.
      have ordered := pairwise_candidates rules.patterns name chain
      rw [place] at member ordered
      have earlier : candidate.index < made.index := later
      rcases List.mem_append.mp member with early | late
      · exact passed candidate early
      · rcases List.mem_cons.mp late with rfl | behind
        · exact absurd earlier (Nat.lt_irrefl _)
        · have after := (List.pairwise_cons.mp (List.pairwise_append.mp ordered).2.1).1 _ behind
          exact absurd earlier (Nat.lt_asymm after)
  · unfold attemptBorrowed at missing
    rw [if_pos borrows] at missing
    exact tryCandidates_missing missing candidate member

/-- **All nodes of a search are first choices.** -/
theorem firstChoice_keeping (rules : RuleSet) (available : String → Bool) (roots : List String) :
    Keeping rules available (Asked rules roots) fun search =>
      ∀ node ∈ search.nodes, FirstChoice rules available roots node where
  noted := fun _ held => held
  failing := fun _ held => held
  called := .call
  added := by
    intro depth stack chain name search after node asked fresh enough _ _ attempted held other
      member
    obtain rfl : node.name = name := ((attemptName_careful
      (resolve_careful rules available depth (stack ++ [name])) chain name search).made node
        (congrArg Prod.fst attempted)).1
    rcases List.mem_append.mp member with old | new
    · exact held other old
    · obtain rfl := List.mem_singleton.mp new
      exact firstChoice_of_attempt asked fresh enough attempted

variable {targets : List String} {graph : Graph}

/-- **A node of a graph is made by the first rule that serves its name** on a way on which the name
is asked for. -/
theorem build_firstChoice (built : (Graph.build rules available targets).1 = .ok graph) :
    ∀ node ∈ graph.nodes, FirstChoice rules available graph.roots node := by
  obtain ⟨search, resolved, -, nodes, -⟩ := build_resolved built
  have chosen : ∀ node ∈ (resolveRoots rules available graph.roots {}).2.nodes,
      FirstChoice rules available graph.roots node :=
    (firstChoice_keeping rules available graph.roots).resolveRoots (fun _ asked => .root asked)
      (fun node member => by cases member)
  rw [resolved] at chosen
  intro node member
  rw [nodes] at member
  obtain ⟨made, kept, rfl⟩ := List.mem_map.mp member
  obtain ⟨flag, marked⟩ := made.markIntermediate_eq rules graph.roots
  rw [marked]
  exact chosen made ((reachableNodes_sublist _ _).subset kept)

/-! ### Clear ways -/

/-- **A way keeps clear of what a name leads to**: no name below it is being resolved, and no rule
that makes a node below it is in use. -/
structure Graph.Clear (graph : Graph) (name : String) (path : Set String) (used : Set Nat) :
    Prop where
  path : ∀ lower, ReflTransGen graph.Leads name lower → lower ∉ path
  used : ∀ lower ∈ graph.nodes, ReflTransGen graph.Leads name lower.name →
    ∀ index, lower.origin = .pattern index → index ∉ used

/-- Below a node, a way stays clear when the node is entered. -/
theorem Graph.Clear.below (arranged : Arranged graph.nodes) {node : Node}
    (member : node ∈ graph.nodes)
    {path : Set String} {used : Set Nat} (clear : graph.Clear node.name path used)
    {prereq : String} (needed : prereq ∈ node.prereqs) :
    graph.Clear prereq (insert node.name path) used := by
  have edge : graph.Leads node.name prereq := ⟨node, member, rfl, needed⟩
  refine ⟨fun lower leads onPath => ?_, fun lower lowerMember leads => ?_⟩
  · rcases Set.mem_insert_iff.mp onPath with rfl | onPath
    · exact arranged.acyclic _ (.head' edge leads)
    · exact clear.path lower (.head edge leads) onPath
  · exact clear.used lower lowerMember (.head edge leads)

/-- It also stays clear when the rule that makes the node is in use, if no rule feeds itself. -/
theorem Graph.Clear.using (never : graph.NeverFeedsItself) {node : Node}
    (member : node ∈ graph.nodes) {index : Nat} (origin : node.origin = .pattern index)
    {path : Set String} {used : Set Nat} {prereq : String} (needed : prereq ∈ node.prereqs)
    (clear : graph.Clear prereq path used) : graph.Clear prereq path (insert index used) := by
  have edge : graph.Leads node.name prereq := ⟨node, member, rfl, needed⟩
  refine ⟨clear.path, fun lower lowerMember leads place made inUse => ?_⟩
  rcases Set.mem_insert_iff.mp inUse with rfl | inUse
  · exact never node member lower lowerMember (.head' edge leads) _ origin made
  · exact clear.used lower lowerMember leads place made inUse

/-- A node that a rule for targets of a common form makes is that of a candidate. -/
theorem build_candidate (built : (Graph.build rules available targets).1 = .ok graph) {node : Node}
    (member : node ∈ graph.nodes) {index : Nat} (origin : node.origin = .pattern index) :
    ∃ candidate ∈ candidates rules.patterns node.name [], candidate.index = index ∧
      (rules.merged node.name).mayBorrow = true ∧
      node.prereqs = candidate.prereqs (rules.merged node.name).prereqs := by
  obtain ⟨made, flag, isMade, rfl⟩ := build_made built node member
  cases isMade with
  | source => cases origin
  | explicit => cases origin
  | @pattern name candidate borrows listed =>
    exact ⟨candidate, listed, Origin.pattern.inj origin, borrows, rfl⟩

/-- **The nodes of a graph in which no rule feeds itself can be made on every clear way.** -/
theorem Graph.derivable (built : (Graph.build rules available targets).1 = .ok graph)
    (never : graph.NeverFeedsItself) : ∀ node ∈ graph.nodes, ∀ path used,
      graph.Clear node.name path used → Derivable rules available node.name path used := by
  have arranged := build_arranged built
  refine arranged.rec_on fun node member ih path used clear => ?_
  have fresh : node.name ∉ path := clear.path _ .refl
  have below : ∀ prereq ∈ node.prereqs, ∀ used,
      graph.Clear prereq (insert node.name path) used →
        Derivable rules available prereq (insert node.name path) used := by
    intro prereq needed used clear
    obtain ⟨other, ⟨otherMember, -⟩, rfl⟩ := arranged.exists_needs member needed
    exact ih other otherMember needed _ _ clear
  cases build_justified built node member with
  | source _ unruled there => exact .source fresh unruled there
  | explicit _ ruled prereqs =>
    refine .explicit fresh ruled fun own ownMember prereq needed => ?_
    have listed : prereq ∈ node.prereqs := prereqs ▸
      List.mem_eraseDups.mpr (List.mem_flatMap.mpr ⟨own, ownMember, needed⟩)
    exact below prereq listed used (clear.below arranged member listed)
  | pattern index _ _ origin =>
    obtain ⟨candidate, listed, rfl, borrows, prereqs⟩ := build_candidate built member origin
    obtain ⟨declared, usable, -, fits⟩ := of_mem_candidates listed
    have inUse : ∀ prereq, prereq ∈ (rules.merged node.name).prereqs ∨
        prereq ∈ candidate.found.prereqs →
          Derivable rules available prereq (insert node.name path)
            (insert candidate.index used) := by
      intro prereq either
      have needed : prereq ∈ node.prereqs := prereqs ▸ mem_candidate_prereqs.mpr either
      exact below prereq needed _
        ((clear.below arranged member needed).using never member origin needed)
    exact .pattern fresh (clear.used node member .refl candidate.index origin) declared
      (Bool.or_eq_true _ _ ▸ usable) fits (MergedRule.of_mayBorrow borrows)
      (fun own ownMember prereq needed =>
        inUse prereq (Or.inl (mem_merged_prereqs.mpr ⟨own, ownMember, needed⟩)))
      fun prereq needed => inUse prereq (Or.inr needed)

/-! ### Two graphs -/

/-- **A rule makes a name in one graph and was out of reach in the other one**, where the name is
made by something that is tried later: in the first graph the name leads back into a way on which
the second search asks for it. -/
def Graph.Prefers (rules : RuleSet) (graph other : Graph) (name : String) : Prop :=
  ∃ node ∈ graph.nodes, ∃ second ∈ other.nodes, node.name = name ∧ second.name = name ∧
    ∃ index, node.origin = .pattern index ∧ second.origin.After index ∧
      ∃ stack chain, Asked rules other.roots stack chain name ∧ name ∉ stack ∧
        ∃ lower ∈ graph.nodes, ReflTransGen graph.Leads name lower.name ∧
          (lower.name ∈ stack ∨ ∃ used ∈ chain, lower.origin = .pattern used)

/-- **A name that is displaced**: one of two graphs prefers an earlier rule for it. -/
def Graph.Displaced (rules : RuleSet) (graph other : Graph) (name : String) : Prop :=
  graph.Prefers rules other name ∨ other.Prefers rules graph name

/-- **Two graphs agree except for some names**: every other name that both have has the same node in
them, and what only one of them has is needed there for such a name. -/
structure Graph.AgreesExcept (displaced : String → Prop) (graph other : Graph) : Prop where
  same : ∀ node ∈ graph.nodes, ∀ second ∈ other.nodes, node.name = second.name →
    displaced node.name ∨ node = second
  known : ∀ name ∈ nodeNames graph.nodes, name ∈ nodeNames other.nodes ∨
    ∃ cause, displaced cause ∧ TransGen graph.Leads cause name
  knownThere : ∀ name ∈ nodeNames other.nodes, name ∈ nodeNames graph.nodes ∨
    ∃ cause, displaced cause ∧ TransGen other.Leads cause name

/-- The place of its rule determines a candidate. -/
theorem candidate_eq_of_index {patterns : List PatternRule} {name : String} {skip : List Nat}
    {first second : Candidate} (member : first ∈ candidates patterns name skip)
    (secondMember : second ∈ candidates patterns name skip) (same : first.index = second.index) :
    first = second := by
  obtain ⟨declared, -, -, fits⟩ := of_mem_candidates member
  obtain ⟨declaredToo, -, -, fitsToo⟩ := of_mem_candidates secondMember
  obtain ⟨index, rule, found⟩ := first
  obtain ⟨place, other, instanceThere⟩ := second
  obtain rfl : index = place := same
  obtain rfl : rule = other := Option.some.inj (declared.symm.trans declaredToo)
  obtain rfl : found = instanceThere := Option.some.inj (fits.symm.trans fitsToo)
  rfl

/-- A name is made in the same way, or one of the two ways is tried before the other one. -/
theorem Made.eq_or_after {first second : Node} (one : Made rules available first)
    (two : Made rules available second) (named : first.name = second.name) :
    first = second ∨ (∃ index, first.origin = .pattern index ∧ second.origin.After index) ∨
      ∃ index, second.origin = .pattern index ∧ first.origin.After index := by
  cases one with
  | source unruled =>
    cases two with
    | source =>
      obtain rfl : _ = _ := named
      exact Or.inl rfl
    | explicit ruled =>
      obtain rfl : _ = _ := named
      cases unruled.symm.trans ruled
    | @pattern _ candidate => exact Or.inr (Or.inr ⟨candidate.index, rfl, trivial⟩)
  | explicit ruled =>
    cases two with
    | source unruled =>
      obtain rfl : _ = _ := named
      cases unruled.symm.trans ruled
    | explicit other =>
      obtain rfl : _ = _ := named
      obtain ⟨rfl, -⟩ := List.cons.inj (ruled.symm.trans other)
      exact Or.inl rfl
    | @pattern _ candidate => exact Or.inr (Or.inr ⟨candidate.index, rfl, trivial⟩)
  | @pattern name candidate _ member =>
    cases two with
    | source => exact Or.inr (Or.inl ⟨candidate.index, rfl, trivial⟩)
    | explicit => exact Or.inr (Or.inl ⟨candidate.index, rfl, trivial⟩)
    | @pattern _ other _ otherMember =>
      obtain rfl : _ = _ := named
      rcases Nat.lt_trichotomy candidate.index other.index with less | same | greater
      · exact Or.inr (Or.inl ⟨candidate.index, rfl, less⟩)
      · rw [candidate_eq_of_index member otherMember same]
        exact Or.inl rfl
      · exact Or.inr (Or.inr ⟨other.index, rfl, greater⟩)

/-- **If another way is tried before that which makes a name, it is out of reach.** -/
theorem Graph.prefers {others : List String} {other : Graph}
    (built : (Graph.build rules available targets).1 = .ok graph)
    (builtThere : (Graph.build rules available others).1 = .ok other)
    (never : graph.NeverFeedsItself) {node second : Node} (member : node ∈ graph.nodes)
    (secondMember : second ∈ other.nodes) (named : node.name = second.name) {index : Nat}
    (origin : node.origin = .pattern index) (after : second.origin.After index) :
    graph.Prefers rules other node.name := by
  obtain ⟨stack, chain, asked, fresh, hopeless⟩ := build_firstChoice builtThere second secondMember
  rw [← named] at asked fresh hopeless
  refine ⟨node, member, second, secondMember, rfl, named.symm, index, origin, after, stack, chain,
    asked, fresh, ?_⟩
  by_cases inUse : index ∈ chain
  · exact ⟨node, member, .refl, Or.inr ⟨index, inUse, origin⟩⟩
  · obtain ⟨candidate, listed, rfl, borrows, prereqs⟩ := build_candidate built member origin
    obtain ⟨declared, usable, -, fits⟩ := of_mem_candidates listed
    obtain ⟨prereq, needed, unmade⟩ :=
      hopeless borrows candidate (mem_candidates declared usable inUse fits) after
    rw [← prereqs] at needed
    -- The node of the prerequisite could be made there if the way kept clear of it.
    by_contra clear
    push Not at clear
    have arranged := build_arranged built
    have free : graph.Clear node.name {other | other ∈ stack} {index | index ∈ chain} := by
      refine ⟨fun lower leads onStack => ?_,
        fun lower lowerMember leads place made placeInUse => ?_⟩
      · obtain ⟨found, foundMember, rfl⟩ := mem_nodeNames.mp
          (arranged.known_of_leads leads (mem_nodeNames.mpr ⟨node, member, rfl⟩))
        exact (clear found foundMember leads).1 onStack
      · exact (clear lower lowerMember leads).2 place placeInUse made
    obtain ⟨lower, ⟨lowerMember, -⟩, rfl⟩ := arranged.exists_needs member needed
    exact unmade (Graph.derivable built never lower lowerMember _ _
      ((free.below arranged member needed).using never member origin needed))

/-- The mark of a node depends on what is asked for, and not on its order. -/
theorem Node.markIntermediate_congr {roots others : List String}
    (same : ∀ name, name ∈ roots ↔ name ∈ others) (node : Node) :
    node.markIntermediate rules roots = node.markIntermediate rules others := by
  have contained : roots.contains node.name = others.contains node.name := by
    rw [Bool.eq_iff_iff, List.contains_iff_mem, List.contains_iff_mem]
    exact same node.name
  unfold Node.markIntermediate
  split
  · rw [contained]
  · rfl

/-- The nodes of a graph are made, and then marked. -/
theorem build_marked (built : (Graph.build rules available targets).1 = .ok graph) :
    ∀ node ∈ graph.nodes, ∃ made, Made rules available made ∧
      node = made.markIntermediate rules graph.roots := by
  obtain ⟨search, sound, -, nodes⟩ := build_cases built
  intro node member
  rw [nodes] at member
  obtain ⟨made, kept, rfl⟩ := List.mem_map.mp member
  exact ⟨made, sound.made made ((reachableNodes_sublist _ _).subset kept), rfl⟩

section Agreement

variable {others : List String} {other : Graph}
  (built : (Graph.build rules available targets).1 = .ok graph)
  (builtThere : (Graph.build rules available others).1 = .ok other)
  (sameRoots : ∀ name, name ∈ graph.roots ↔ name ∈ other.roots)

include built builtThere sameRoots

/-- A name that is not displaced has the same node in both graphs. -/
theorem build_same (never : graph.NeverFeedsItself) (neverThere : other.NeverFeedsItself)
    {node second : Node} (member : node ∈ graph.nodes) (secondMember : second ∈ other.nodes)
    (named : node.name = second.name) :
    Graph.Displaced rules graph other node.name ∨ node = second := by
  obtain ⟨made, isMade, marked⟩ := build_marked built node member
  obtain ⟨madeThere, isMadeThere, markedThere⟩ := build_marked builtThere second secondMember
  have origin : node.origin = made.origin := marked ▸ made.origin_markIntermediate rules _
  have originThere : second.origin = madeThere.origin :=
    markedThere ▸ madeThere.origin_markIntermediate rules _
  have madeNamed : made.name = madeThere.name := by
    rw [marked, markedThere] at named
    simpa only [Node.name_markIntermediate] using named
  rcases isMade.eq_or_after isMadeThere madeNamed with
    rfl | ⟨index, first, after⟩ | ⟨index, first, after⟩
  · right
    rw [marked, markedThere, made.markIntermediate_congr sameRoots]
  · exact Or.inl (Or.inl (Graph.prefers built builtThere never member secondMember named
      (origin.trans first) (originThere ▸ after)))
  · rw [named]
    exact Or.inl (Or.inr (Graph.prefers builtThere built neverThere secondMember member named.symm
      (originThere.trans first) (origin ▸ after)))

/-- A name that only one graph has is needed there for one that is displaced. -/
theorem build_known (never : graph.NeverFeedsItself) (neverThere : other.NeverFeedsItself) :
    ∀ name ∈ nodeNames graph.nodes, name ∈ nodeNames other.nodes ∨
      ∃ cause, Graph.Displaced rules graph other cause ∧ TransGen graph.Leads cause name := by
  intro name known
  obtain ⟨root, asked, leads⟩ := (build_reached built name).mp known
  induction leads with
  | refl =>
    exact Or.inl (mem_nodeNames.mpr (build_roots builtThere root ((sameRoots root).mp asked)))
  | tail above edge ih =>
    obtain ⟨node, member, rfl, needed⟩ := edge
    rcases ih (mem_nodeNames.mpr ⟨node, member, rfl⟩) with both | ⟨cause, displaced, down⟩
    · obtain ⟨second, secondMember, named⟩ := mem_nodeNames.mp both
      rcases build_same built builtThere sameRoots never neverThere member secondMember named.symm
        with displaced | rfl
      · exact Or.inr ⟨node.name, displaced, .single ⟨node, member, rfl, needed⟩⟩
      · exact Or.inl (mem_nodeNames.mpr ((build_arranged builtThere).closed secondMember needed))
    · exact Or.inr ⟨cause, displaced, down.tail ⟨node, member, rfl, needed⟩⟩

end Agreement

/-- The roots of two graphs are the same names if the requests are the same in another order. -/
theorem build_sameRoots {first second : List String} (perm : first.Perm second) {other : Graph}
    (built : (Graph.build rules available first).1 = .ok graph)
    (builtThere : (Graph.build rules available second).1 = .ok other) (name : String) :
    name ∈ graph.roots ↔ name ∈ other.roots := by
  have empty : first.isEmpty = second.isEmpty := by
    rw [Bool.eq_iff_iff, List.isEmpty_iff_length_eq_zero, List.isEmpty_iff_length_eq_zero,
      perm.length_eq]
  rw [build_requested built, build_requested builtThere, empty]
  split
  · exact Iff.rfl
  · exact perm.mem_iff

/-- **Another order of the same requests has a graph too, and all names that are not displaced have
the same node in both**: if no rule feeds itself in the graph of one order, there is a graph for the
other one, and if no rule feeds itself there either, the two graphs agree except for names that are
displaced. -/
theorem build_perm {first second : List String} (perm : first.Perm second)
    (built : (Graph.build rules available first).1 = .ok graph) (never : graph.NeverFeedsItself) :
    ∃ other, (Graph.build rules available second).1 = .ok other ∧
      (other.NeverFeedsItself →
        Graph.AgreesExcept (Graph.Displaced rules graph other) graph other) := by
  obtain ⟨other, builtThere⟩ : ∃ other, (Graph.build rules available second).1 = .ok other := by
    by_cases asked : second = []
    · subst asked
      obtain rfl := perm.eq_nil
      exact ⟨graph, built⟩
    · have requested := build_requested built
      rw [if_neg (by rw [List.isEmpty_iff]; exact fun none => asked (none ▸ perm).nil_eq.symm)]
        at requested
      have derivable : ∀ root ∈ second, Derivable rules available root ∅ ∅ := by
        intro root member
        obtain ⟨node, nodeMember, rfl⟩ := build_roots built root
          (requested ▸ perm.mem_iff.mpr member)
        exact Graph.derivable built never node nodeMember ∅ ∅
          ⟨fun _ _ onPath => onPath, fun _ _ _ _ _ inUse => inUse⟩
      obtain ⟨after, resolved⟩ := resolveRoots_made derivable {}
      exact ⟨_, build_eq_ok asked resolved⟩
  have sameRoots := build_sameRoots perm built builtThere
  refine ⟨other, builtThere, fun neverThere => ⟨?_, ?_, ?_⟩⟩
  · exact fun node member second secondMember named =>
      build_same built builtThere sameRoots never neverThere member secondMember named
  · exact build_known built builtThere sameRoots never neverThere
  · intro name known
    have back := build_known builtThere built (fun name => (sameRoots name).symm) neverThere never
    exact (back name known).imp_right fun ⟨cause, displaced, leads⟩ =>
      ⟨cause, displaced.symm, leads⟩

end Search

/-! ### Two programs in either order -/

/-- The graph of both programs when they are asked for in the other order. -/
def reversedGraph : Graph where
  nodes := parserGraph.nodes.take 2 ++ [parserNode "print" 3, parserNode "check" 1]
  roots := ["print", "check"]

theorem build_reversedGraph :
    (Graph.build parserRules (· = "parser.y") ["print", "check"]).1 = .ok reversedGraph := by
  rfl

/-- Of the nodes of both programs only one is made by a rule for targets of a common form. -/
theorem madeOnce_parserNodes : ∀ node ∈ parserGraph.nodes, ∀ index,
    node.origin = .pattern index → node.name = "parser.c" := by
  intro node member index origin
  simp only [parserGraph, List.mem_cons, List.not_mem_nil, or_false] at member
  rcases member with rfl | rfl | rfl | rfl
  · cases origin
  · rfl
  · cases origin
  · cases origin

theorem neverFeedsItself_parserGraph : parserGraph.NeverFeedsItself :=
  Graph.neverFeedsItself_of_madeOnce build_parserRules fun _ first _ second index one two =>
    (madeOnce_parserNodes _ first index one).trans (madeOnce_parserNodes _ second index two).symm

theorem neverFeedsItself_reversedGraph : reversedGraph.NeverFeedsItself := by
  have among : reversedGraph.nodes ⊆ parserGraph.nodes := by decide
  refine Graph.neverFeedsItself_of_madeOnce build_reversedGraph
    fun _ first _ second index one two => ?_
  rw [madeOnce_parserNodes _ (among first) index one, madeOnce_parserNodes _ (among second) index two]

/-- The two programs may be asked for in either order. -/
theorem build_perm_parserRules :
    (["check", "print"] : List String).Perm ["print", "check"] ∧
      (Graph.build parserRules (· = "parser.y") ["check", "print"]).1 = .ok parserGraph ∧
      parserGraph.NeverFeedsItself ∧
      (Graph.build parserRules (· = "parser.y") ["print", "check"]).1 = .ok reversedGraph ∧
      reversedGraph.NeverFeedsItself ∧
      Graph.AgreesExcept (Graph.Displaced parserRules parserGraph reversedGraph) parserGraph
        reversedGraph := by
  have perm : (["check", "print"] : List String).Perm ["print", "check"] := .swap _ _ _
  obtain ⟨other, builtThere, agrees⟩ :=
    build_perm perm build_parserRules neverFeedsItself_parserGraph
  obtain rfl := Except.ok.inj (builtThere.symm.trans build_reversedGraph)
  exact ⟨perm, build_parserRules, neverFeedsItself_parserGraph, builtThere,
    neverFeedsItself_reversedGraph, agrees neverFeedsItself_reversedGraph⟩

/-! ### Names that are made from each other -/

/-- **Two requests are answered alike**: both fail, or both have graphs with the same names, recipes
and prerequisites. -/
def AnsweredAlike (first second : Except BuildError Graph) : Prop :=
  match first, second with
  | .ok graph, .ok other => ∀ name,
      (graph.node? name).map (fun node => (node.recipe, node.prereqs)) =
        (other.node? name).map fun node => (node.recipe, node.prereqs)
  | .error _, .error _ => True
  | _, _ => False

/-- A rule that makes files with one ending from files with another one. -/
def convertRule (source target recipe : String) (line : Nat) : Rule :=
  .pattern (.stem {
    prereqs := ["%" ++ source]
    recipe := some recipe
    attributes := {}
    comparator := none
    location := ⟨"mkfile", line⟩
    target := "%" ++ target
    start := ""
    finish := target
    marker := '%'
    allowEmptyStem := false
    allTargets := ["%" ++ target] })

/-- Pages are rendered from texts, and texts are extracted from pages. -/
def exchangeRules : RuleSet where
  rules := [convertRule ".md" ".html" "render" 1, convertRule ".html" ".md" "extract" 4]
  values := []

/-- **The order of requests may matter**: of a page and its text the one that is asked for first is
made from the other one. -/
theorem not_answeredAlike : ¬ ∀ rules available (first second : List String), first.Perm second →
    AnsweredAlike (Graph.build rules available first).1 (Graph.build rules available second).1 := by
  intro alike
  have pages := alike exchangeRules (fun name => ["page.md", "page.html"].contains name)
    ["page.html", "page.md"] ["page.md", "page.html"] (.swap _ _ _)
  have recipes := pages "page.html"
  revert recipes
  decide

end BuildSystem
