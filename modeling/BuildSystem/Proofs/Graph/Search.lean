/-
**What a search for nodes leaves behind.**

A search tries candidates, gives some of them up, and keeps the nodes that it has completed on the
way.  Whatever it tries, every node that it keeps is made from the rules for its own name alone.

* `Made` — the nodes that rules and files make of names.
* `Search.Sound` — the nodes of a search are arranged, and all of them are made so.
* `Advances` — what a search for names does: it adds nodes at the end, none for a name that is being
  resolved, and stays sound.
* `resolve_careful` — the search for one name advances, and a name that it has made has a node.
* `resolveRoots_sound` — so does the search for a request.
* `build_resolved` — a graph that is built comes from such a search.
* `build_arranged`, `build_made` — the nodes of a graph that is built are arranged and made so.
* `build_roots`, `build_needed` — what was asked for has nodes, and nothing else but what it leads
  to.
-/

import BuildSystem.Proofs.Graph.Arrangement

namespace BuildSystem

/-- All explicit rules of a name taken together; a name without rules has the empty rule. -/
def RuleSet.merged (rules : RuleSet) (name : String) : MergedRule :=
  .ofRules (rules.rulesFor name)

/-- The nodes that rules and files make of names. -/
inductive Made (rules : RuleSet) (available : String → Bool) : Node → Prop
  /-- A file without rules. -/
  | source {name : String} : rules.rulesFor name = [] → available name = true →
      Made rules available { name := name, origin := .source }
  /-- The explicit rules of a name. -/
  | explicit {name : String} {first : ExplicitRule} {others : List ExplicitRule} :
      rules.rulesFor name = first :: others →
      Made rules available ((rules.merged name).node name first)
  /-- A rule for targets of a common form, with what the explicit rules of the name add to it. -/
  | pattern {name : String} {candidate : Candidate} : (rules.merged name).mayBorrow = true →
      candidate ∈ candidates rules.patterns name [] →
      Made rules available
        (candidate.node name (rules.merged name).prereqs (rules.merged name).attributes)

/-- A file without rules needs nothing and has no attributes. -/
theorem Made.of_isSource {rules : RuleSet} {available : String → Bool} {node : Node}
    (made : Made rules available node) (source : node.isSource = true) :
    node.prereqs = [] ∧ node.attributes = {} := by
  cases made with
  | source => exact ⟨rfl, rfl⟩
  | explicit => cases source
  | pattern => cases source

/-- Rules in use on the way are left out and nothing else changes. -/
theorem mem_candidates_of_skip {patterns : List PatternRule} {name : String} {skip : List Nat}
    {candidate : Candidate} (member : candidate ∈ candidates patterns name skip) :
    candidate ∈ candidates patterns name [] := by
  unfold candidates at member ⊢
  rw [List.mem_filterMap] at member ⊢
  obtain ⟨⟨rule, index⟩, place, found⟩ := member
  refine ⟨(rule, index), place, ?_⟩
  dsimp only at found ⊢
  split at found
  · next usable =>
    rw [Bool.and_eq_true] at usable
    simpa [usable.1] using found
  · cases found

/-! ### Sound searches -/

variable {rules : RuleSet} {available : String → Bool}

/-- **The nodes are arranged, and every one is made from the rules for its name.** -/
structure Search.Sound (rules : RuleSet) (available : String → Bool) (search : Search) : Prop where
  arranged : Arranged search.nodes
  made : ∀ node ∈ search.nodes, Made rules available node

theorem Search.Sound.empty : Search.Sound rules available {} where
  arranged := Arranged.nil
  made := fun node member => by cases member

theorem Search.knows_iff {search : Search} {name : String} :
    search.knows name = true ↔ name ∈ nodeNames search.nodes := by
  simp [Search.knows, mem_nodeNames]

/-- A new node that is made and whose prerequisites have nodes keeps a search sound. -/
theorem Search.Sound.add {search : Search} (sound : search.Sound rules available) {node : Node}
    (made : Made rules available node) (fresh : node.name ∉ nodeNames search.nodes)
    (known : ∀ prereq ∈ node.prereqs, prereq ∈ nodeNames search.nodes) :
    (search.add node).Sound rules available where
  arranged := sound.arranged.append fresh known
  made := by
    intro other member
    rcases List.mem_append.mp member with old | new
    · exact sound.made other old
    · exact List.mem_singleton.mp new ▸ made

/-- **What a search does while the names of a stack are being resolved.** -/
structure Advances (rules : RuleSet) (available : String → Bool) (stack : List String)
    (before after : Search) : Prop where
  sound : before.Sound rules available → after.Sound rules available
  grows : before.nodes <+: after.nodes
  fresh : ∀ node ∈ after.nodes, node.name ∈ stack → node ∈ before.nodes

namespace Advances

variable {stack : List String} {first second third : Search}

/-- Decisions, failures and their traces change no nodes. -/
theorem of_nodes_eq (same : second.nodes = first.nodes) :
    Advances rules available stack first second where
  sound := fun sound => ⟨same ▸ sound.arranged, same ▸ sound.made⟩
  grows := same ▸ List.prefix_rfl
  fresh := fun _ member _ => same ▸ member

theorem trans (one : Advances rules available stack first second)
    (two : Advances rules available stack second third) :
    Advances rules available stack first third where
  sound := two.sound ∘ one.sound
  grows := one.grows.trans two.grows
  fresh := fun node member onStack => one.fresh node (two.fresh node member onStack) onStack

theorem keeps (advances : Advances rules available stack first second) {name : String}
    (known : name ∈ nodeNames first.nodes) : name ∈ nodeNames second.nodes :=
  (advances.grows.map _).subset known

/-- With fewer names on the stack less is forbidden. -/
theorem of_append {more : List String}
    (advances : Advances rules available (stack ++ more) first second) :
    Advances rules available stack first second where
  sound := advances.sound
  grows := advances.grows
  fresh := fun node member onStack =>
    advances.fresh node member (List.mem_append_left more onStack)

end Advances

/-- A search for single names that advances and tells the truth about what it has made. -/
def Resolver.Careful (rules : RuleSet) (available : String → Bool) (stack : List String)
    (resolver : Resolver) : Prop :=
  ∀ name search, Advances rules available stack search (resolver name search).2 ∧
    ((resolver name search).1 = .made → name ∈ nodeNames (resolver name search).2.nodes)

section Parts

variable {stack : List String}

/-! ### Lists of names -/

/-- Names in order: if all are made, all have nodes. -/
theorem resolveAll_advances {resolver : Resolver} (careful : resolver.Careful rules available stack)
    (names : List String) (search : Search) :
    Advances rules available stack search (resolveAll resolver names search).2 ∧
      ((resolveAll resolver names search).1 = .made →
        ∀ name ∈ names, name ∈ nodeNames (resolveAll resolver names search).2.nodes) := by
  induction names generalizing search with
  | nil => exact ⟨.of_nodes_eq rfl, fun _ name member => by cases member⟩
  | cons name rest ih =>
    obtain ⟨advances, known⟩ := careful name search
    unfold resolveAll
    rcases result : resolver name search with ⟨outcome, after⟩
    rw [result] at advances known
    cases outcome with
    | made =>
      obtain ⟨further, allKnown⟩ := ih after
      refine ⟨advances.trans further, fun made other member => ?_⟩
      rcases List.mem_cons.mp member with rfl | later
      · exact further.keeps (known rfl)
      · exact allKnown made other later
    | unmade => exact ⟨advances, fun made => by cases made⟩
    | cycle names => exact ⟨advances, fun made => by cases made⟩

/-! ### Attempts at one name -/

/-- What an attempt at a name gives: a node that is made, of that name, whose prerequisites have
nodes. -/
structure Attempt.Careful (rules : RuleSet) (available : String → Bool) (stack : List String)
    (name : String) (before : Search) (result : Attempt × Search) : Prop where
  advances : Advances rules available stack before result.2
  made : ∀ node, result.1 = .node node → node.name = name ∧ Made rules available node ∧
    ∀ prereq ∈ node.prereqs, prereq ∈ nodeNames result.2.nodes

/-- Candidates in order: the prerequisites of the one that is chosen have nodes. -/
theorem tryCandidates_careful {resolver : Nat → Resolver}
    (careful : ∀ index, (resolver index).Careful rules available stack) {name : String}
    {found : List Candidate} (borrows : (rules.merged name).mayBorrow = true)
    (fits : ∀ candidate ∈ found, candidate ∈ candidates rules.patterns name [])
    (search : Search) :
    Attempt.Careful rules available stack name search
      (tryCandidates resolver name (rules.merged name).prereqs (rules.merged name).attributes found
        search) := by
  induction found generalizing search with
  | nil => exact ⟨.of_nodes_eq rfl, fun node none => by cases none⟩
  | cons candidate rest ih =>
    unfold tryCandidates
    dsimp only
    generalize noted : search.note _ = start
    have begun : Advances rules available stack search start := .of_nodes_eq (noted ▸ rfl)
    obtain ⟨advances, known⟩ := resolveAll_advances (careful candidate.index)
      (candidate.prereqs (rules.merged name).prereqs) start
    rcases result : resolveAll (resolver candidate.index)
      (candidate.prereqs (rules.merged name).prereqs) start with ⟨outcome, after⟩
    rw [result] at advances known
    cases outcome with
    | made =>
      refine ⟨begun.trans (advances.trans (.of_nodes_eq rfl)), fun node chosen => ?_⟩
      obtain rfl := Attempt.node.inj chosen
      exact ⟨rfl, .pattern borrows (fits candidate List.mem_cons_self), known rfl⟩
    | unmade =>
      -- The rejected candidate leaves nodes behind, but the next one is tried all the same.
      have remaining := ih (fun other member => fits other (List.mem_cons_of_mem _ member))
        (after.note (.rejected name candidate.rule.target))
      have rejected : Advances rules available stack after
        (after.note (.rejected name candidate.rule.target)) := .of_nodes_eq rfl
      exact ⟨begun.trans (advances.trans (rejected.trans remaining.advances)), remaining.made⟩
    | cycle names => exact ⟨begun.trans advances, fun node none => by cases none⟩

theorem applyExplicit_careful {resolver : Resolver}
    (careful : resolver.Careful rules available stack) {name : String} {first : ExplicitRule}
    {others : List ExplicitRule} (ruled : rules.rulesFor name = first :: others)
    (search : Search) :
    Attempt.Careful rules available stack name search
      (applyExplicit resolver name first (rules.merged name) search) := by
  obtain ⟨advances, known⟩ := resolveAll_advances careful (rules.merged name).prereqs search
  unfold applyExplicit
  rcases result : resolveAll resolver (rules.merged name).prereqs search with ⟨outcome, after⟩
  rw [result] at advances known
  cases outcome with
  | made =>
    refine ⟨advances.trans (.of_nodes_eq rfl), fun node applied => ?_⟩
    obtain rfl := Attempt.node.inj applied
    exact ⟨rfl, .explicit ruled, known rfl⟩
  | unmade => exact ⟨advances, fun node none => by cases none⟩
  | cycle names => exact ⟨advances, fun node none => by cases none⟩

theorem attemptExplicit_careful {resolver : List Nat → Resolver}
    (careful : ∀ chain, (resolver chain).Careful rules available stack) (chain : List Nat)
    {name : String} {first : ExplicitRule} {others : List ExplicitRule}
    (ruled : rules.rulesFor name = first :: others) (search : Search) :
    Attempt.Careful rules available stack name search
      (attemptExplicit rules resolver chain name first (rules.merged name) search) := by
  unfold attemptExplicit
  split
  · next borrows =>
    have tried := tryCandidates_careful (fun index => careful (chain ++ [index])) borrows
      (fun candidate => @mem_candidates_of_skip rules.patterns name chain candidate) search
    dsimp only
    rcases result : tryCandidates (fun index => resolver (chain ++ [index])) name
      (rules.merged name).prereqs (rules.merged name).attributes
      (candidates rules.patterns name chain) search with ⟨attempt, after⟩
    rw [result] at tried
    cases attempt with
    | node node => exact tried
    | missing =>
      have applied := applyExplicit_careful (careful chain) ruled after
      exact ⟨tried.advances.trans applied.advances, applied.made⟩
    | cycle names => exact tried
  · exact applyExplicit_careful (careful chain) ruled search

theorem attemptImplicit_careful {resolver : List Nat → Resolver}
    (careful : ∀ chain, (resolver chain).Careful rules available stack) (chain : List Nat)
    {name : String} (unruled : rules.rulesFor name = []) (search : Search) :
    Attempt.Careful rules available stack name search
      (attemptImplicit rules available resolver chain name search) := by
  have empty : rules.merged name = .ofRules [] := by rw [RuleSet.merged, unruled]
  have borrows : (rules.merged name).mayBorrow = true := by
    rw [empty]
    rfl
  have tried := tryCandidates_careful (fun index => careful (chain ++ [index])) borrows
    (fun candidate => @mem_candidates_of_skip rules.patterns name chain candidate) search
  rw [show (rules.merged name).prereqs = [] by rw [empty]; rfl,
    show (rules.merged name).attributes = {} by rw [empty]; rfl] at tried
  unfold attemptImplicit
  dsimp only
  rcases result : tryCandidates (fun index => resolver (chain ++ [index])) name [] {}
    (candidates rules.patterns name chain) search with ⟨attempt, after⟩
  rw [result] at tried
  cases attempt with
  | node node => exact tried
  | cycle names => exact tried
  | missing =>
    dsimp only
    split
    · next there =>
      refine ⟨tried.advances.trans (.of_nodes_eq rfl), fun node found => ?_⟩
      obtain rfl := Attempt.node.inj found
      exact ⟨rfl, .source unruled there, fun prereq needed => by cases needed⟩
    · exact ⟨tried.advances, fun node none => by cases none⟩

theorem attemptName_careful {resolver : List Nat → Resolver}
    (careful : ∀ chain, (resolver chain).Careful rules available stack) (chain : List Nat)
    (name : String) (search : Search) :
    Attempt.Careful rules available stack name search
      (attemptName rules available resolver chain name search) := by
  unfold attemptName
  split
  · next unruled => exact attemptImplicit_careful careful chain unruled search
  · next first others ruled =>
    have explicit := attemptExplicit_careful careful chain ruled search
    rwa [RuleSet.merged, ruled] at explicit

end Parts

/-! ### The whole search -/

/-- A name that is being resolved has no node before, and gets none from a deeper search.  So the
node that is recorded in the end is its only one. -/
theorem conclude_careful {stack : List String} {name : String} {before : Search}
    {result : Attempt × Search}
    (careful : Attempt.Careful rules available (stack ++ [name]) name before result)
    (unknown : name ∉ nodeNames before.nodes) (unstacked : name ∉ stack) :
    Advances rules available stack before (conclude stack name result).2 ∧
      ((conclude stack name result).1 = .made →
        name ∈ nodeNames (conclude stack name result).2.nodes) := by
  obtain ⟨attempt, after⟩ := result
  cases attempt with
  | node node =>
    obtain ⟨named, made, known⟩ := careful.made node rfl
    have fresh : node.name ∉ nodeNames after.nodes := by
      rw [named]
      intro member
      obtain ⟨other, otherMember, otherNamed⟩ := mem_nodeNames.mp member
      have onStack : other.name ∈ stack ++ [name] := by
        rw [otherNamed]
        exact List.mem_append_right _ (List.mem_singleton_self name)
      exact unknown (mem_nodeNames.mpr
        ⟨other, careful.advances.fresh other otherMember onStack, otherNamed⟩)
    refine ⟨⟨fun sound => (careful.advances.sound sound).add made fresh known,
      careful.advances.grows.trans (List.prefix_append _ _), fun other member onStack => ?_⟩,
      fun _ => mem_nodeNames.mpr
        ⟨node, List.mem_append_right _ (List.mem_singleton_self _), named⟩⟩
    rcases List.mem_append.mp member with old | new
    · exact careful.advances.fresh other old (List.mem_append_left _ onStack)
    · rw [List.mem_singleton.mp new, named] at onStack
      exact absurd onStack unstacked
  | cycle names => exact ⟨careful.advances.of_append, fun made => by cases made⟩
  | missing =>
    unfold conclude
    dsimp only
    split
    · exact ⟨careful.advances.of_append, fun made => by cases made⟩
    · exact ⟨careful.advances.of_append.trans (.of_nodes_eq rfl), fun made => by cases made⟩

/-- **The search for one name is careful**, however deep it may go. -/
theorem resolve_careful (rules : RuleSet) (available : String → Bool) (depth : Nat)
    (stack : List String) (chain : List Nat) :
    (resolve rules available depth stack chain).Careful rules available stack := by
  induction depth generalizing stack chain with
  | zero => exact fun name search => ⟨.of_nodes_eq rfl, fun made => by cases made⟩
  | succ depth ih =>
    intro name search
    unfold resolve
    split
    · next known => exact ⟨.of_nodes_eq rfl, fun _ => Search.knows_iff.mp known⟩
    · next unknown =>
      split
      · dsimp only
        split
        · exact ⟨.of_nodes_eq rfl, fun made => by cases made⟩
        · exact ⟨.of_nodes_eq rfl, fun made => by cases made⟩
      · next unstacked =>
        have begun : Advances rules available stack search { search with failure := none } :=
          .of_nodes_eq rfl
        obtain ⟨advances, known⟩ := conclude_careful
          (attemptName_careful (ih (stack ++ [name])) chain name { search with failure := none })
          (mt Search.knows_iff.mpr unknown) (mt List.contains_iff_mem.mpr unstacked)
        exact ⟨begun.trans advances, known⟩

/-- **The search for a request is sound, and if it succeeds every requested name has a node.** -/
theorem resolveRoots_sound {roots : List String} {search after : Search}
    (sound : search.Sound rules available)
    (resolved : resolveRoots rules available roots search = (.ok (), after)) :
    after.Sound rules available ∧ (∀ name ∈ nodeNames search.nodes, name ∈ nodeNames after.nodes) ∧
      ∀ root ∈ roots, root ∈ nodeNames after.nodes := by
  induction roots generalizing search with
  | nil =>
    obtain ⟨-, rfl⟩ := Prod.mk.inj resolved
    exact ⟨sound, fun _ known => known, fun root member => by cases member⟩
  | cons root rest ih =>
    unfold resolveRoots at resolved
    dsimp only at resolved
    obtain ⟨advances, known⟩ := resolve_careful rules available (resolutionDepth rules) [] [] root
      { search with failure := none }
    rcases result : resolve rules available (resolutionDepth rules) [] [] root
      { search with failure := none } with ⟨outcome, middle⟩
    rw [result] at advances known resolved
    cases outcome with
    | made =>
      obtain ⟨finalSound, kept, restKnown⟩ :=
        ih (advances.sound ⟨sound.arranged, sound.made⟩) resolved
      refine ⟨finalSound, fun name old => kept name (advances.keeps old), fun name member => ?_⟩
      rcases List.mem_cons.mp member with rfl | later
      · exact kept name (known rfl)
      · exact restKnown name later
    | unmade => cases resolved
    | cycle names => cases resolved

/-! ### The graph of a request -/

theorem Node.markIntermediate_eq (rules : RuleSet) (roots : List String) (node : Node) :
    ∃ flag, node.markIntermediate rules roots = { node with intermediate := flag } := by
  unfold Node.markIntermediate
  split
  · exact ⟨_, rfl⟩
  · exact ⟨node.intermediate, rfl⟩

/-- **A graph that is built comes from a search** for what was asked for, or else for the default
target: it holds the marked nodes that its roots lead to. -/
theorem build_resolved {targets : List String} {graph : Graph}
    (built : (Graph.build rules available targets).1 = .ok graph) :
    ∃ search, resolveRoots rules available graph.roots {} = (.ok (), search) ∧
      graph.roots = (if targets.isEmpty then rules.defaultTargets else targets) ∧
      graph.nodes =
        (reachableNodes graph.roots search.nodes).map (·.markIntermediate rules graph.roots) ∧
      (Graph.build rules available targets).2 =
        search.trace ++ [.complete graph.nodes.length graph.roots] := by
  unfold Graph.build at built ⊢
  dsimp only at built ⊢
  generalize (if targets.isEmpty then rules.defaultTargets else targets) = roots at built ⊢
  split at built
  · cases built
  · next asked =>
    rw [if_neg asked]
    rcases resolved : resolveRoots rules available roots {} with ⟨outcome, search⟩
    rw [resolved] at built
    cases outcome with
    | error error => cases built
    | ok =>
      obtain rfl := Except.ok.inj built
      exact ⟨search, resolved, rfl, rfl, rfl⟩

/-- The search is sound, and has nodes for all roots. -/
theorem build_cases {targets : List String} {graph : Graph}
    (built : (Graph.build rules available targets).1 = .ok graph) :
    ∃ search : Search, search.Sound rules available ∧
      (∀ root ∈ graph.roots, root ∈ nodeNames search.nodes) ∧
      graph.nodes =
        (reachableNodes graph.roots search.nodes).map (·.markIntermediate rules graph.roots) := by
  obtain ⟨search, resolved, -, nodes, -⟩ := build_resolved built
  obtain ⟨sound, -, known⟩ := resolveRoots_sound Search.Sound.empty resolved
  exact ⟨search, sound, known, nodes⟩

@[simp] theorem Node.name_markIntermediate (rules : RuleSet) (roots : List String) (node : Node) :
    (node.markIntermediate rules roots).name = node.name := by
  obtain ⟨flag, marked⟩ := node.markIntermediate_eq rules roots
  rw [marked]

@[simp] theorem Node.prereqs_markIntermediate (rules : RuleSet) (roots : List String)
    (node : Node) : (node.markIntermediate rules roots).prereqs = node.prereqs := by
  obtain ⟨flag, marked⟩ := node.markIntermediate_eq rules roots
  rw [marked]

/-- **A graph that is built is arranged.** -/
theorem build_arranged {targets : List String} {graph : Graph}
    (built : (Graph.build rules available targets).1 = .ok graph) : Arranged graph.nodes := by
  obtain ⟨search, sound, -, nodes⟩ := build_cases built
  rw [nodes]
  exact (arranged_reachableNodes sound.arranged _).map (fun node => by simp) fun node => by simp

/-- **Everything that was asked for has a node.** -/
theorem build_roots {targets : List String} {graph : Graph}
    (built : (Graph.build rules available targets).1 = .ok graph) :
    ∀ root ∈ graph.roots, ∃ node ∈ graph.nodes, node.name = root := by
  obtain ⟨search, -, known, nodes⟩ := build_cases built
  intro root asked
  obtain ⟨found, kept, named⟩ :=
    mem_nodeNames.mp (mem_nodeNames_reachableNodes asked (known root asked))
  rw [nodes]
  exact ⟨_, List.mem_map_of_mem kept, by simpa using named⟩

/-- **Every node was asked for or is needed by another one.** -/
theorem build_needed {targets : List String} {graph : Graph}
    (built : (Graph.build rules available targets).1 = .ok graph) :
    ∀ node ∈ graph.nodes, node.name ∈ graph.roots ∨
      ∃ other ∈ graph.nodes, node.name ∈ other.prereqs := by
  obtain ⟨search, -, -, nodes⟩ := build_cases built
  rw [nodes]
  intro node member
  obtain ⟨found, kept, rfl⟩ := List.mem_map.mp member
  rw [Node.name_markIntermediate]
  rcases reachableNodes_needed kept with asked | ⟨other, otherKept, needs⟩
  · exact Or.inl asked
  · exact Or.inr ⟨_, List.mem_map_of_mem otherKept, by simpa using needs⟩

/-- **Up to their marks, the nodes of a graph are made from the rules for their names.** -/
theorem build_made {targets : List String} {graph : Graph}
    (built : (Graph.build rules available targets).1 = .ok graph) :
    ∀ node ∈ graph.nodes, ∃ made flag, Made rules available made ∧
      node = { made with intermediate := flag } := by
  obtain ⟨search, sound, -, nodes⟩ := build_cases built
  intro node member
  rw [nodes] at member
  obtain ⟨made, kept, rfl⟩ := List.mem_map.mp member
  obtain ⟨flag, marked⟩ := made.markIntermediate_eq rules graph.roots
  exact ⟨made, flag, sound.made made ((reachableNodes_sublist _ _).subset kept), marked⟩

/-- **The sources of a graph need nothing and have no attributes.** -/
theorem build_source {targets : List String} {graph : Graph}
    (built : (Graph.build rules available targets).1 = .ok graph) :
    ∀ node ∈ graph.nodes, node.isSource = true → node.prereqs = [] ∧ node.attributes = {} := by
  intro node member source
  obtain ⟨made, flag, isMade, rfl⟩ := build_made built node member
  exact isMade.of_isSource source

end BuildSystem
