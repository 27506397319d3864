/-
**What can be derived is built.**

A name is derivable if rules and files account for it and for everything that it needs, where no
name occurs twice on the way to it and no rule for targets of a common form is used twice.  The
relation knows nothing of a search: not what has been tried before, nor which nodes exist already.

* `Derivable` — the relation.
* `resolve_tolerant` — once a rule for targets of a common form is in use, a cycle never ends the
  search, so the candidates that are left are all tried.
* `tryCandidates_chosen` — then no candidate behind one that can be made is chosen.
* `room`, `resolve_made` — a derivable name is made, whatever has been found before: the room that a
  path leaves bounds the depth of the search below it.
* `build_of_derivable` — a request for derivable names has a graph, and a target that a rule for
  targets of a common form can make is made by no later one.
-/

import BuildSystem.Proofs.Graph.Justification
import Mathlib.Data.Set.Insert

namespace BuildSystem

/-- **A name can be made**, given the names `path` for which it is needed and the places `used` of
the rules for targets of a common form that are in use on the way. -/
inductive Derivable (rules : RuleSet) (available : String → Bool) :
    String → Set String → Set Nat → Prop
  /-- All prerequisites that its explicit rules name can be made. -/
  | explicit {name : String} {path : Set String} {used : Set Nat} (fresh : name ∉ path)
      (ruled : rules.rulesFor name ≠ [])
      (below : ∀ own ∈ rules.rulesFor name, ∀ prereq ∈ own.prereqs,
        Derivable rules available prereq (insert name path) used) :
      Derivable rules available name path used
  /-- No explicit rule of it has a recipe or says that it is no file, and a usable rule fits it with
  prerequisites that can be made. -/
  | pattern {name : String} {path : Set String} {used : Set Nat} {index : Nat}
      {rule : PatternRule} {found : Instance} (fresh : name ∉ path) (unused : index ∉ used)
      (declared : rules.patterns[index]? = some rule)
      (usable : rule.body.recipe.isSome = true ∨ rule.body.attributes.forceUpdate = true)
      (fits : rule.instance? name = some found)
      (borrows : ∀ own ∈ rules.rulesFor name, own.recipe = none ∧ own.attributes.virtual = false)
      (extra : ∀ own ∈ rules.rulesFor name, ∀ prereq ∈ own.prereqs,
        Derivable rules available prereq (insert name path) (insert index used))
      (below : ∀ prereq ∈ found.prereqs,
        Derivable rules available prereq (insert name path) (insert index used)) :
      Derivable rules available name path used
  /-- It is a file without explicit rules. -/
  | source {name : String} {path : Set String} {used : Set Nat} (fresh : name ∉ path)
      (unruled : rules.rulesFor name = []) (there : available name = true) :
      Derivable rules available name path used

/-! ### Searches that no cycle ends -/

/-- A search for single names that no cycle ends. -/
def Resolver.Tolerant (resolver : Resolver) : Prop :=
  ∀ name search names, (resolver name search).1 ≠ .cycle names

theorem resolveAll_ne_cycle {resolver : Resolver} (tolerant : resolver.Tolerant)
    (prereqs : List String) (search : Search) (names : List String) :
    (resolveAll resolver prereqs search).1 ≠ .cycle names := by
  induction prereqs generalizing search with
  | nil => simp [resolveAll]
  | cons prereq rest ih =>
    have first := tolerant prereq search
    unfold resolveAll
    rcases result : resolver prereq search with ⟨outcome, after⟩
    rw [result] at first
    cases outcome with
    | made => exact ih after
    | unmade => simp
    | cycle other => exact absurd rfl (first other)

theorem tryCandidates_ne_cycle {resolver : Nat → Resolver}
    (tolerant : ∀ index, (resolver index).Tolerant) (name : String) (extra : List String)
    (attributes : Attributes) (found : List Candidate) (search : Search) (names : List String) :
    (tryCandidates resolver name extra attributes found search).1 ≠ .cycle names := by
  induction found generalizing search with
  | nil => simp [tryCandidates]
  | cons candidate rest ih =>
    unfold tryCandidates
    dsimp only
    generalize search.note _ = start
    have prereqs := resolveAll_ne_cycle (tolerant candidate.index) (candidate.prereqs extra) start
    rcases result : resolveAll (resolver candidate.index) (candidate.prereqs extra) start with
      ⟨outcome, after⟩
    rw [result] at prereqs
    cases outcome with
    | made => simp
    | unmade => exact ih _
    | cycle other => exact absurd rfl (prereqs other)

theorem applyExplicit_ne_cycle {resolver : Resolver} (tolerant : resolver.Tolerant)
    (name : String) (first : ExplicitRule) (merged : MergedRule) (search : Search)
    (names : List String) : (applyExplicit resolver name first merged search).1 ≠ .cycle names := by
  have prereqs := resolveAll_ne_cycle tolerant merged.prereqs search
  unfold applyExplicit
  rcases result : resolveAll resolver merged.prereqs search with ⟨outcome, after⟩
  rw [result] at prereqs
  cases outcome with
  | made => simp
  | unmade => simp
  | cycle other => exact absurd rfl (prereqs other)

section Search

variable {rules : RuleSet} {available : String → Bool}

theorem attemptName_ne_cycle {resolver : List Nat → Resolver}
    (tolerant : ∀ chain, chain ≠ [] → (resolver chain).Tolerant) {chain : List Nat}
    (inUse : chain ≠ []) (name : String) (search : Search) (names : List String) :
    (attemptName rules available resolver chain name search).1 ≠ .cycle names := by
  have longer : ∀ index, (resolver (chain ++ [index])).Tolerant := fun index =>
    tolerant _ (by simp)
  unfold attemptName
  split
  · have tried := tryCandidates_ne_cycle longer name [] {} (candidates rules.patterns name chain)
      search
    unfold attemptImplicit
    dsimp only
    rcases result : tryCandidates (fun index => resolver (chain ++ [index])) name [] {}
      (candidates rules.patterns name chain) search with ⟨attempt, after⟩
    rw [result] at tried
    cases attempt with
    | node node => simp
    | missing =>
      by_cases there : available name = true
      · simp [there]
      · simp [there]
    | cycle other => exact absurd rfl (tried other)
  · next first others ruled =>
    have applied := applyExplicit_ne_cycle (tolerant chain inUse) name first
      (.ofRules (first :: others))
    unfold attemptExplicit
    split
    · have tried := tryCandidates_ne_cycle longer name
        (MergedRule.ofRules (first :: others)).prereqs
        (MergedRule.ofRules (first :: others)).attributes (candidates rules.patterns name chain)
        search
      dsimp only
      rcases result : tryCandidates (fun index => resolver (chain ++ [index])) name
        (MergedRule.ofRules (first :: others)).prereqs
        (MergedRule.ofRules (first :: others)).attributes (candidates rules.patterns name chain)
        search with ⟨attempt, after⟩
      rw [result] at tried
      cases attempt with
      | node node => simp
      | missing => exact applied after names
      | cycle other => exact absurd rfl (tried other)
    · exact applied search names

theorem conclude_ne_cycle {result : Attempt × Search} (tried : ∀ names, result.1 ≠ .cycle names)
    (stack : List String) (name : String) (names : List String) :
    (conclude stack name result).1 ≠ .cycle names := by
  rcases result with ⟨attempt, after⟩
  cases attempt with
  | node node => simp [conclude]
  | missing => by_cases failed : after.failure.isSome = true <;> simp [conclude, failed]
  | cycle other => exact absurd rfl (tried other)

/-- **Once a rule for targets of a common form is in use, no cycle ends the search.** -/
theorem resolve_tolerant (depth : Nat) (stack : List String) {chain : List Nat}
    (inUse : chain ≠ []) : (resolve rules available depth stack chain).Tolerant := by
  induction depth generalizing stack chain with
  | zero => exact fun name search names => by simp [resolve]
  | succ depth ih =>
    intro name search names
    unfold resolve
    split
    · simp
    · split
      · simp [inUse]
      · exact conclude_ne_cycle
          (attemptName_ne_cycle (fun chain inUse => ih (stack ++ [name]) inUse) inUse name _) stack
          name names

/-! ### Names that are made -/

/-- A search makes a name, whatever has been found before. -/
def Resolver.Makes (resolver : Resolver) (name : String) : Prop :=
  ∀ search, (resolver name search).1 = .made

theorem resolveAll_made {resolver : Resolver} {names : List String}
    (makes : ∀ name ∈ names, resolver.Makes name) (search : Search) :
    ∃ after, resolveAll resolver names search = (.made, after) := by
  induction names generalizing search with
  | nil => exact ⟨search, rfl⟩
  | cons name rest ih =>
    have first := makes name List.mem_cons_self search
    unfold resolveAll
    rcases result : resolver name search with ⟨outcome, after⟩
    rw [result] at first
    obtain rfl : outcome = .made := first
    exact ih (fun other later => makes other (List.mem_cons_of_mem name later)) after

/-- **No candidate behind one that can be made is chosen**: those before it are chosen or given
up, and none of them ends the search. -/
theorem tryCandidates_chosen (resolver : Nat → Resolver)
    (tolerant : ∀ index, (resolver index).Tolerant) (name : String) {extra : List String}
    (attributes : Attributes) (before after : List Candidate) {candidate : Candidate}
    (makes : ∀ prereq ∈ candidate.prereqs extra, (resolver candidate.index).Makes prereq)
    (search : Search) :
    ∃ chosen ∈ before ++ [candidate], ∃ found,
      tryCandidates resolver name extra attributes (before ++ candidate :: after) search =
        (.node (chosen.node name extra attributes), found) := by
  induction before generalizing search with
  | nil =>
    simp only [List.nil_append]
    unfold tryCandidates
    dsimp only
    generalize search.note _ = start
    obtain ⟨made, result⟩ := resolveAll_made makes start
    rw [result]
    exact ⟨candidate, List.mem_singleton_self candidate, _, rfl⟩
  | cons earlier rest ih =>
    simp only [List.cons_append]
    unfold tryCandidates
    dsimp only
    generalize search.note _ = start
    have prereqs := resolveAll_ne_cycle (tolerant earlier.index) (earlier.prereqs extra) start
    rcases result : resolveAll (resolver earlier.index) (earlier.prereqs extra) start with
      ⟨outcome, middle⟩
    rw [result] at prereqs
    cases outcome with
    | made => exact ⟨earlier, List.mem_cons_self, _, rfl⟩
    | unmade =>
      obtain ⟨chosen, member, found, result⟩ :=
        ih (middle.note (.rejected name earlier.rule.target))
      exact ⟨chosen, List.mem_cons_of_mem earlier member, found, result⟩
    | cycle names => exact absurd rfl (prereqs names)

/-- Candidates stand in the order of their rules. -/
theorem pairwise_candidates (patterns : List PatternRule) (name : String) (skip : List Nat) :
    (candidates patterns name skip).Pairwise fun first second => first.index < second.index := by
  have places : patterns.zipIdx.Pairwise fun first second => first.2 < second.2 := by
    have increasing : (List.range' 0 patterns.length).Pairwise (· < ·) := List.pairwise_lt_range'
    rw [← List.zipIdx_map_snd, List.pairwise_map] at increasing
    exact increasing
  have index : ∀ (place : PatternRule × Nat) (candidate : Candidate),
      (if place.1.isUsable && !skip.contains place.2 then
        (place.1.instance? name).map fun found => ⟨place.2, place.1, found⟩ else none) =
          some candidate → candidate.index = place.2 := by
    intro place candidate listed
    split at listed
    · obtain ⟨found, _, rfl⟩ := Option.map_eq_some_iff.mp listed
      rfl
    · cases listed
  unfold candidates
  rw [List.pairwise_filterMap]
  refine places.imp fun {first second} earlier one oneListed two twoListed => ?_
  rw [index first one oneListed, index second two twoListed]
  exact earlier

/-- A usable rule that fits a name and is not left out is a candidate. -/
theorem mem_candidates {patterns : List PatternRule} {name : String} {skip : List Nat}
    {index : Nat} {rule : PatternRule} {found : Instance}
    (declared : patterns[index]? = some rule) (usable : rule.isUsable = true)
    (unused : index ∉ skip) (fits : rule.instance? name = some found) :
    (⟨index, rule, found⟩ : Candidate) ∈ candidates patterns name skip := by
  unfold candidates
  rw [List.mem_filterMap]
  refine ⟨(rule, index), List.mem_zipIdx_iff_getElem?.mpr declared, ?_⟩
  simp [usable, unused, fits]

/-! ### Room -/

/-- Names that are added one by one, unless they are there already. -/
theorem foldl_add_eq (names found : List String) :
    names.foldl (fun found name => if found.contains name then found else found ++ [name]) found =
      found ++ (distinct names).filter (· ∉ found) := by
  induction names generalizing found with
  | nil => simp [distinct]
  | cons name rest ih =>
    rw [List.foldl_cons, ih, distinct]
    by_cases known : name ∈ found
    · rw [if_pos (List.contains_iff_mem.mpr known),
        List.filter_cons_of_neg (by simpa using known), List.filter_filter]
      refine congrArg _ (List.filter_congr fun other _ => ?_)
      by_cases same : other = name
      · simp [same, known]
      · simp [same]
    · rw [if_neg (mt List.contains_iff_mem.mp known),
        List.filter_cons_of_pos (by simpa using known), List.filter_filter, List.append_assoc,
        List.singleton_append]
      refine congrArg _ (congrArg _ (List.filter_congr fun other _ => ?_))
      simp [not_or]

theorem explicitTargets_eq (rules : RuleSet) :
    rules.explicitTargets = distinct (rules.explicitRules.flatMap (·.targets)) := by
  unfold RuleSet.explicitTargets
  rw [← List.foldl_flatMap, foldl_add_eq]
  simp

theorem nodup_explicitTargets (rules : RuleSet) : rules.explicitTargets.Nodup :=
  explicitTargets_eq rules ▸ nodup_distinct _

theorem mem_explicitTargets {name : String} :
    name ∈ rules.explicitTargets ↔ rules.rulesFor name ≠ [] := by
  rw [explicitTargets_eq, mem_distinct, List.mem_flatMap, RuleSet.rulesFor, Ne,
    List.filter_eq_nil_iff]
  simp

/-- The room below a path: the explicit targets that are not on it, and the rules for targets of a
common form that are not in use. -/
def room (rules : RuleSet) (stack : List String) (chain : List Nat) : Nat :=
  (rules.explicitTargets.filter (· ∉ stack)).length +
    ((List.range rules.patterns.length).filter (· ∉ chain)).length

theorem length_filter_append_lt {α : Type} [DecidableEq α] {items taken : List α} {item : α}
    (member : item ∈ items) (free : item ∉ taken) :
    (items.filter (· ∉ taken ++ [item])).length < (items.filter (· ∉ taken)).length := by
  have split : items.filter (· ∉ taken ++ [item]) =
      (items.filter (· ∉ taken)).filter (· ≠ item) := by
    rw [List.filter_filter]
    refine List.filter_congr fun other _ => ?_
    simp [and_comm]
  rw [split, List.length_filter_lt_length_iff_exists]
  exact ⟨item, List.mem_filter.mpr ⟨member, by simpa using free⟩, by simp⟩

theorem length_filter_append_le {α : Type} [DecidableEq α] (items taken : List α) (item : α) :
    (items.filter (· ∉ taken ++ [item])).length ≤ (items.filter (· ∉ taken)).length := by
  refine (List.monotone_filter_right items fun other free => ?_).length_le
  have both : other ∉ taken ∧ other ≠ item := by simpa using free
  simpa using both.1

/-- Applying the explicit rules of a name takes room. -/
theorem room_explicit {name : String} {stack : List String} (ruled : rules.rulesFor name ≠ [])
    (fresh : name ∉ stack) (chain : List Nat) :
    room rules (stack ++ [name]) chain < room rules stack chain := by
  have fewer := length_filter_append_lt (mem_explicitTargets.mpr ruled) fresh
  unfold room
  omega

/-- Using a rule for targets of a common form takes room. -/
theorem room_pattern {index : Nat} {chain : List Nat} (declared : index < rules.patterns.length)
    (unused : index ∉ chain) (stack : List String) (name : String) :
    room rules (stack ++ [name]) (chain ++ [index]) < room rules stack chain := by
  have fewer := length_filter_append_lt (List.mem_range.mpr declared) unused
  have targets := length_filter_append_le rules.explicitTargets stack name
  unfold room
  omega

/-- No path leaves more room than there is depth for a search. -/
theorem room_lt_resolutionDepth (rules : RuleSet) (stack : List String) (chain : List Nat) :
    room rules stack chain < resolutionDepth rules := by
  have targets := List.length_filter_le (· ∉ stack) rules.explicitTargets
  have patterns := List.length_filter_le (· ∉ chain) (List.range rules.patterns.length)
  rw [List.length_range] at patterns
  unfold room resolutionDepth
  omega

/-! ### Derivable names -/

theorem MergedRule.mayBorrow_ofRules {own : List ExplicitRule}
    (borrows : ∀ rule ∈ own, rule.recipe = none ∧ rule.attributes.virtual = false) :
    (ofRules own).mayBorrow = true := by
  have noRecipe : (ofRules own).recipeRule = none := by
    refine List.find?_eq_none.mpr fun rule member => ?_
    simp [(borrows rule (List.mem_reverse.mp member)).1]
  have real : (ofRules own).attributes.virtual = false := by
    rw [attributes_ofRules]
    refine List.any_eq_false.mpr fun attributes member => ?_
    obtain ⟨rule, ruleMember, rfl⟩ := List.mem_map.mp member
    simp [(borrows rule ruleMember).2]
  unfold mayBorrow
  rw [noRecipe, real]
  rfl

theorem mem_merged_prereqs {name prereq : String} :
    prereq ∈ (rules.merged name).prereqs ↔
      ∃ own ∈ rules.rulesFor name, prereq ∈ own.prereqs := by
  unfold RuleSet.merged MergedRule.ofRules
  rw [mem_distinct, List.mem_flatMap]

theorem mem_candidate_prereqs {candidate : Candidate} {extra : List String} {prereq : String} :
    prereq ∈ candidate.prereqs extra ↔ prereq ∈ extra ∨ prereq ∈ candidate.found.prereqs := by
  unfold Candidate.prereqs
  rw [List.mem_append, List.mem_filter]
  by_cases own : prereq ∈ extra
  · simp [own]
  · simp [own]

/-- A candidate that is chosen makes the name, if the name may borrow a recipe. -/
theorem attemptName_eq_of_tried {resolver : List Nat → Resolver} {chain : List Nat} {name : String}
    {node : Node} {search after : Search} (borrows : (rules.merged name).mayBorrow = true)
    (tried : tryCandidates (fun index => resolver (chain ++ [index])) name
      (rules.merged name).prereqs (rules.merged name).attributes
      (candidates rules.patterns name chain) search = (.node node, after)) :
    attemptName rules available resolver chain name search = (.node node, after) := by
  unfold RuleSet.merged at borrows tried
  unfold attemptName
  split
  · next unruled =>
    rw [unruled] at tried
    unfold attemptImplicit
    dsimp only
    rw [show tryCandidates (fun index => resolver (chain ++ [index])) name [] {}
      (candidates rules.patterns name chain) search = _ from tried]
  · next first others ruled =>
    rw [ruled] at tried borrows
    unfold attemptExplicit
    rw [if_pos borrows]
    dsimp only
    rw [tried]

variable (available) in
/-- A name that a rule for targets of a common form can make is made by it or an earlier one. -/
theorem attemptName_pattern {resolver : List Nat → Resolver}
    (tolerant : ∀ chain, chain ≠ [] → (resolver chain).Tolerant) {chain : List Nat} {name : String}
    {index : Nat} {rule : PatternRule} {found : Instance}
    (declared : rules.patterns[index]? = some rule) (usable : rule.isUsable = true)
    (unused : index ∉ chain) (fits : rule.instance? name = some found)
    (borrows : ∀ own ∈ rules.rulesFor name, own.recipe = none ∧ own.attributes.virtual = false)
    (extra : ∀ own ∈ rules.rulesFor name, ∀ prereq ∈ own.prereqs,
      (resolver (chain ++ [index])).Makes prereq)
    (below : ∀ prereq ∈ found.prereqs, (resolver (chain ++ [index])).Makes prereq)
    (search : Search) :
    ∃ node after, attemptName rules available resolver chain name search = (.node node, after) ∧
      node.name = name ∧ ∃ earlier ≤ index, node.origin = .pattern earlier := by
  have listed := mem_candidates declared usable unused fits
  obtain ⟨before, others, split⟩ := List.append_of_mem listed
  have ordered := pairwise_candidates rules.patterns name chain
  rw [split, List.pairwise_append] at ordered
  have makes : ∀ prereq ∈ (⟨index, rule, found⟩ : Candidate).prereqs (rules.merged name).prereqs,
      (resolver (chain ++ [index])).Makes prereq := by
    intro prereq member
    rcases mem_candidate_prereqs.mp member with own | new
    · obtain ⟨own, ownMember, needed⟩ := mem_merged_prereqs.mp own
      exact extra own ownMember prereq needed
    · exact below prereq new
  obtain ⟨chosen, member, after, tried⟩ := tryCandidates_chosen
    (fun index => resolver (chain ++ [index])) (fun index => tolerant _ (by simp)) name
    (rules.merged name).attributes before others makes search
  have noLater : chosen.index ≤ index := by
    rcases List.mem_append.mp member with early | last
    · exact Nat.le_of_lt (ordered.2.2 chosen early _ List.mem_cons_self)
    · rw [List.mem_singleton.mp last]
  rw [← split] at tried
  exact ⟨_, after, attemptName_eq_of_tried (MergedRule.mayBorrow_ofRules borrows) tried, rfl,
    chosen.index, noLater, rfl⟩

/-- A name whose explicit rules can be applied is made, whether it borrows a recipe or not. -/
theorem attemptName_explicit {resolver : List Nat → Resolver}
    (tolerant : ∀ chain, chain ≠ [] → (resolver chain).Tolerant) {chain : List Nat} {name : String}
    (ruled : rules.rulesFor name ≠ [])
    (below : ∀ own ∈ rules.rulesFor name, ∀ prereq ∈ own.prereqs, (resolver chain).Makes prereq)
    (search : Search) :
    ∃ node after, attemptName rules available resolver chain name search = (.node node, after) := by
  have makes : ∀ prereq ∈ (rules.merged name).prereqs, (resolver chain).Makes prereq := by
    intro prereq member
    obtain ⟨own, ownMember, needed⟩ := mem_merged_prereqs.mp member
    exact below own ownMember prereq needed
  have applied : ∀ first search, ∃ node after,
      applyExplicit (resolver chain) name first (rules.merged name) search =
        (.node node, after) := by
    intro first search
    obtain ⟨after, made⟩ := resolveAll_made makes search
    unfold applyExplicit
    rw [made]
    exact ⟨_, _, rfl⟩
  unfold RuleSet.merged at applied
  unfold attemptName
  split
  · next unruled => exact absurd unruled ruled
  · next first others ruled =>
    rw [ruled] at applied
    unfold attemptExplicit
    split
    · have goesOn := tryCandidates_ne_cycle (fun index => tolerant (chain ++ [index]) (by simp))
        name (MergedRule.ofRules (first :: others)).prereqs
        (MergedRule.ofRules (first :: others)).attributes (candidates rules.patterns name chain)
        search
      dsimp only
      rcases result : tryCandidates (fun index => resolver (chain ++ [index])) name
        (MergedRule.ofRules (first :: others)).prereqs
        (MergedRule.ofRules (first :: others)).attributes (candidates rules.patterns name chain)
        search with ⟨attempt, after⟩
      rw [result] at goesOn
      cases attempt with
      | node node => exact ⟨node, after, rfl⟩
      | missing => exact applied first after
      | cycle names => exact absurd rfl (goesOn names)
    · exact applied first search

/-- A file without explicit rules is made, by a rule that fits it or as it is. -/
theorem attemptName_source {resolver : List Nat → Resolver}
    (tolerant : ∀ chain, chain ≠ [] → (resolver chain).Tolerant) {chain : List Nat} {name : String}
    (unruled : rules.rulesFor name = []) (there : available name = true) (search : Search) :
    ∃ node after, attemptName rules available resolver chain name search = (.node node, after) := by
  have goesOn := tryCandidates_ne_cycle (fun index => tolerant (chain ++ [index]) (by simp)) name []
    {} (candidates rules.patterns name chain) search
  unfold attemptName
  rw [unruled]
  unfold attemptImplicit
  dsimp only
  rcases result : tryCandidates (fun index => resolver (chain ++ [index])) name [] {}
    (candidates rules.patterns name chain) search with ⟨attempt, after⟩
  rw [result] at goesOn
  cases attempt with
  | node node => exact ⟨node, after, rfl⟩
  | missing =>
    dsimp only
    rw [if_pos there]
    exact ⟨_, _, rfl⟩
  | cycle names => exact absurd rfl (goesOn names)

/-- A name that is not on the stack is made if the attempt at it gives a node. -/
theorem resolve_made_of_attempt {depth : Nat} {stack : List String} {chain : List Nat}
    {name : String} {search : Search} (fresh : name ∉ stack)
    (attempted : ∃ node after, attemptName rules available
      (resolve rules available depth (stack ++ [name])) chain name { search with failure := none } =
        (.node node, after)) :
    (resolve rules available (depth + 1) stack chain name search).1 = .made := by
  obtain ⟨node, after, attempted⟩ := attempted
  unfold resolve
  split
  · rfl
  · rw [if_neg (mt List.contains_iff_mem.mp fresh)]
    dsimp only
    rw [attempted]
    rfl

theorem mem_insert_of_mem_append {α : Type} {items : List α} {item : α} {set : Set α}
    (within : ∀ other ∈ items, other ∈ set) :
    ∀ other ∈ items ++ [item], other ∈ insert item set := by
  intro other member
  rcases List.mem_append.mp member with old | new
  · exact Set.mem_insert_of_mem item (within other old)
  · exact Set.mem_insert_iff.mpr (Or.inl (List.mem_singleton.mp new))

/-- **A derivable name is made, whatever has been found before**, on every path that allows no less
than the derivation does and leaves no more room than there is depth. -/
theorem resolve_made {name : String} {path : Set String} {used : Set Nat}
    (derivable : Derivable rules available name path used) :
    ∀ {depth : Nat} {stack : List String} {chain : List Nat}, (∀ other ∈ stack, other ∈ path) →
      (∀ index ∈ chain, index ∈ used) → room rules stack chain < depth →
        (resolve rules available depth stack chain).Makes name := by
  have tolerant : ∀ depth stack chain, chain ≠ [] →
      (resolve rules available depth stack chain).Tolerant :=
    fun depth stack chain inUse => resolve_tolerant depth stack inUse
  -- The induction is on the derivation: the search below the name finds its prerequisites.
  induction derivable with
  | @explicit name path used fresh ruled below ih =>
    intro depth stack chain onPath inUse enough search
    have unstacked : name ∉ stack := fun member => fresh (onPath name member)
    have less := room_explicit ruled unstacked chain
    cases depth with
    | zero => omega
    | succ depth =>
      refine resolve_made_of_attempt unstacked
        (attemptName_explicit (tolerant depth (stack ++ [name])) ruled ?_ _)
      intro own ownMember prereq needed
      exact ih own ownMember prereq needed (mem_insert_of_mem_append onPath) inUse (by omega)
  | @pattern name path used index rule found fresh unused declared usable fits borrows extra below
      extraIh belowIh =>
    intro depth stack chain onPath inUse enough search
    have unstacked : name ∉ stack := fun member => fresh (onPath name member)
    have free : index ∉ chain := fun member => unused (inUse index member)
    have less := room_pattern (List.getElem?_eq_some_iff.mp declared).1 free stack name
    cases depth with
    | zero => omega
    | succ depth =>
      have usable' : rule.isUsable = true := Bool.or_eq_true _ _ ▸ usable
      obtain ⟨node, after, attempted, _⟩ := attemptName_pattern available
        (tolerant depth (stack ++ [name])) declared usable' free fits borrows
        (fun own ownMember prereq needed => extraIh own ownMember prereq needed
          (mem_insert_of_mem_append onPath) (mem_insert_of_mem_append inUse) (by omega))
        (fun prereq needed => belowIh prereq needed
          (mem_insert_of_mem_append onPath) (mem_insert_of_mem_append inUse) (by omega))
        { search with failure := none }
      exact resolve_made_of_attempt unstacked ⟨node, after, attempted⟩
  | @source name path used fresh unruled there =>
    intro depth stack chain onPath inUse enough search
    have unstacked : name ∉ stack := fun member => fresh (onPath name member)
    cases depth with
    | zero => omega
    | succ depth =>
      exact resolve_made_of_attempt unstacked
        (attemptName_source (tolerant depth (stack ++ [name])) unruled there _)

/-! ### Requests -/

theorem resolveRoots_made {roots : List String}
    (derivable : ∀ root ∈ roots, Derivable rules available root ∅ ∅) (search : Search) :
    ∃ after, resolveRoots rules available roots search = (.ok (), after) := by
  induction roots generalizing search with
  | nil => exact ⟨search, rfl⟩
  | cons root rest ih =>
    have made : (resolve rules available (resolutionDepth rules) [] []).Makes root :=
      resolve_made (derivable root List.mem_cons_self) (by simp) (by simp)
        (room_lt_resolutionDepth rules [] [])
    have first := made { search with failure := none }
    unfold resolveRoots
    dsimp only
    rcases result : resolve rules available (resolutionDepth rules) [] [] root
      { search with failure := none } with ⟨outcome, after⟩
    rw [result] at first
    obtain rfl : outcome = .made := first
    exact ih (fun other later => derivable other (List.mem_cons_of_mem root later)) after

/-- A request that is resolved has a graph. -/
theorem build_eq_ok {targets : List String} (asked : targets ≠ []) {search : Search}
    (resolved : resolveRoots rules available targets {} = (.ok (), search)) :
    (Graph.build rules available targets).1 =
      .ok ⟨(reachableNodes targets search.nodes).map (·.markIntermediate rules targets),
        targets⟩ := by
  have nonempty : targets.isEmpty = false := by simpa using asked
  unfold Graph.build
  simp only [nonempty, Bool.false_eq_true, if_false]
  rw [resolved]

/-- A target that is asked for alone and that a rule for targets of a common form can make has a
node, made by that rule or an earlier one, if its explicit rules let it borrow a recipe. -/
theorem resolveRoots_borrowed {target : String} {index : Nat} {rule : PatternRule}
    {found : Instance} (declared : rules.patterns[index]? = some rule)
    (usable : rule.isUsable = true) (fits : rule.instance? target = some found)
    (borrows : ∀ own ∈ rules.rulesFor target, own.recipe = none ∧ own.attributes.virtual = false)
    (extra : ∀ own ∈ rules.rulesFor target, ∀ prereq ∈ own.prereqs,
      Derivable rules available prereq {target} {index})
    (below : ∀ prereq ∈ found.prereqs, Derivable rules available prereq {target} {index}) :
    ∃ search, resolveRoots rules available [target] {} = (.ok (), search) ∧
      ∃ node ∈ search.nodes, node.name = target ∧
        ∃ earlier ≤ index, node.origin = .pattern earlier := by
  have less := room_pattern (List.getElem?_eq_some_iff.mp declared).1 List.not_mem_nil [] target
  have enough := room_lt_resolutionDepth rules [] []
  obtain ⟨depth, depthIs⟩ : ∃ depth, resolutionDepth rules = depth + 1 := ⟨_, rfl⟩
  have makes : ∀ prereq, Derivable rules available prereq {target} {index} →
      (resolve rules available depth ([] ++ [target]) ([] ++ [index])).Makes prereq :=
    fun prereq derivable => resolve_made derivable (by simp) (by simp) (by omega)
  obtain ⟨node, after, attempted, named, origin⟩ := attemptName_pattern available
    (fun chain inUse => resolve_tolerant depth ([] ++ [target]) inUse) declared usable
    List.not_mem_nil fits borrows
    (fun own ownMember prereq needed => makes prereq (extra own ownMember prereq needed))
    (fun prereq needed => makes prereq (below prereq needed)) {}
  refine ⟨after.add node, ?_, node, List.mem_append_right _ (List.mem_singleton_self node), named,
    origin⟩
  have resolved : resolve rules available (resolutionDepth rules) [] [] target {} =
      (.made, after.add node) := by
    rw [depthIs]
    unfold resolve
    simp only [Search.knows, List.any_nil, List.contains_nil, Bool.false_eq_true, if_false]
    rw [attempted]
    rfl
  unfold resolveRoots
  dsimp only
  rw [resolved]
  rfl

/-- The same without explicit rules. -/
theorem resolveRoots_pattern {target : String} {index : Nat} {rule : PatternRule}
    {found : Instance} (declared : rules.patterns[index]? = some rule)
    (usable : rule.isUsable = true) (fits : rule.instance? target = some found)
    (unruled : rules.rulesFor target = [])
    (below : ∀ prereq ∈ found.prereqs, Derivable rules available prereq {target} {index}) :
    ∃ search, resolveRoots rules available [target] {} = (.ok (), search) ∧
      ∃ node ∈ search.nodes, node.name = target ∧
        ∃ earlier ≤ index, node.origin = .pattern earlier :=
  resolveRoots_borrowed declared usable fits (by simp [unruled]) (by simp [unruled]) below

/-- **A request for derivable names has a graph**: neither a missing rule nor a cycle ends the
search.  **A target without explicit rules that is asked for alone and that a rule for targets of a
common form can make is made by no later one.** -/
theorem build_of_derivable (rules : RuleSet) (available : String → Bool) :
    (∀ targets : List String, targets ≠ [] →
      (∀ target ∈ targets, Derivable rules available target ∅ ∅) →
        ∃ graph, (Graph.build rules available targets).1 = .ok graph ∧ graph.roots = targets) ∧
    ∀ (target : String) (index : Nat) (rule : PatternRule) (found : Instance),
      rules.rulesFor target = [] → rules.patterns[index]? = some rule →
      (rule.body.recipe.isSome = true ∨ rule.body.attributes.forceUpdate = true) →
      rule.instance? target = some found →
      (∀ prereq ∈ found.prereqs, Derivable rules available prereq {target} {index}) →
        ∃ graph node, (Graph.build rules available [target]).1 = .ok graph ∧
          graph.node? target = some node ∧ ∃ earlier ≤ index, node.origin = .pattern earlier := by
  constructor
  · intro targets asked derivable
    obtain ⟨search, resolved⟩ := resolveRoots_made derivable {}
    exact ⟨_, build_eq_ok asked resolved, rfl⟩
  · intro target index rule found unruled declared usable fits below
    obtain ⟨search, resolved, node, member, named, earlier, noLater, origin⟩ :=
      resolveRoots_pattern declared (Bool.or_eq_true _ _ ▸ usable) fits unruled below
    have built := build_eq_ok (List.cons_ne_nil target []) resolved
    have arranged := build_arranged built
    -- The search has one node of that name, and as the target is asked for it is kept.
    have known : target ∈ nodeNames search.nodes := mem_nodeNames.mpr ⟨node, member, named⟩
    obtain ⟨kept, keptMember, keptNamed⟩ := mem_nodeNames.mp
      (mem_nodeNames_reachableNodes (List.mem_singleton_self target) known)
    have sound := (resolveRoots_sound Search.Sound.empty resolved).1
    obtain rfl : kept = node := sound.arranged.eq_of_name
      ((reachableNodes_sublist _ _).subset keptMember) member (keptNamed.trans named.symm)
    obtain ⟨flag, marked⟩ := kept.markIntermediate_eq rules [target]
    have listed := List.mem_map_of_mem (f := (·.markIntermediate rules [target])) keptMember
    rw [marked] at listed
    subst named
    exact ⟨_, { kept with intermediate := flag }, built, arranged.node?_eq listed, earlier,
      noLater, origin⟩

theorem build_of_derivable_program :
    (Derivable programRules programFiles "main" ∅ ∅ ∧
      ∃ graph, (Graph.build programRules programFiles ["main"]).1 = .ok graph ∧
        graph.roots = ["main"]) ∧
    (∀ prereq ∈ ["other.c"], Derivable programRules (· = "other.c") prereq {"other.o"} {1}) ∧
      ∃ graph node, (Graph.build programRules (· = "other.c") ["other.o"]).1 = .ok graph ∧
        graph.node? "other.o" = some node ∧ ∃ earlier ≤ 1, node.origin = .pattern earlier := by
  have source : ∀ prereq ∈ ["other.c"],
      Derivable programRules (· = "other.c") prereq {"other.o"} {1} := by
    intro prereq member
    obtain rfl := List.mem_singleton.mp member
    exact .source (by simp) rfl rfl
  have object : Derivable programRules programFiles "main.o" (insert "main" ∅) ∅ := by
    have header : programRules.rulesFor "main.o" = [⟨⟨["main.h"], none, {}, none, ⟨"mkfile", 3⟩⟩,
      ["main.o"]⟩] := rfl
    refine @Derivable.pattern programRules programFiles "main.o" _ _ 1 (compileRule ".c" 6)
      ⟨"main", ["main"], ["main.c"], ["main.o"], some "compile"⟩ (by simp) (by simp) rfl
      (Or.inl rfl) rfl ?_ ?_ ?_
    · simp [header]
    · intro own ownMember prereq needed
      rw [header] at ownMember
      obtain rfl := List.mem_singleton.mp ownMember
      obtain rfl := List.mem_singleton.mp needed
      exact .source (by simp) rfl rfl
    · intro prereq needed
      obtain rfl := List.mem_singleton.mp needed
      exact .source (by simp) rfl rfl
  have program : Derivable programRules programFiles "main" ∅ ∅ := by
    have link : programRules.rulesFor "main" = [⟨⟨["main.o"], some "link", { comparator := true },
      some "cmp", ⟨"mkfile", 1⟩⟩, ["main"]⟩] := rfl
    refine .explicit (by simp) (by simp [link]) fun own ownMember prereq needed => ?_
    rw [link] at ownMember
    obtain rfl := List.mem_singleton.mp ownMember
    obtain rfl := List.mem_singleton.mp needed
    exact object
  exact ⟨⟨program, (build_of_derivable programRules programFiles).1 ["main"] (by simp)
    (by simpa using program)⟩, source,
    (build_of_derivable programRules (· = "other.c")).2 "other.o" 1 (compileRule ".c" 6)
      ⟨"other", ["other"], ["other.c"], ["other.o"], some "compile"⟩ rfl rfl (Or.inl rfl) rfl
      source⟩

end Search

end BuildSystem
