/-
**What a search visits.**

While a name is looked for, other names are asked for, each because of what was found before.  So a
way leads from a requested name to every name that is looked for.  Each of its steps is taken by the
explicit rules of a name, or by a rule for targets of a common form that is tried for it.

* `lookUp`, `lookUp_entered` — the search for one name, without a bound on its depth.
* `Step`, `Way.names`, `Way.used`, `Way.lookUp` — the names that are being resolved and the rules in
  use on the way, both read off one list, and the search for the name that the way leads to.
* `Step.LeadsTo`, `Way.Leads` — the ways that the rules allow, whatever a search does.
* `Asks.leadsTo`, `Asks.cycle`, `Asks.advances` — what a name asks for, the rules allow; a cycle
  that is met there ends the attempt; and by then nodes have only been added.
* `attemptName_stops` — an attempt comes to nothing because of the last name that it asks for.
* `Visits` — a name is looked for while a request is resolved, on a way and in a state of the
  search.
* `Visits.leads`, `Visits.nodup`, `Visits.unknown` — the rules allow the way, no name occurs twice
  on it, and none of its names has a node yet.
* `Visits.rec_room` — what holds of a name if it holds of all names that are asked for meanwhile
  holds of every name that is looked for: each way leaves less room than the one that it goes on.
-/

import BuildSystem.Proofs.Graph.Attempts

namespace BuildSystem

/-! ### The search for one name -/

/-- The search for one name, with more depth than any path leaves room for. -/
def lookUp (rules : RuleSet) (available : String → Bool) (stack : List String) (chain : List Nat) :
    Resolver :=
  resolve rules available (resolutionDepth rules) stack chain

/-- The names of a stack from a given one on, and that name again. -/
def cycleFrom (stack : List String) (name : String) : List String :=
  stack.dropWhile (· != name) ++ [name]

section LookUp

variable {rules : RuleSet} {available : String → Bool} {stack : List String} {chain : List Nat}
  {name : String} {search : Search}

/-- **More depth than there is room makes no difference.** -/
theorem resolve_depth (rules : RuleSet) (available : String → Bool) {depth more : Nat}
    (enough : room rules stack chain < depth) (enoughToo : room rules stack chain < more) :
    resolve rules available depth stack chain = resolve rules available more stack chain := by
  induction depth generalizing more stack chain with
  | zero => omega
  | succ depth ih =>
    obtain ⟨more, rfl⟩ := Nat.exists_eq_succ_of_ne_zero (Nat.ne_zero_of_lt enoughToo)
    funext name search
    unfold resolve
    split
    · rfl
    · split
      · rfl
      · next unrepeated =>
        have fresh : name ∉ stack := mt List.contains_iff_mem.mpr unrepeated
        dsimp only
        rw [attemptName_congr fun inner prereq calls => congrFun (ih
          (Nat.lt_of_lt_of_le (calls.room_lt fresh) (Nat.le_of_lt_succ enough))
          (Nat.lt_of_lt_of_le (calls.room_lt fresh) (Nat.le_of_lt_succ enoughToo))) prereq]

/-- A name that has a node is not looked for. -/
theorem lookUp_known (known : search.knows name = true) :
    lookUp rules available stack chain name search = (.made, search) := by
  unfold lookUp resolutionDepth resolve
  rw [if_pos known]

/-- **A name that is not being resolved yet is looked for**, and so is what it needs, one name
further. -/
theorem lookUp_entered (unknown : search.knows name = false) (fresh : name ∉ stack) :
    lookUp rules available stack chain name search =
      conclude stack name (attemptName rules available (lookUp rules available (stack ++ [name]))
        chain name { search with failure := none }) := by
  obtain ⟨depth, depthIs⟩ : ∃ depth, resolutionDepth rules = depth + 1 := ⟨_, rfl⟩
  have agree : ∀ inner prereq, Calls rules chain name inner prereq →
      resolve rules available depth (stack ++ [name]) inner prereq =
        lookUp rules available (stack ++ [name]) inner prereq := by
    intro inner prereq calls
    have less := calls.room_lt fresh
    have most := room_lt_resolutionDepth rules stack chain
    have enough := room_lt_resolutionDepth rules (stack ++ [name]) inner
    exact congrFun (resolve_depth rules available (by omega) enough) prereq
  rw [lookUp, depthIs, resolve, if_neg (by simp [unknown]),
    if_neg (mt List.contains_iff_mem.mp fresh)]
  dsimp only
  rw [attemptName_congr agree]

end LookUp

/-! ### Ways -/

/-- **A step of a way**: a name, and what leads on from it. -/
structure Step where
  name : String
  /-- The place of the rule for targets of a common form that is tried; there is none if the
  explicit rules of the name are applied. -/
  rule : Option Nat
deriving DecidableEq, Repr

/-- The names on a way, the outermost first. -/
def Way.names (way : List Step) : List String :=
  way.map (·.name)

/-- The places of the rules in use on a way. -/
def Way.used (way : List Step) : List Nat :=
  way.filterMap (·.rule)

namespace Way

@[simp] theorem names_nil : names [] = [] := rfl

@[simp] theorem names_append (first second : List Step) :
    names (first ++ second) = names first ++ names second :=
  List.map_append

@[simp] theorem names_single (step : Step) : names [step] = [step.name] := rfl

theorem used_append (first second : List Step) :
    used (first ++ second) = used first ++ used second :=
  List.filterMap_append

theorem used_concat (way : List Step) (name : String) (rule : Option Nat) :
    used (way ++ [⟨name, rule⟩]) = used way ++ rule.toList := by
  rw [used_append]
  cases rule <;> rfl

/-- No rule for targets of a common form is in use exactly if explicit rules take every step. -/
theorem used_eq_nil_iff {way : List Step} : used way = [] ↔ ∀ step ∈ way, step.rule = none :=
  List.filterMap_eq_nil_iff

/-- The search for a name that a way leads to. -/
def lookUp (rules : RuleSet) (available : String → Bool) (way : List Step) : Resolver :=
  BuildSystem.lookUp rules available (names way) (used way)

theorem lookUp_concat (rules : RuleSet) (available : String → Bool) (way : List Step)
    (name : String) (rule : Option Nat) :
    lookUp rules available (way ++ [⟨name, rule⟩]) =
      BuildSystem.lookUp rules available (names way ++ [name]) (used way ++ rule.toList) := by
  rw [lookUp, names_append, names_single, used_concat]

section LookUp

variable {rules : RuleSet} {available : String → Bool} {way : List Step} {name : String}
  {search : Search}

/-- Where explicit rules take every step, a name that the way leads back to ends the search. -/
theorem lookUp_cycle (unknown : search.knows name = false) (onWay : name ∈ names way)
    (explicit : ∀ step ∈ way, step.rule = none) :
    lookUp rules available way name search = (.cycle (cycleFrom (names way) name), search) := by
  rw [lookUp, used_eq_nil_iff.mpr explicit]
  unfold BuildSystem.lookUp resolutionDepth resolve
  rw [if_neg (by simp [unknown]), if_pos (List.contains_iff_mem.mpr onWay)]
  rfl

/-- With a rule for targets of a common form in use, a name that the way leads back to is given
up. -/
theorem lookUp_rejected (unknown : search.knows name = false) (onWay : name ∈ names way)
    (inUse : ∃ step ∈ way, step.rule ≠ none) :
    lookUp rules available way name search =
      (.unmade, (search.note (.cycleRejected name (cycleFrom (names way) name))).fail
        (.cycle (cycleFrom (names way) name))) := by
  obtain ⟨step, member, taken⟩ := inUse
  have used : ¬ (used way).isEmpty = true := fun none =>
    taken (used_eq_nil_iff.mp (List.isEmpty_iff.mp none) step member)
  unfold lookUp BuildSystem.lookUp resolutionDepth resolve
  rw [if_neg (by simp [unknown]), if_pos (List.contains_iff_mem.mpr onWay)]
  dsimp only
  rw [if_neg used]
  rfl

end LookUp

end Way

/-- **A step leads to a name**, if the rules allow it. -/
inductive Step.LeadsTo (rules : RuleSet) : Step → String → Prop
  /-- An explicit rule needs it. -/
  | explicit {name prereq : String} {own : ExplicitRule} : own ∈ rules.rulesFor name →
      prereq ∈ own.prereqs → LeadsTo rules ⟨name, none⟩ prereq
  /-- A usable rule for targets of a common form fits the name and is tried, and it or an explicit
  rule needs it. -/
  | pattern {name prereq : String} {index : Nat} {rule : PatternRule} {found : Instance} :
      rules.patterns[index]? = some rule →
      (rule.body.recipe.isSome = true ∨ rule.body.attributes.forceUpdate = true) →
      rule.instance? name = some found →
      (prereq ∈ found.prereqs ∨ ∃ own ∈ rules.rulesFor name, prereq ∈ own.prereqs) →
      LeadsTo rules ⟨name, some index⟩ prereq

/-- **A way leads from a name to another one.** -/
inductive Way.Leads (rules : RuleSet) (root : String) : List Step → String → Prop
  | here : Leads rules root [] root
  | on {way : List Step} {step : Step} {prereq : String} : Leads rules root way step.name →
      step.LeadsTo rules prereq → Leads rules root (way ++ [step]) prereq

/-! ### What a name asks for -/

section Asks

variable {rules : RuleSet} {available : String → Bool} {deeper : List Nat → Resolver}
  {chain : List Nat} {name prereq : String} {search reached after : Search} {rule : Option Nat}

/-- What a name asks for, the rules allow. -/
theorem Asks.leadsTo (asks : Asks rules deeper chain name search rule prereq reached) :
    Step.LeadsTo rules ⟨name, rule⟩ prereq := by
  cases asks with
  | candidate _ turn prereqTurn =>
    obtain ⟨declared, usable, -, fits⟩ := of_mem_candidates turn.mem
    have listed := prereqTurn.mem
    rw [mem_candidate_prereqs, mem_merged_prereqs] at listed
    exact .pattern declared (Bool.or_eq_true _ _ ▸ usable) fits listed.symm
  | own _ _ turn =>
    obtain ⟨own, member, listed⟩ := mem_merged_prereqs.mp turn.mem
    exact .explicit member listed

/-- **A cycle that is met while a name is asked for ends the attempt.** -/
theorem Asks.cycle {names : List String}
    (asks : Asks rules deeper chain name search rule prereq reached)
    (ended : deeper (chain ++ rule.toList) prereq reached = (.cycle names, after)) :
    attemptName rules available deeper chain name search = (.cycle names, after) := by
  rw [attemptName_eq]
  cases asks with
  | candidate borrows turn prereqTurn =>
    have borrowed : attemptBorrowed rules deeper chain name search = (.cycle names, after) := by
      unfold attemptBorrowed
      rw [if_pos borrows]
      exact turn.cycle prereqTurn ended
    rw [borrowed]
  | own ruled borrowed turn =>
    rw [Option.toList_none, List.append_nil] at ended
    have resolved := turn.ends (by simp [ended])
    rw [ended] at resolved
    obtain ⟨first, others, own⟩ := List.exists_cons_of_ne_nil ruled
    rw [borrowed]
    unfold attemptOwn applyExplicit
    simp only [own, resolved]

/-- An attempt ends as the search for a name ends that it asks for, with the same reason. -/
def StopsAt (rules : RuleSet) (deeper : List Nat → Resolver) (chain : List Nat) (name : String)
    (search : Search) (result : Attempt × Search) (rule : Option Nat) : Prop :=
  ∃ prereq reached last, Asks rules deeper chain name search rule prereq reached ∧
    deeper (chain ++ rule.toList) prereq reached = (result.1.outcome, last) ∧
    result.2.failure = last.failure

/-- If no candidate is chosen, the last one that is tried asks for a name that is not made. -/
theorem attemptBorrowed_stops {result : Attempt × Search}
    (tried : attemptBorrowed rules deeper chain name search = result)
    (unmade : result.1.outcome ≠ .made) (borrows : (rules.merged name).mayBorrow = true) :
    (∃ rule, StopsAt rules deeper chain name search result rule) ∨
      (candidates rules.patterns name chain = [] ∧ result = (.missing, search)) := by
  unfold attemptBorrowed at tried
  rw [if_pos borrows] at tried
  obtain ⟨attempt, after⟩ := result
  rcases exists_candidateTurn tried unmade with
    ⟨none, rfl, rfl⟩ | ⟨candidate, start, prereq, reached, last, turn, prereqTurn, ended, kept⟩
  · exact Or.inr ⟨none, rfl⟩
  · exact Or.inl ⟨_, prereq, reached, last, .candidate borrows turn prereqTurn, ended, kept⟩

/-- If explicit rules do not make a name, the last prerequisite that is asked for is not made. -/
theorem attemptOwn_stops {middle : Search} {result : Attempt × Search}
    (ruled : rules.rulesFor name ≠ [])
    (borrowed : attemptBorrowed rules deeper chain name search = (.missing, middle))
    (applied : attemptOwn rules available (deeper chain) name middle = result)
    (unmade : result.1.outcome ≠ .made) :
    StopsAt rules deeper chain name search result none := by
  obtain ⟨first, others, own⟩ := List.exists_cons_of_ne_nil ruled
  unfold attemptOwn applyExplicit at applied
  rcases resolved : resolveAll (deeper chain) (rules.merged name).prereqs middle with
    ⟨outcome, last⟩
  simp only [own, resolved] at applied
  have ended : result.1.outcome = outcome ∧ (outcome ≠ .made → result.2 = last) := by
    cases outcome <;> simp [← applied, Attempt.outcome]
  obtain ⟨rfl, kept⟩ := ended
  obtain ⟨prereq, reached, turn, stopped⟩ :=
    @Resolver.exists_turn (deeper chain) _ middle (by rw [resolved]; exact unmade)
  rw [resolved] at stopped
  refine ⟨prereq, reached, last, .own ruled borrowed turn, ?_, by rw [kept unmade]⟩
  rw [Option.toList_none, List.append_nil, stopped]

/-- **An attempt comes to nothing because of the last name that it asks for**; or there is nothing
at all that could make the name.  Explicit rules are tried last. -/
theorem attemptName_stops {result : Attempt × Search}
    (attempted : attemptName rules available deeper chain name search = result)
    (unmade : result.1.outcome ≠ .made) :
    (∃ rule, StopsAt rules deeper chain name search result rule ∧
        (result.1 = .missing → rule ≠ none → rules.rulesFor name = [])) ∨
      (result = (.missing, search) ∧ rules.rulesFor name = [] ∧
        candidates rules.patterns name chain = [] ∧ available name = false) := by
  rw [attemptName_eq] at attempted
  split at attempted
  · next middle borrowed =>
    by_cases ruled : rules.rulesFor name = []
    · -- Without explicit rules the candidates were the last that could be tried.
      have borrows : (rules.merged name).mayBorrow = true := by
        rw [RuleSet.merged, ruled]
        rfl
      have absent : result = (.missing, middle) ∧ available name = false := by
        unfold attemptOwn at attempted
        simp only [ruled] at attempted
        split at attempted
        · rw [← attempted] at unmade
          exact absurd rfl unmade
        · next absent => exact ⟨attempted.symm, by simpa using absent⟩
      obtain ⟨rfl, absent⟩ := absent
      rcases attemptBorrowed_stops borrowed unmade borrows with ⟨rule, stops⟩ | ⟨none, same⟩
      · exact Or.inl ⟨rule, stops, fun _ _ => ruled⟩
      · exact Or.inr ⟨same, ruled, none, absent⟩
    · exact Or.inl ⟨none, attemptOwn_stops ruled borrowed attempted unmade, by simp⟩
  · next going =>
    have ends : ∀ after, result ≠ (.missing, after) := fun after missing =>
      going after (attempted.trans missing)
    by_cases borrows : (rules.merged name).mayBorrow = true
    · rcases attemptBorrowed_stops attempted unmade borrows with ⟨rule, stops⟩ | ⟨-, missing⟩
      · exact Or.inl ⟨rule, stops, fun missing => absurd
          (show result = (.missing, result.2) from Prod.ext missing rfl) (ends result.2)⟩
      · exact absurd missing (ends search)
    · unfold attemptBorrowed at attempted
      rw [if_neg borrows] at attempted
      exact absurd attempted.symm (ends search)

/-- What has been found by the time a name is asked for has been added to what was there before. -/
theorem Asks.advances {stack : List String}
    (asks : Asks rules deeper chain name search rule prereq reached)
    (careful : ∀ chain, (deeper chain).Careful rules available stack) :
    Advances rules available stack search reached := by
  have tried : ∀ found ⊆ candidates rules.patterns name chain,
      (rules.merged name).mayBorrow = true → Advances rules available stack search
        (tryCandidates (fun index => deeper (chain ++ [index])) name (rules.merged name).prereqs
          (rules.merged name).attributes found search).2 := fun found part borrows =>
    (tryCandidates_careful (fun index => careful (chain ++ [index])) borrows
      (fun candidate member => mem_candidates_of_skip (part member)) search).advances
  cases asks with
  | @candidate candidate start _ _ borrows turn prereqTurn =>
    obtain ⟨before, rest, split, missing⟩ := turn
    obtain ⟨front, back, -, resolved⟩ := prereqTurn
    have first := tried before (split ▸ List.subset_append_left before (candidate :: rest)) borrows
    have later := (resolveAll_advances (careful (chain ++ [candidate.index])) front
      (start.note (candidate.trial name (rules.merged name).prereqs))).1
    rw [missing] at first
    rw [resolved] at later
    have noted : Advances rules available stack start
      (start.note (candidate.trial name (rules.merged name).prereqs)) := .of_nodes_eq rfl
    exact first.trans (noted.trans later)
  | @own middle _ _ ruled borrowed turn =>
    obtain ⟨front, back, -, resolved⟩ := turn
    have first : Advances rules available stack search middle := by
      unfold attemptBorrowed at borrowed
      split at borrowed
      · next borrows =>
        have tried := tried _ (List.Subset.refl _) borrows
        rwa [borrowed] at tried
      · obtain ⟨-, rfl⟩ := Prod.mk.inj borrowed
        exact .of_nodes_eq rfl
    have later := (resolveAll_advances (careful chain) front middle).1
    rw [resolved] at later
    exact first.trans later

end Asks

/-! ### What a request visits -/

/-- **A name is looked for while a request is resolved**, on a way and in a state of the search. -/
inductive Visits (rules : RuleSet) (available : String → Bool) (roots : List String) :
    List Step → String → Search → Prop
  /-- It is requested, and all that was requested before it is made. -/
  | root {before after : List String} {root : String} {reached : Search} :
      roots = before ++ root :: after →
      resolveRoots rules available before {} = (.ok (), reached) →
      Visits rules available roots [] root { reached with failure := none }
  /-- It is asked for while another name is looked for. -/
  | prereq {way : List Step} {name prereq : String} {search reached : Search}
      {rule : Option Nat} : Visits rules available roots way name search →
      search.knows name = false → name ∉ Way.names way →
      Asks rules (lookUp rules available (Way.names way ++ [name])) (Way.used way) name
        { search with failure := none } rule prereq reached →
      Visits rules available roots (way ++ [⟨name, rule⟩]) prereq reached

namespace Visits

variable {rules : RuleSet} {available : String → Bool} {roots : List String} {way : List Step}
  {name : String} {search : Search}

/-- The rules allow the way. -/
theorem leads (visits : Visits rules available roots way name search) :
    ∃ root ∈ roots, Way.Leads rules root way name := by
  induction visits with
  | root split => exact ⟨_, by simp [split], .here⟩
  | prereq _ _ _ asks ih =>
    obtain ⟨root, requested, leads⟩ := ih
    exact ⟨root, requested, leads.on asks.leadsTo⟩

/-- No name occurs twice on the way. -/
theorem nodup (visits : Visits rules available roots way name search) :
    (Way.names way).Nodup := by
  induction visits with
  | root => exact List.nodup_nil
  | prereq _ _ fresh _ ih =>
    rw [Way.names_append, Way.names_single]
    exact List.nodup_append_comm.mp (List.nodup_cons.mpr ⟨fresh, ih⟩)

/-- **A name that is being resolved has no node.** -/
theorem unknown (visits : Visits rules available roots way name search) :
    ∀ other ∈ Way.names way, search.knows other = false := by
  induction visits with
  | root => exact fun other member => by cases member
  | @prereq way name prereq search reached rule _ fresh _ asks ih =>
    intro other member
    rw [Way.names_append, Way.names_single] at member
    have before : search.knows other = false := by
      rcases List.mem_append.mp member with early | last
      · exact ih other early
      · exact List.mem_singleton.mp last ▸ fresh
    have advances := asks.advances fun chain =>
      resolve_careful rules available (resolutionDepth rules) (Way.names way ++ [name]) chain
    refine Bool.eq_false_iff.mpr fun known => ?_
    obtain ⟨node, found, named⟩ := mem_nodeNames.mp (Search.knows_iff.mp known)
    have old : node ∈ search.nodes := advances.fresh node found (named ▸ member)
    rw [Search.knows_iff.mpr (mem_nodeNames.mpr ⟨node, old, named⟩)] at before
    cases before

/-- **What holds of a name if it holds of all names that are asked for meanwhile holds of every name
that is looked for.** -/
theorem rec_room
    {motive : ∀ way name search, Visits rules available roots way name search → Prop}
    (step : ∀ {way name search} (visits : Visits rules available roots way name search),
      (∀ {rule prereq reached}
        (further : Visits rules available roots (way ++ [⟨name, rule⟩]) prereq reached),
        name ∉ Way.names way →
        Asks rules (lookUp rules available (Way.names way ++ [name])) (Way.used way) name
          { search with failure := none } rule prereq reached →
        motive (way ++ [⟨name, rule⟩]) prereq reached further) →
      motive way name search visits)
    (visits : Visits rules available roots way name search) : motive way name search visits := by
  induction left : room rules (Way.names way) (Way.used way) using Nat.strong_induction_on
    generalizing way name search with
  | _ left ih =>
    subst left
    refine step visits fun {rule prereq reached} further fresh asks => ih _ ?_ further rfl
    rw [Way.names_append, Way.names_single, Way.used_concat]
    exact asks.calls.room_lt fresh

end Visits

end BuildSystem
