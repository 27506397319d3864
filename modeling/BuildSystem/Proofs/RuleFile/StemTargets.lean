/-
**The targets of a stem rule and its siblings.**

A stem rule has the first marker of its target stand for the stem.  When it is applied to a name, it
puts the stem in the place of its marker everywhere, in its own target and in those of its siblings.

* `StemRule.CutFrom`, `cutFrom_of_mem` — the stem rules of a header.
* `StemRule.instance?_eq_some` — what a stem rule says about a name.
* `StemRule.fill_eq_iff` — the name is the rule's own target with the stem filled in, unless the
  marker is repeated behind the stem.
* `CutFrom.targets_eq_iff` — siblings fill in the same targets exactly if they have the same marker.
* `ofText_siblings` — so far the siblings of a text agree.
-/

import BuildSystem.Graph.Resolution
import BuildSystem.Proofs.RuleFile.Declarations
import BuildSystem.Proofs.RuleFile.Inclusion
import BuildSystem.Proofs.Stems
import BuildSystem.Recipe
import Mathlib.Data.List.TakeWhile

namespace BuildSystem

/-! ### Stem rules -/

namespace StemRule

variable {rule : StemRule} {name stem : String} {found : Instance}

theorem eq_of_stem? (fits : rule.stem? name = some stem) :
    name.toList = rule.start.toList ++ stem.toList ++ rule.finish.toList := by
  obtain ⟨rfl, -⟩ := stem?_eq_some_iff.mp fits
  exact toList_around _ _ _

/-- What a stem rule says about a name that fits. -/
theorem instance?_eq_some (made : rule.instance? name = some found) :
    rule.stem? name = some found.stem ∧ found.groups = [found.stem] ∧
      found.prereqs = rule.prereqs.map (fun prereq =>
        bind (fun name => (stemValues found.stem [found.stem]).get? name)
          (Text.replace rule.marker found.stem prereq)) ∧
      (rule.allTargets ≠ [] →
        found.allTargets = rule.allTargets.map (Text.replace rule.marker found.stem)) ∧
      found.recipe.isSome = rule.recipe.isSome := by
  unfold instance? at made
  split at made
  · cases made
  · next stem fits =>
    obtain rfl := Option.some.inj made
    refine ⟨fits, rfl, rfl, fun some => ?_, Option.isSome_map⟩
    exact if_neg (by simpa using some)

end StemRule

namespace RuleFile

/-- **A stem rule of a header**: its target is one of those of the header, and is cut at its first
marker. -/
structure CutFrom (header : Header) (rule : StemRule) : Prop where
  target : rule.target ∈ header.targets
  cut : rule.target.toList = rule.start.toList ++ rule.marker :: rule.finish.toList
  unmarked : ∀ c ∈ rule.start.toList, isMarker c = false
  marked : isMarker rule.marker = true
  body : rule.toRuleBody = header.body
  allTargets : rule.allTargets = header.targets

theorem cutFrom_of_mem {header : Header} {rules : List Rule} (declares : header.rules = .ok rules)
    {rule : StemRule} (member : Rule.pattern (.stem rule) ∈ rules) : CutFrom header rule := by
  rcases Header.rules_cases declares member with
    ⟨target, -, -, makes⟩ | ⟨target, among, makes⟩ | explicit
  · obtain ⟨regex, same⟩ := Header.regexRule_eq_ok makes
    cases same
  · obtain ⟨start, marker, finish, cut, unmarked, marked, same⟩ := Header.stemRule?_eq_some makes
    cases same
    exact ⟨among, by simpa using cut, by simpa using unmarked, marked, rfl, rfl⟩
  · cases explicit

/-- A target with a marker has a stem rule. -/
theorem exists_stemRule? (header : Header) {target : String}
    (marked : Header.isMarked target = true) : ∃ rule : StemRule,
      header.stemRule? target = some (.pattern (.stem rule)) ∧ rule.target = target := by
  unfold Header.stemRule?
  rw [List.span_eq_takeWhile_dropWhile]
  cases behind : target.toList.dropWhile fun c => !isMarker c with
  | nil =>
    obtain ⟨c, member, is⟩ := List.any_eq_true.mp marked
    have none := List.dropWhile_eq_nil_iff.mp behind c member
    rw [is] at none
    cases none
  | cons marker finish => exact ⟨_, rfl, rfl⟩

/-- **A header with a stem rule has one for each of its targets.** -/
theorem exists_sibling {header : Header} {rules : List Rule} (declares : header.rules = .ok rules)
    {one : StemRule} (member : Rule.pattern (.stem one) ∈ rules) {target : String}
    (among : target ∈ header.targets) :
    ∃ two : StemRule, Rule.pattern (.stem two) ∈ rules ∧ two.target = target := by
  unfold Header.rules at declares
  split at declares
  · obtain ⟨written, -, makes⟩ := exists_of_mem_mapM declares member
    obtain ⟨regex, same⟩ := Header.regexRule_eq_ok makes
    cases same
  · split at declares
    · split at declares
      · next all =>
        obtain rfl := Except.ok.inj declares
        obtain ⟨two, made, same⟩ := exists_stemRule? header (List.all_eq_true.mp all target among)
        exact ⟨two, List.mem_filterMap.mpr ⟨target, among, made⟩, same⟩
      · cases declares
    · obtain rfl := Except.ok.inj declares
      cases List.mem_singleton.mp member

namespace CutFrom

variable {header : Header} {one two : StemRule} {name stem : String}

/-- No marker stands before the stem. -/
theorem notMem_start (cut : CutFrom header one) {mark : Char} (marked : isMarker mark = true) :
    mark ∉ one.start.toList := by
  intro member
  rw [cut.unmarked mark member] at marked
  cases marked

/-- The rule's own target, with the stem filled in. -/
theorem toList_fill (cut : CutFrom header one) (stem : String) :
    (Text.replace one.marker stem one.target).toList =
      one.start.toList ++ (stem.toList ++
        Chars.replace one.marker stem.toList one.finish.toList) := by
  unfold Text.replace
  rw [String.toList_ofList, cut.cut, Chars.replace_append, Chars.replace_mark,
    Chars.replace_of_notMem (cut.notMem_start cut.marked)]

/-- **The name is the rule's own target with the stem filled in**, exactly if the marker is not
repeated behind the stem, or the stem is the marker. -/
theorem fill_eq_iff (cut : CutFrom header one) (fits : one.stem? name = some stem) :
    Text.replace one.marker stem one.target = name ↔
      one.marker ∉ one.finish.toList ∨ stem = String.singleton one.marker := by
  rw [← String.toList_inj, cut.toList_fill, StemRule.eq_of_stem? fits, List.append_assoc,
    List.append_cancel_left_eq, List.append_cancel_left_eq, Chars.replace_eq_self_iff,
    ← String.toList_inj]
  simp

/-- If another marker fills in the same target, the stem begins with the rule's own marker. -/
theorem head?_of_fill_eq (cut : CutFrom header one) {mark : Char} (marked : isMarker mark = true)
    (different : mark ≠ one.marker)
    (same : Text.replace mark stem one.target = Text.replace one.marker stem one.target) :
    stem.toList.head? = some one.marker := by
  have other : (Text.replace mark stem one.target).toList =
      one.start.toList ++ one.marker :: Chars.replace mark stem.toList one.finish.toList := by
    unfold Text.replace
    rw [String.toList_ofList, cut.cut, Chars.replace_append, Chars.replace_other different.symm,
      Chars.replace_of_notMem (cut.notMem_start marked)]
  rw [← String.toList_inj, other, cut.toList_fill, List.append_cancel_left_eq] at same
  cases letters : stem.toList with
  | nil =>
    -- An empty stem leaves no marker of its own behind.
    have absent := Chars.notMem_replace_nil one.marker one.finish.toList
    rw [letters, List.nil_append] at same
    rw [← same] at absent
    exact absurd List.mem_cons_self absent
  | cons first others =>
    rw [letters, List.cons_append, List.cons.injEq] at same
    rw [same.1]
    rfl

/-- **Siblings fill in the same targets** exactly if they have the same marker. -/
theorem targets_eq_iff (cut : CutFrom header one) (cut' : CutFrom header two) (stem : String) :
    header.targets.map (Text.replace two.marker stem) =
      header.targets.map (Text.replace one.marker stem) ↔ two.marker = one.marker := by
  constructor
  · intro same
    have fills := List.map_inj_left.mp same
    by_contra different
    have first := cut.head?_of_fill_eq cut'.marked different (fills _ cut.target)
    have second := cut'.head?_of_fill_eq cut.marked (Ne.symm different) (fills _ cut'.target).symm
    exact different (Option.some.inj (second.symm.trans first))
  · intro same
    rw [same]

end CutFrom

/-! ### Siblings -/

/-- **How far a stem rule agrees with a sibling**, where they are applied to two names that have the
same stem. -/
structure SiblingsAgree (one two : StemRule) (name other : String) (found found' : Instance) :
    Prop where
  /-- The rule's own target is among its targets, with the stem filled in. -/
  own : Text.replace one.marker found.stem one.target ∈ found.allTargets
  /-- It is the name, exactly if the marker is not repeated behind the stem, or the stem is the
  marker. -/
  named : Text.replace one.marker found.stem one.target = name ↔
    one.marker ∉ one.finish.toList ∨ found.stem = String.singleton one.marker
  /-- Both have the same targets exactly if they have the same marker. -/
  targets : found'.allTargets = found.allTargets ↔ two.marker = one.marker
  /-- Then they have the same prerequisites. -/
  prereqs : two.marker = one.marker → found'.prereqs = found.prereqs
  /-- Then one run of the recipe makes the targets of both, if it makes several. -/
  group : two.marker = one.marker → ∀ index index' extra extra' attributes attributes',
    Recipe.group? (Candidate.node other extra' attributes' ⟨index', .stem two, found'⟩) =
      Recipe.group? (Candidate.node name extra attributes ⟨index, .stem one, found⟩)

theorem Declaration.siblings_agree (declaration : Declaration) {one two : StemRule}
    (member : Rule.pattern (.stem one) ∈ declaration.rules)
    (member' : Rule.pattern (.stem two) ∈ declaration.rules) {name other : String}
    {found found' : Instance} (made : one.instance? name = some found)
    (made' : two.instance? other = some found') (stem : found'.stem = found.stem) :
    SiblingsAgree one two name other found found' := by
  have cut := cutFrom_of_mem declaration.declares member
  have cut' := cutFrom_of_mem declaration.declares member'
  obtain ⟨fits, -, prereqs, targets, recipe⟩ := one.instance?_eq_some made
  obtain ⟨fits', -, prereqs', targets', recipe'⟩ := two.instance?_eq_some made'
  have listed := declaration.wellRead.targets
  rw [cut.allTargets] at targets
  rw [cut'.allTargets] at targets'
  have bodies : two.toRuleBody = one.toRuleBody := cut'.body.trans cut.body.symm
  have agree : found'.allTargets = found.allTargets ↔ two.marker = one.marker := by
    rw [targets listed, targets' listed, stem]
    exact cut.targets_eq_iff cut' found.stem
  refine ⟨?_, cut.fill_eq_iff fits, agree, fun same => ?_, fun same => ?_⟩
  · rw [targets listed]
    exact List.mem_map_of_mem cut.target
  · rw [prereqs, prereqs', stem, same, bodies]
  · intro index index' extra extra' attributes attributes'
    have recipes : found'.recipe.isSome = found.recipe.isSome := by
      rw [recipe, recipe', bodies]
    have places : (PatternRule.stem two).body = (PatternRule.stem one).body := bodies
    unfold Recipe.group? Candidate.node
    dsimp only
    rw [agree.mpr same, recipes, places]

section Texts

variable {σ : Type} {source : Source σ}

/-- **The siblings of a text's stem rules agree as far as their markers do**: a header with a stem
rule has one for each of its targets; where two of them fit two names with the same stem, both fill
in the same targets exactly if they have the same marker, and then they have the same prerequisites
and share one run of the recipe; and the name is among the targets, filled in from the rule's own
one, if the marker is not repeated behind the stem. -/
theorem ofText_siblings {bindings : Bindings} {file text : String} {state after : σ}
    {ruleSet : RuleSet} (read : ofText source bindings file text state = .ok ruleSet after) :
    ∃ declarations : List Declaration, ruleSet.rules = declarations.flatMap (·.rules) ∧
      ∀ declaration ∈ declarations, ∀ one : StemRule,
        Rule.pattern (.stem one) ∈ declaration.rules →
        (∀ target ∈ one.allTargets, ∃ two : StemRule,
          Rule.pattern (.stem two) ∈ declaration.rules ∧ two.target = target) ∧
        ∀ two : StemRule, Rule.pattern (.stem two) ∈ declaration.rules →
          ∀ name other found found', one.instance? name = some found →
            two.instance? other = some found' → found'.stem = found.stem →
            SiblingsAgree one two name other found found' := by
  obtain ⟨declarations, rules⟩ := ofText_declares read
  refine ⟨declarations, rules, fun declaration _ one member => ⟨fun target among => ?_, ?_⟩⟩
  · rw [(cutFrom_of_mem declaration.declares member).allTargets] at among
    exact exists_sibling declaration.declares member among
  · exact fun two member' name other found found' made made' stem =>
      declaration.siblings_agree member member' made made' stem

end Texts

/-! ### Files that one run makes from a grammar -/

/-- A rule of a header with several targets, which are made from a grammar. -/
def grammarRule (targets : List String) (target start : String) (marker : Char)
    (finish : String) : StemRule where
  prereqs := ["%.y"]
  recipe := some "yacc"
  attributes := {}
  comparator := none
  location := ⟨"mkfile", 1⟩
  target := target
  start := start
  finish := finish
  marker := marker
  allowEmptyStem := false
  allTargets := targets

/-- What such a rule says about a name. -/
def grammarInstance (prereq : String) (targets : List String) : Instance where
  stem := "gram"
  groups := ["gram"]
  prereqs := [prereq]
  allTargets := targets
  recipe := some "yacc"

/-- The rule for a parser, whose header makes its table too. -/
def tabSource : StemRule :=
  grammarRule ["%.tab.c", "%.tab.h"] "%.tab.c" "" '%' ".tab.c"

/-- The rule for the table. -/
def tabHeader : StemRule :=
  grammarRule ["%.tab.c", "%.tab.h"] "%.tab.h" "" '%' ".tab.h"

/-- What both say about their files. -/
def tabInstance : Instance :=
  grammarInstance "gram.y" ["gram.tab.c", "gram.tab.h"]

theorem instance?_tabSource : tabSource.instance? "gram.tab.c" = some tabInstance := by
  decide +kernel

theorem instance?_tabHeader : tabHeader.instance? "gram.tab.h" = some tabInstance := by
  decide +kernel

/-- A parser and its table are made from a grammar, by one run. -/
theorem ofText_siblings_grammar :
    ofText definitionsSource ⟨[], []⟩ "mkfile" "%.tab.c %.tab.h: %.y\n\tyacc\n" () =
      .ok ⟨[.pattern (.stem tabSource), .pattern (.stem tabHeader)], []⟩ () ∧
    tabSource.instance? "gram.tab.c" = some tabInstance ∧
    tabHeader.instance? "gram.tab.h" = some tabInstance ∧
    SiblingsAgree tabSource tabHeader "gram.tab.c" "gram.tab.h" tabInstance tabInstance := by
  have read : ofText definitionsSource ⟨[], []⟩ "mkfile" "%.tab.c %.tab.h: %.y\n\tyacc\n" () =
      .ok ⟨[.pattern (.stem tabSource), .pattern (.stem tabHeader)], []⟩ () := rfl
  refine ⟨read, instance?_tabSource, instance?_tabHeader, ?_⟩
  obtain ⟨declarations, rules, agree⟩ := ofText_siblings read
  have here : Rule.pattern (.stem tabSource) ∈ declarations.flatMap (·.rules) := rules ▸ .head _
  obtain ⟨declaration, among, member⟩ := List.mem_flatMap.mp here
  obtain ⟨siblings, agree⟩ := agree declaration among tabSource member
  -- The rule for the table stands in the same header, as it is the only one with its target.
  obtain ⟨sibling, member', same⟩ := siblings "%.tab.h" (by decide)
  have there : Rule.pattern (.stem sibling) ∈
      [Rule.pattern (.stem tabSource), .pattern (.stem tabHeader)] := by
    rw [show [Rule.pattern (.stem tabSource), .pattern (.stem tabHeader)] = _ from rules]
    exact List.mem_flatMap.mpr ⟨declaration, among, member'⟩
  have second : sibling = tabHeader := by
    rcases List.mem_cons.mp there with first | later
    · cases first
      exact absurd same (by decide)
    · cases List.mem_singleton.mp later
      rfl
  rw [second] at member'
  exact agree tabHeader member' _ _ _ _ instance?_tabSource instance?_tabHeader rfl

/-- **Siblings are alike**: every name is among the targets of its instance, and siblings have the
same targets and the same prerequisites at one stem. -/
def SiblingsAlike (rules : List Rule) : Prop :=
  ∀ one two : StemRule, Rule.pattern (.stem one) ∈ rules → Rule.pattern (.stem two) ∈ rules →
    ∀ name other found found', one.instance? name = some found →
      two.instance? other = some found' → found'.stem = found.stem →
      name ∈ found.allTargets ∧ found'.allTargets = found.allTargets ∧
        found'.prereqs = found.prereqs

/-- A rule for a parser whose header has another marker for its table. -/
def mixedSource : StemRule :=
  grammarRule ["%.c", "&.h"] "%.c" "" '%' ".c"

/-- The rule for that table. -/
def mixedHeader : StemRule :=
  grammarRule ["%.c", "&.h"] "&.h" "" '&' ".h"

theorem instance?_mixedSource :
    mixedSource.instance? "gram.c" = some (grammarInstance "gram.y" ["gram.c", "&.h"]) := by
  decide +kernel

theorem instance?_mixedHeader :
    mixedHeader.instance? "gram.h" = some (grammarInstance "%.y" ["%.c", "gram.h"]) := by
  decide +kernel

/-- A rule for a parser in a directory that is named like it: the marker is repeated. -/
def nestedSource : StemRule :=
  grammarRule ["%/%.c", "%/%.h"] "%/%.c" "" '%' "/%.c"

/-- The rule for its table. -/
def nestedHeader : StemRule :=
  grammarRule ["%/%.c", "%/%.h"] "%/%.h" "" '%' "/%.h"

theorem instance?_nestedSource : nestedSource.instance? "gram/%.c" =
    some (grammarInstance "gram.y" ["gram/gram.c", "gram/gram.h"]) := by
  decide +kernel

/-- A header whose targets have different markers has siblings that fill in different targets, and
where a marker is repeated a name may not be among its own targets. -/
theorem not_siblingsAlike :
    ofText definitionsSource ⟨[], []⟩ "mkfile" "%.c &.h: %.y\n\tyacc\n" () =
      .ok ⟨[.pattern (.stem mixedSource), .pattern (.stem mixedHeader)], []⟩ () ∧
    ¬ SiblingsAlike [.pattern (.stem mixedSource), .pattern (.stem mixedHeader)] ∧
    ofText definitionsSource ⟨[], []⟩ "mkfile" "%/%.c %/%.h: %.y\n\tyacc\n" () =
      .ok ⟨[.pattern (.stem nestedSource), .pattern (.stem nestedHeader)], []⟩ () ∧
    ¬ SiblingsAlike [.pattern (.stem nestedSource), .pattern (.stem nestedHeader)] := by
  refine ⟨rfl, fun alike => ?_, rfl, fun alike => ?_⟩
  · have agree := alike mixedSource mixedHeader (.head _) (.tail _ (.head _)) _ _ _ _
      instance?_mixedSource instance?_mixedHeader rfl
    exact absurd agree.2.1 (by decide)
  · have agree := alike nestedSource nestedSource (.head _) (.head _) _ _ _ _
      instance?_nestedSource instance?_nestedSource rfl
    exact absurd agree.1 (by decide)

end RuleFile

end BuildSystem
