/-
**Rules for targets of a common form, applied to a name.**

* `stemValues` — the values of `stem` and `stem1` to `stem9`.
* `StemRule.stem?` — the stem with which a name fits a stem rule.
* `PatternRule.instance?` — what a rule says about one name: its prerequisites, its recipe, and the
  targets that one run of the recipe makes.
* `candidates` — the usable rules that fit a name, in order, without those that are already in use.
-/

import BuildSystem.Regex.Match
import BuildSystem.Rule
import BuildSystem.RuleFile.Header

namespace BuildSystem

/-- The values of the stem and of the groups; a group that does not exist is empty. -/
def stemValues (stem : String) (groups : List String) : Environment :=
  ("stem", stem) :: stemNames.tail.zipIdx.map fun (name, index) => (name, groups[index]?.getD "")

/-- What a rule for targets of a common form says about one name. -/
structure Instance where
  stem : String
  groups : List String
  prereqs : List String
  allTargets : List String
  recipe : Option String
deriving DecidableEq, Repr

/-- The stem with which a name fits the rule. -/
def StemRule.stem? (rule : StemRule) (name : String) : Option String :=
  match Chars.between rule.start.toList rule.finish.toList name.toList with
  | none => none
  | some stem =>
    if stem.isEmpty && !rule.allowEmptyStem then none
    else if rule.marker = '&' && stem.any (fun c => c == '/' || c == '.') then none
    else some (String.ofList stem)

/-- What a stem rule says about one name. -/
def StemRule.instance? (rule : StemRule) (name : String) : Option Instance :=
  match rule.stem? name with
  | none => none
  | some stem =>
    let values := fun name => (stemValues stem [stem]).get? name
    let targets := rule.allTargets.map (Text.replace rule.marker stem)
    some {
      stem := stem
      groups := [stem]
      prereqs := rule.prereqs.map fun prereq => bind values (Text.replace rule.marker stem prereq)
      allTargets := if targets.isEmpty then [name] else targets
      recipe := rule.recipe.map (bind values) }

/-- Replaces a backslash and a digit from one to nine by what the group of that number has
matched. -/
def Chars.bindGroups (groups : List (List Char)) : List Char → List Char
  | [] => []
  | '\\' :: c :: rest =>
    if '1' ≤ c ∧ c ≤ '9' then groups[c.toNat - 49]?.getD [] ++ bindGroups groups rest
    else '\\' :: bindGroups groups (c :: rest)
  | c :: rest => c :: bindGroups groups rest

/-- Replaces references to groups by what the groups have matched. -/
def bindGroups (groups : List String) (text : String) : String :=
  String.ofList (Chars.bindGroups (groups.map String.toList) text.toList)

/-- What a rule with a regular expression says about one name.  Its stem is what the first group has
matched, or the whole name if there are no groups. -/
def RegexRule.instance? (rule : RegexRule) (name : String) : Option Instance :=
  match rule.regex.matchAll? name.toList with
  | none => none
  | some found =>
    let groups := found.map String.ofList
    let stem := groups.head?.getD name
    let values := fun name => (stemValues stem groups).get? name
    let fill := fun text => bind values (bindGroups groups text)
    some {
      stem := stem
      groups := groups
      prereqs := rule.prereqs.map fill
      allTargets := [name]
      recipe := rule.recipe.map fill }

/-- What a rule for targets of a common form says about one name. -/
def PatternRule.instance? (name : String) : PatternRule → Option Instance
  | stem rule => rule.instance? name
  | regex rule => rule.instance? name

/-- A rule that fits a name, with its place among the rules and what it says about the name. -/
structure Candidate where
  index : Nat
  rule : PatternRule
  found : Instance
deriving DecidableEq, Repr

/-- The usable rules that fit a name, in order, without those whose places are in `skip`. -/
def candidates (rules : List PatternRule) (name : String) (skip : List Nat) : List Candidate :=
  rules.zipIdx.filterMap fun (rule, index) =>
    if rule.isUsable && !skip.contains index then
      (rule.instance? name).map fun found => ⟨index, rule, found⟩
    else none

end BuildSystem
