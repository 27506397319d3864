/-
**Rules.**

* `Attributes` — the attributes that a rule header can give, and their union.
* `ExplicitRule` — a rule for the targets it names.
* `StemRule` — a rule for all targets that consist of a fixed beginning, a stem and a fixed end.
* `RegexRule` — a rule for all targets that a regular expression matches as a whole.
* `RuleSet` — everything that a rule file declares, in order.
-/

import BuildSystem.Regex.Expression
import BuildSystem.Variable.Assignment

namespace BuildSystem

/-- The attributes of a rule. -/
structure Attributes where
  /-- The target is no file (`V`). -/
  virtual : Bool := false
  /-- The recipe is not echoed (`Q`). -/
  quiet : Bool := false
  /-- The target is removed if the recipe fails (`D`). -/
  deleteOnFailure : Bool := false
  /-- A failure of the recipe does not stop the build (`E`). -/
  continueOnError : Bool := false
  /-- The target is always updated (`N`). -/
  forceUpdate : Bool := false
  /-- A command tells whether a prerequisite calls for an update (`P`). -/
  comparator : Bool := false
deriving DecidableEq, Repr

namespace Attributes

/-- The attributes that one of two rules gives. -/
def union (first second : Attributes) : Attributes where
  virtual := first.virtual || second.virtual
  quiet := first.quiet || second.quiet
  deleteOnFailure := first.deleteOnFailure || second.deleteOnFailure
  continueOnError := first.continueOnError || second.continueOnError
  forceUpdate := first.forceUpdate || second.forceUpdate
  comparator := first.comparator || second.comparator

/-- The letters of the attributes, in alphabetical order. -/
def letters (attributes : Attributes) : String :=
  String.ofList <| [(attributes.deleteOnFailure, 'D'), (attributes.continueOnError, 'E'),
    (attributes.forceUpdate, 'N'), (attributes.comparator, 'P'), (attributes.quiet, 'Q'),
    (attributes.virtual, 'V')].filterMap fun (given, letter) => if given then some letter else none

end Attributes

/-- A line of a rule file. -/
structure Location where
  file : String
  line : Nat
deriving DecidableEq, Repr

/-- A location as it is shown. -/
def Location.shown (location : Location) : String :=
  location.file ++ ":" ++ toString location.line

/-- What all kinds of rules have. -/
structure RuleBody where
  prereqs : List String
  /-- The commands that make the target. -/
  recipe : Option String
  attributes : Attributes
  /-- The command that compares the target with a prerequisite. -/
  comparator : Option String
  /-- Where the header of the rule stands. -/
  location : Location
deriving DecidableEq, Repr

/-- A rule for the targets it names. -/
structure ExplicitRule extends RuleBody where
  targets : List String
deriving DecidableEq, Repr

/-- A rule for all targets that consist of a fixed beginning, a stem and a fixed end. -/
structure StemRule extends RuleBody where
  /-- The target with its marker. -/
  target : String
  /-- What stands before the marker. -/
  start : String
  /-- What stands behind the marker. -/
  finish : String
  /-- The marker: `%` for any stem, `&` for one without slashes and dots. -/
  marker : Char
  /-- Whether the stem may be empty. -/
  allowEmptyStem : Bool
  /-- All targets of the header. -/
  allTargets : List String
deriving DecidableEq, Repr

/-- A rule for all targets that a regular expression matches as a whole. -/
structure RegexRule extends RuleBody where
  /-- The expression as it is written. -/
  target : String
  regex : Regex
  /-- All targets of the header. -/
  allTargets : List String
deriving DecidableEq, Repr

/-- A rule for targets of a common form. -/
inductive PatternRule where
  | stem (rule : StemRule)
  | regex (rule : RegexRule)
deriving DecidableEq, Repr

namespace PatternRule

/-- What the rule has in common with all others. -/
def body : PatternRule → RuleBody
  | stem rule => rule.toRuleBody
  | regex rule => rule.toRuleBody

/-- The target as it is written. -/
def target : PatternRule → String
  | stem rule => rule.target
  | regex rule => rule.target

/-- Whether the rule can be used to make a target: it has a recipe or always updates. -/
def isUsable (rule : PatternRule) : Bool :=
  rule.body.recipe.isSome || rule.body.attributes.forceUpdate

end PatternRule

/-- A rule of a rule file. -/
inductive Rule where
  | explicit (rule : ExplicitRule)
  | pattern (rule : PatternRule)
deriving DecidableEq, Repr

/-- Everything that a rule file declares. -/
structure RuleSet where
  /-- The rules, in the order of the file. -/
  rules : List Rule
  /-- The values of the variables at the end of the file. -/
  values : Values
deriving DecidableEq, Repr

namespace RuleSet

/-- The explicit rules, in the order of the file. -/
def explicitRules (ruleSet : RuleSet) : List ExplicitRule :=
  ruleSet.rules.filterMap fun
    | .explicit rule => some rule
    | .pattern _ => none

/-- The rules for targets of a common form, in the order of the file. -/
def patterns (ruleSet : RuleSet) : List PatternRule :=
  ruleSet.rules.filterMap fun
    | .explicit _ => none
    | .pattern rule => some rule

/-- The explicit rules that name a target. -/
def rulesFor (ruleSet : RuleSet) (name : String) : List ExplicitRule :=
  ruleSet.explicitRules.filter (·.targets.contains name)

/-- The targets that explicit rules name, each once, in the order of their first occurrence. -/
def explicitTargets (ruleSet : RuleSet) : List String :=
  ruleSet.explicitRules.foldl
    (fun found rule => rule.targets.foldl
      (fun found target => if found.contains target then found else found ++ [target]) found) []

/-- The targets to make if none is asked for: the first one of the first explicit rule. -/
def defaultTargets (ruleSet : RuleSet) : List String :=
  match ruleSet.explicitRules with
  | [] => []
  | rule :: _ => rule.targets.take 1

/-- For every explicit target the places of its rules among all rules, once for every time that a
rule names the target. -/
def explicitIndex (ruleSet : RuleSet) : Table String (List Nat) :=
  let mentions := ruleSet.rules.zipIdx.flatMap fun (rule, index) =>
    match rule with
    | .explicit rule => rule.targets.map fun target => (target, index)
    | .pattern _ => []
  mentions.foldl (fun table (target, index) =>
    table.set target ((table.get? target).getD [] ++ [index])) []

/-- The places of the rules for targets of a common form among all rules. -/
def patternIndex (ruleSet : RuleSet) : List Nat :=
  ruleSet.rules.zipIdx.filterMap fun (rule, index) =>
    match rule with
    | .explicit _ => none
    | .pattern _ => some index

end RuleSet

end BuildSystem
