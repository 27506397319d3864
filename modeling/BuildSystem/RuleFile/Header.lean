/-
**Rule headers.**

A header has the form `targets : prerequisites` or `targets : attributes : prerequisites`.

* `RuleFile.Traits` — what the attributes of a header say.
* `RuleFile.Header` — a header with the lines of its recipe.
* `RuleFile.Header.rules` — the rules that a header declares.
-/

import BuildSystem.Regex.Written
import BuildSystem.Rule
import BuildSystem.Variable.Expansion
import BuildSystem.Variable.Scan

namespace BuildSystem

/-- The names that the stem of a rule and its groups have in a recipe and in prerequisites. -/
def stemNames : List String :=
  ["stem", "stem1", "stem2", "stem3", "stem4", "stem5", "stem6", "stem7", "stem8", "stem9"]

namespace RuleFile

/-- The error of a line of a rule file. -/
def malformed (message : String) (location : Location) : Failure :=
  .build (.malformedRuleFile message location.file location.line)

/-- Whether a character marks the stem of a target. -/
def isMarker (c : Char) : Bool :=
  c == '%' || c == '&'

/-- What the attributes of a header say. -/
structure Traits where
  attributes : Attributes := {}
  comparator : Option String := none
  /-- The targets are regular expressions (`R`). -/
  regex : Bool := false
  /-- Stems may be empty (`Z`). -/
  allowEmptyStem : Bool := false
deriving DecidableEq, Repr

/-- Reads the letters of the attributes; what follows the letter `P` is the comparator. -/
def readTraits (location : Location) (traits : Traits) : List Char → Except Failure Traits
  | [] => .ok traits
  | 'P' :: rest =>
    let command := Chars.strip rest
    if command.isEmpty then .error (malformed "attribute P needs a comparator command" location)
    else
      .ok { traits with
        attributes := { traits.attributes with comparator := true }
        comparator := some (String.ofList command) }
  | c :: rest =>
    let attributes := traits.attributes
    match c with
    | 'R' => readTraits location { traits with regex := true } rest
    | 'Z' => readTraits location { traits with allowEmptyStem := true } rest
    | 'V' =>
      readTraits location { traits with attributes := { attributes with virtual := true } } rest
    | 'Q' =>
      readTraits location { traits with attributes := { attributes with quiet := true } } rest
    | 'D' =>
      readTraits location { traits with attributes := { attributes with deleteOnFailure := true } }
        rest
    | 'E' =>
      readTraits location { traits with attributes := { attributes with continueOnError := true } }
        rest
    | 'N' =>
      readTraits location { traits with attributes := { attributes with forceUpdate := true } } rest
    | c =>
      .error (malformed ("unknown attribute " ++ Text.quoted (String.singleton c)) location)

/-- A header with the lines of its recipe that have been read. -/
structure Header where
  targets : List String
  prereqs : List String
  traits : Traits
  location : Location
  recipe : List String := []
deriving DecidableEq, Repr

namespace Header

/-- What all rules of the header have. -/
def body (header : Header) : RuleBody where
  prereqs := header.prereqs
  recipe := if header.recipe.isEmpty then none else some (Text.join "\n" header.recipe)
  attributes := header.traits.attributes
  comparator := header.traits.comparator
  location := header.location

/-- The rule for a target that is a regular expression.  Of the message about an expression that is
not well formed the reason, which would follow the quoted expression behind a colon, is left out. -/
def regexRule (header : Header) (target : String) : Except Failure Rule :=
  match Regex.read target with
  | .ok regex =>
    .ok (.pattern (.regex
      { header.body with target := target, regex := regex, allTargets := header.targets }))
  | .error .malformed =>
    .error (malformed ("bad regular expression " ++ Text.quoted target) header.location)
  | .error (.excessive kind message) => .error (.raised kind message)

/-- The rule for a target with a marker; the first marker stands for the stem. -/
def stemRule? (header : Header) (target : String) : Option Rule :=
  match target.toList.span fun c => !isMarker c with
  | (_, []) => none
  | (start, marker :: finish) =>
    some (.pattern (.stem
      { header.body with
        target := target
        start := String.ofList start
        finish := String.ofList finish
        marker := marker
        allowEmptyStem := header.traits.allowEmptyStem
        allTargets := header.targets }))

/-- Whether a target has a marker. -/
def isMarked (target : String) : Bool :=
  target.toList.any isMarker

/-- The rules that a header declares: one for each target that is a regular expression or has a
marker, and a common one for plain targets. -/
def rules (header : Header) : Except Failure (List Rule) :=
  if header.traits.regex then header.targets.mapM header.regexRule
  else if header.targets.any isMarked then
    if header.targets.all isMarked then .ok (header.targets.filterMap header.stemRule?)
    else
      .error (malformed "cannot mix meta-rule and plain targets in one header" header.location)
  else .ok [.explicit { header.body with targets := header.targets }]

end Header

variable {σ : Type}

/-- An error of a line, as a failure. -/
def refuse {α : Type} (message : String) (location : Location) : Action σ α :=
  throw (malformed message location)

/-- Gives the errors of an expansion the place of the line in which they arise. -/
def located {α : Type} (location : Location) (action : Action σ α) : Action σ α :=
  tryCatch action fun
    | .expansion error => refuse error.message location
    | failure => throw failure

/-- Reads a header.  In the prerequisites of a rule for targets of a common form the names of the
stem stay as they are written. -/
def readHeader (expander : Expander σ) (location : Location) (body : List Char) :
    Action σ Header := do
  let parts ← located location (expanded (Chars.splitUnquoted (· == ':') body))
  let (targetPart, traitPart, prereqPart) ← match parts with
    | [targets, prereqs] => pure (targets, [], prereqs)
    | [targets, traits, prereqs] => pure (targets, traits, prereqs)
    | [] | [_] =>
      refuse ("expected an assignment, rule header or include: " ++
        Text.quoted (String.ofList body)) location
    | _ => refuse "malformed rule header: too many ':'" location
  let targets ← located location (expander.words (String.ofList targetPart))
  if targets.isEmpty then refuse "rule header has no targets" location
  let traits ← accepted (readTraits location {} (Chars.strip traitPart))
  let keep := if traits.regex || targets.any Header.isMarked then stemNames else []
  let prereqs ← located location
    ({ expander with keep := keep }.words (String.ofList prereqPart))
  return { targets, prereqs, traits, location }

end RuleFile

end BuildSystem
