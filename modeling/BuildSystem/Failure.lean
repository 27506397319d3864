/-
**What can go wrong.**

* `ExpansionError` — a text whose quotes, references or substitutions are not well formed.
* `BuildError` — what the build itself reports to its user, with a title, details and a hint.
* `Failure` — everything that can end a phase of a build: its own errors, refusals of the system,
  failures that a command raises, and an interruption.
* `Action` — a computation on the state of the outside world that may fail and keeps the state.
-/

import BuildSystem.ShellWords
import BuildSystem.Text.Quoted

namespace BuildSystem

/-- Why a text cannot be expanded. -/
inductive ExpansionError where
  /-- A quotation without an end. -/
  | unterminatedQuote
  /-- A reference in braces without an end. -/
  | unterminatedReference
  /-- A command in braces without an end. -/
  | unterminatedCommand
  /-- A reference with a colon and no equals sign behind it. -/
  | badSubstitution (body : String)
deriving DecidableEq, Repr

/-- The wording of the error. -/
def ExpansionError.message : ExpansionError → String
  | unterminatedQuote => "unterminated quote"
  | unterminatedReference => "unterminated '$\x7b'"
  | unterminatedCommand => "unterminated '`\x7b'"
  | badSubstitution body => "bad substitution $\x7b" ++ body ++ "\x7d"

/-- An error that the build reports to its user. -/
inductive BuildError where
  /-- A rule file that cannot be read; `line` is zero if the file as a whole is meant. -/
  | malformedRuleFile (message file : String) (line : Int)
  /-- A target that nothing can make, and the target that asked for it. -/
  | noRule (target : String) (neededBy : Option String)
  /-- Targets of which each needs the next one. -/
  | cycle (names : List String)
  /-- A recipe that failed. -/
  | recipeFailed (target : String) (exitCode : Int) (output : String)
  /-- A setting of the environment that has no meaning. -/
  | invalidSetting (name message : String)
  /-- A change of a status that is final. -/
  | statusSettled (target current requested : String)
deriving DecidableEq, Repr

namespace BuildError

/-- The wording of the error. -/
def message : BuildError → String
  | malformedRuleFile message file line =>
    if line = 0 then file ++ ": " ++ message
    else file ++ ":" ++ toString line ++ ": " ++ message
  | noRule target neededBy =>
    let base := "don't know how to make '" ++ target ++ "'"
    match neededBy with
    | some name => if name.isEmpty then base else base ++ " (needed by '" ++ name ++ "')"
    | none => base
  | cycle names => "circular dependency: " ++ Text.join " -> " names
  | recipeFailed target exitCode _ =>
    "recipe for '" ++ target ++ "' failed (exit=" ++ toString exitCode ++ ")"
  | invalidSetting name message => name ++ ": " ++ message
  | statusSettled target current requested =>
    "node '" ++ target ++ "' is already " ++ current ++ "; cannot become " ++ requested

/-- The heading under which the error is reported. -/
def title : BuildError → String
  | malformedRuleFile .. => "Malformed rule file"
  | noRule .. => "No rule to make target"
  | cycle .. => "Circular dependency"
  | invalidSetting .. => "Invalid configuration"
  | recipeFailed .. | statusSettled .. => "Build failed"

/-- Further lines of the report. -/
def details : BuildError → List String
  | noRule _ (some name) => if name.isEmpty then [] else ["needed by: " ++ name]
  | cycle names =>
    List.zipWith (fun target needed => target ++ " needs " ++ needed) names names.tail
  | _ => []

/-- What the user may do about the error. -/
def suggestion : BuildError → Option String
  | noRule target _ => some ("Create '" ++ target ++ "' or add a rule that makes it.")
  | cycle _ => some "Remove one of these prerequisites to break the cycle."
  | invalidSetting name _ => some ("Check the " ++ name ++ " environment variable.")
  | _ => none

end BuildError

/-- Everything that can end a phase of a build. -/
inductive Failure where
  /-- An error of the build itself. -/
  | build (error : BuildError)
  /-- A text that cannot be expanded. -/
  | expansion (error : ExpansionError)
  /-- A command line that has no words. -/
  | unsplittable (error : ShellWords.SplitError)
  /-- A program that the system does not find, in the system's words. -/
  | programMissing (reason : String)
  /-- A file that the system protects, in the system's words. -/
  | accessDenied (reason : String)
  /-- A failure of the given kind that a command raises, or a regular expression, or the name or the
  text of a file. -/
  | raised (kind message : String)
  /-- An interruption by the user. -/
  | interrupted (message : String)
  /-- Rule files that include each other beyond every bound. -/
  | nestedTooDeeply
deriving DecidableEq, Repr

namespace Failure

/-- The wording of the failure. -/
def message : Failure → String
  | build error => error.message
  | expansion error => error.message
  | unsplittable error => error.message
  | programMissing reason | accessDenied reason => reason
  | raised _ message | interrupted message => message
  | nestedTooDeeply => "rule files nested too deeply"

/-- The word under which the failure is reported when it ends a job. -/
def label : Failure → String
  | build (.malformedRuleFile ..) => "ParseError"
  | build (.noRule ..) => "NoRuleError"
  | build (.cycle _) => "CycleError"
  | build (.recipeFailed ..) => "RecipeFailure"
  | build (.invalidSetting ..) => "ConfigError"
  | build (.statusSettled ..) => "StatusError"
  | expansion _ => "ExpansionError"
  | unsplittable _ => "ValueError"
  | programMissing _ => "FileNotFoundError"
  | accessDenied _ => "PermissionError"
  | raised kind _ => kind
  | interrupted _ => "KeyboardInterrupt"
  | nestedTooDeeply => "RecursionError"

/-- Whether the failure is an interruption, which no job contains. -/
def isInterruption : Failure → Bool
  | interrupted _ => true
  | _ => false

end Failure

/-- A computation on the state of the outside world that may fail; the state outlives a failure. -/
abbrev Action (σ : Type) := EStateM Failure σ

/-- A result that may be an error of an expansion, as an action. -/
def expanded {σ α : Type} : Except ExpansionError α → Action σ α
  | .ok result => pure result
  | .error error => throw (.expansion error)

/-- A result that may be a failure, as an action. -/
def accepted {σ α : Type} : Except Failure α → Action σ α
  | .ok result => pure result
  | .error failure => throw failure

section Accepted

variable {σ α : Type} {found : Except Failure α} {state : σ}

theorem accepted_eq_of_ok {result : α} (made : found = .ok result) :
    (accepted found : Action σ α) state = .ok result state := by
  rw [made]
  rfl

theorem accepted_eq_of_error {failure : Failure} (failed : found = .error failure) :
    (accepted found : Action σ α) state = .error failure state := by
  rw [failed]
  rfl

end Accepted

end BuildSystem
