/-
**The options of a build.**

* `BuildOptions` — everything that one build needs to know.
* `workersOf`, `shellOf` — the number of workers and the shell that an environment asks for.
* `BuildOptions.ofEnvironment` — the options of an environment, with some of them overridden.
-/

import BuildSystem.Host
import BuildSystem.Text.Integer

namespace BuildSystem

/-- The rule file that is read if no other is named. -/
def defaultRuleFile : String := "mkfile"

/-- The shell that is used if no other is named. -/
def defaultShell : String := "sh"

/-- The variable with the number of workers. -/
def workersVariable : String := "NPROC"

/-- The variable with the shell. -/
def shellVariable : String := "MKSHELL"

/-- Everything that one build needs to know. -/
structure BuildOptions where
  ruleFile : String := defaultRuleFile
  targets : List String := []
  /-- The variables that the command line sets. -/
  assignments : Environment := []
  /-- Show recipes and run nothing. -/
  dryRun : Bool := false
  /-- Build everything. -/
  forceAll : Bool := false
  /-- Set the times of targets instead of running recipes. -/
  touch : Bool := false
  /-- Go on after a failure with what does not depend on it. -/
  keepGoing : Bool := false
  /-- Do not build missing intermediate files for their own sake. -/
  ignoreMissing : Bool := false
  /-- Show why each target is rebuilt. -/
  explain : Bool := false
  /-- Show traces. -/
  debug : Bool := false
  workers : Int := 1
  shell : List String := [defaultShell]
deriving DecidableEq, Repr

/-- The number of workers that an environment asks for: a positive number, and one if nothing is
given. -/
def workersOf (environment : Environment) : Except Failure Int :=
  let given := Text.strip ((environment.get? workersVariable).getD "1")
  let text := if given.isEmpty then "1" else given
  let refusal := Failure.build
    (.invalidSetting workersVariable ("must be a positive integer, got " ++ Text.quoted text))
  match Text.integer? text with
  | some number => if number < 1 then .error refusal else .ok number
  | none => .error refusal

/-- The shell that an environment asks for, as the words of a command line. -/
def shellOf (environment : Environment) : Except Failure (List String) :=
  let given := (environment.get? shellVariable).getD ""
  match ShellWords.split (if given.isEmpty then defaultShell else given) with
  | .error error => .error (.unsplittable error)
  | .ok [] => .ok [defaultShell]
  | .ok words => .ok words

/-- A changed option. -/
inductive OptionChange where
  | ruleFile (name : String)
  | targets (names : List String)
  | assignments (values : Environment)
  | dryRun (value : Bool)
  | forceAll (value : Bool)
  | touch (value : Bool)
  | keepGoing (value : Bool)
  | ignoreMissing (value : Bool)
  | explain (value : Bool)
  | debug (value : Bool)
  | workers (count : Int)
  | shell (words : List String)
  /-- An option that does not exist. -/
  | unknown (name : String)
deriving DecidableEq, Repr

namespace BuildOptions

/-- The options after a change. -/
def change (options : BuildOptions) : OptionChange → Except Failure BuildOptions
  | .ruleFile name => .ok { options with ruleFile := name }
  | .targets names => .ok { options with targets := names }
  | .assignments values => .ok { options with assignments := values }
  | .dryRun value => .ok { options with dryRun := value }
  | .forceAll value => .ok { options with forceAll := value }
  | .touch value => .ok { options with touch := value }
  | .keepGoing value => .ok { options with keepGoing := value }
  | .ignoreMissing value => .ok { options with ignoreMissing := value }
  | .explain value => .ok { options with explain := value }
  | .debug value => .ok { options with debug := value }
  | .workers count => .ok { options with workers := count }
  | .shell words => .ok { options with shell := words }
  | .unknown name => .error (.build (.invalidSetting name "unknown build option"))

/-- The options of an environment, with changes that are made in order. -/
def ofEnvironment (environment : Environment) (changes : List OptionChange) :
    Except Failure BuildOptions := do
  let workers ← workersOf environment
  let shell ← shellOf environment
  changes.foldlM change { workers, shell }

/-- What the user of the build wants to see. -/
def console (options : BuildOptions) : Console :=
  ⟨options.debug, options.explain⟩

end BuildOptions

end BuildSystem
