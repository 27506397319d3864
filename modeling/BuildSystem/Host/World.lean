/-
**A world in memory.**

A world holds files with times and texts, an environment, a clock that stands still, the programs
that exist, and a script that says what each command does.  It records every command that is run
and everything that is printed.

* `World.Effect`, `World.Script` — what commands do.
* `World.host` — a world as the system of a build.
-/

import BuildSystem.FileName
import BuildSystem.Host

namespace BuildSystem

namespace World

/-- A file of a world. -/
structure File where
  time : Int := 1
  text : String := ""
  /-- Why the system refuses the text, if it does. -/
  unreadable : Option String := none
  /-- What is wrong with the encoding of the text, if anything is. -/
  undecodable : Option String := none
  /-- A locked file is neither touched nor removed. -/
  locked : Bool := false
deriving DecidableEq, Repr

/-- A command with its environment. -/
structure Command where
  words : List String
  environment : Environment
deriving DecidableEq, Repr

/-- The files that a command makes, named by its environment. -/
inductive Product where
  /-- The target. -/
  | target
  /-- All targets of the recipe. -/
  | allTargets
deriving DecidableEq, Repr

/-- What a command does, in this order: it removes files, sets the times of files, makes its
product, and fails or ends. -/
structure Effect where
  removed : List String := []
  /-- Files and their new times; without a time the clock counts. -/
  written : List (String × Option Int) := []
  product : Option Product := none
  failure : Option Failure := none
  exitCode : Int := 0
  output : String := ""
  /-- How long a job with this effect takes. -/
  cost : Int := 1
deriving DecidableEq, Repr

/-- What commands do: by the target for which they run, or else by their last word. -/
structure Script where
  byTarget : Table String Effect := []
  byCommand : Table String Effect := []
  otherwise : Effect := {}
deriving DecidableEq, Repr

/-- What a command does. -/
def Script.effect (script : Script) (command : Command) : Effect :=
  let byTarget := (command.environment.get? "target").bind fun name => script.byTarget.get? name
  let byCommand := command.words.getLast?.bind fun word => script.byCommand.get? word
  (byTarget.or byCommand).getD script.otherwise

/-- How long the job of a target takes. -/
def Script.cost (script : Script) (target : String) : Int :=
  ((script.byTarget.get? target).map (·.cost)).getD 1

end World

/-- A world in memory. -/
structure World where
  /-- The files, by their canonical names. -/
  files : Table String World.File := []
  environment : Environment := []
  now : Int := 1000000
  programs : List String := ["sh"]
  script : World.Script := {}
  /-- The commands that have been run, in order. -/
  commands : List World.Command := []
  /-- What has been printed, in order. -/
  printed : List Printed := []
deriving DecidableEq, Repr

namespace World

/-- The file of a name. -/
def file? (world : World) (name : String) : Option File :=
  world.files.get? (FileName.canonical name)

/-- Puts a file into the world; there is none with an empty name. -/
def put (world : World) (name : String) (file : File) : World :=
  let name := FileName.canonical name
  if name.isEmpty then world else { world with files := world.files.set name file }

/-- Sets the time of a file, creating it if it is missing. -/
def setTime (world : World) (name : String) (time : Int) : World :=
  world.put name { (world.file? name).getD {} with time := time }

/-- Takes a file out of the world. -/
def delete (world : World) (name : String) : World :=
  { world with files := world.files.erase (FileName.canonical name) }

/-- The refusal to change a locked file. -/
def protection (name : String) : Failure :=
  .accessDenied ("[Errno 13] Permission denied: " ++ Text.quoted name)

/-- Changes a file, unless it is locked. -/
def change (name : String) (alter : World → World) : Action World Unit := do
  if ((← get).file? name).any (·.locked) then throw (protection name) else modify alter

/-- Sets the time of a file to the clock. -/
def touch (name : String) : Action World Unit :=
  change name fun world => world.setTime name world.now

/-- Removes a file, if there is one. -/
def remove (name : String) : Action World Unit :=
  change name fun world => world.delete name

/-- Makes the product of a command. -/
def make (environment : Environment) (product : Product) (world : World) : World :=
  let names := match product with
    | .target => (environment.get? "target").toList
    | .allTargets =>
      match environment.get? "alltarget" with
      | some names => (Chars.splitWhere (· == ' ') names.toList).map String.ofList
      | none => []
  names.foldl (fun world name => world.setTime name world.now) world

/-- Lets a command do what its script says. -/
def perform (command : Command) (effect : Effect) : Action World Completion := do
  effect.removed.forM remove
  modify fun world =>
    effect.written.foldl (fun world (name, time) => world.setTime name (time.getD world.now)) world
  if let some product := effect.product then modify (make command.environment product)
  match effect.failure with
  | some failure => throw failure
  | none => return ⟨effect.exitCode, effect.output⟩

/-- Runs a command whose program exists. -/
def run (words : List String) (environment : Environment) : Action World Completion := do
  let world ← get
  let program := words.headD ""
  if world.programs.contains program then
    let command : Command := ⟨words, environment⟩
    set { world with commands := world.commands ++ [command] }
    perform command (world.script.effect command)
  else throw (.programMissing ("[Errno 2] No such file or directory: " ++ Text.quoted program))

/-- A program that exists does what the script says. -/
theorem run_eq {world : World} {words : List String} (environment : Environment)
    (there : world.programs.contains (words.headD "") = true) :
    run words environment world =
      perform ⟨words, environment⟩ (world.script.effect ⟨words, environment⟩)
        { world with commands := world.commands ++ [⟨words, environment⟩] } := by
  show (if world.programs.contains (words.headD "") = true then _ else _ :
    Action World Completion) world = _
  rw [if_pos there]
  rfl

/-- The text of a rule file. -/
def readText (name : String) (world : World) : Except Unread String :=
  match world.file? name with
  | none => .error (.refused "No such file or directory")
  | some file =>
    match file.unreadable, file.undecodable with
    | some reason, _ => .error (.refused reason)
    | none, some message => .error (.failed (.raised "UnicodeDecodeError" message))
    | none, none => .ok file.text

/-- The nesting of rule files need not exceed the number of files, as no file includes itself; some
levels are left for the outputs of commands. -/
def nestingLimit (world : World) : Nat :=
  world.files.length + 200

/-- A world as the system of a build. -/
def host : Host World where
  modified := fun name world => (world.file? name).map (·.time)
  now := (·.now)
  environment := (·.environment)
  text := readText
  resolve := fun name _ => .ok (FileName.resolved ["work"] name)
  nestingLimit := nestingLimit
  touch := touch
  remove := remove
  run := run
  print := fun piece world => { world with printed := world.printed ++ [piece] }

end World

end BuildSystem
