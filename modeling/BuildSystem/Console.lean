/-
**What the user sees.**

Every function of `Console` gives the pieces of text that one event prints, each with its stream.

* `Console.debug` — traces, shown in debug mode only.
* `Console.explain` — reasons for rebuilding, shown in explain mode only.
* `Console.failure` — the captured output of a recipe and the line about its failure.
-/

import BuildSystem.Text.Case
import BuildSystem.Text.Search
import BuildSystem.Table

namespace BuildSystem

/-- The two streams of a console. -/
inductive Stream where
  | output
  | error
deriving DecidableEq, Repr

/-- A piece of text on a stream. -/
structure Printed where
  stream : Stream
  text : String
deriving DecidableEq, Repr

/-- What the user wants to see. -/
structure Console where
  /-- Show traces. -/
  debugging : Bool := false
  /-- Show why each target is rebuilt. -/
  explaining : Bool := false
deriving DecidableEq, Repr

namespace Console

/-- A line on the output stream. -/
def outputLine (text : String) : Printed :=
  ⟨.output, text ++ "\n"⟩

/-- A line on the error stream. -/
def errorLine (text : String) : Printed :=
  ⟨.error, text ++ "\n"⟩

/-- Echoes a recipe before it runs. -/
def recipe (text : String) : List Printed :=
  [outputLine text]

/-- The captured output of a recipe, completed to whole lines. -/
def output (text : String) : List Printed :=
  if text.isEmpty then []
  else if text.toList.getLast? = some '\n' then [⟨.output, text⟩]
  else [outputLine text]

/-- A requested target that needs no work. -/
def upToDate (name : String) : List Printed :=
  [outputLine ("bettermk: '" ++ name ++ "' is up to date")]

/-- Why a target is rebuilt. -/
def explain (console : Console) (name : String) (reasons : List String) : List Printed :=
  if console.explaining then reasons.map fun reason => outputLine (name ++ ": " ++ reason) else []

/-- A recipe that failed: its output, then the reason; the exit code is added if it is known and
the reason does not give it. -/
def failure (reason : String) (exitCode : Option Int) (text : String) : List Printed :=
  let line := "bettermk: " ++ reason
  let line := match exitCode with
    | some code =>
      let shown := "exit=" ++ toString code
      if Text.occursIn shown reason then line else line ++ " (" ++ shown ++ ")"
    | none => line
  output text ++ [errorLine line]

/-- A target that is not built. -/
def skipped (name reason : String) : List Printed :=
  [errorLine ("bettermk: '" ++ name ++ "' skipped (" ++ reason ++ ")")]

/-- The summary of a build: every target with its status in capitals. -/
def results (statuses : Table String String) : List Printed :=
  let rule := String.ofList (List.replicate 40 '=')
  [outputLine ("\n" ++ rule), outputLine "RESULTS", outputLine rule] ++
    statuses.map fun (target, status) => outputLine ("  " ++ target ++ ": " ++ Case.upper status)

/-- An error with a title, details and a hint. -/
def error (title message : String) (details : List String) (suggestion : Option String) :
    List Printed :=
  [errorLine ("\nERROR: " ++ title), errorLine message] ++
    details.map (fun detail => errorLine ("  " ++ detail)) ++
    match suggestion with
    | some hint => if hint.isEmpty then [] else [errorLine ("\n" ++ hint)]
    | none => []

/-- A failure that is no error of the build; in debug mode the place where it arose is named
instead of its wording. -/
def unexpected (console : Console) (message : String) : List Printed :=
  if console.debugging then [errorLine "<traceback>"] else [errorLine ("Error: " ++ message)]

/-- A line of information. -/
def info (message : String) : List Printed :=
  [outputLine message]

/-- A line of the trace. -/
def debug (console : Console) (message : String) : List Printed :=
  if console.debugging then [errorLine ("[DEBUG] " ++ message)] else []

end Console

end BuildSystem
