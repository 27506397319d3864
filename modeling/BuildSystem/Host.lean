/-
**The outside world, as a build sees it.**

* `Unread` — why the text of a file is not read.
* `Host` — what a build may ask of the system it runs on: times and texts of files, the clock, the
  environment, commands, and a console.  The state of the system is of any type.
* `Host.say` — prints pieces of text.
-/

import BuildSystem.Console
import BuildSystem.Failure

namespace BuildSystem

/-- Values of the variables that a command sees. -/
abbrev Environment := Table String String

/-- How a command ended. -/
structure Completion where
  exitCode : Int
  output : String
deriving DecidableEq, Repr

/-- Why the text of a file is not read. -/
inductive Unread where
  /-- The system refuses the file, for a reason in its own words. -/
  | refused (reason : String)
  /-- Reading fails in another way: the file holds no text, or no file can have the name. -/
  | failed (failure : Failure)
deriving DecidableEq, Repr

/-- What a build may ask of its system, whose states are of type `σ`. -/
structure Host (σ : Type) where
  /-- The time of a file, or nothing if there is no such file. -/
  modified : String → σ → Option Int
  /-- The clock. -/
  now : σ → Int
  /-- The environment of the build itself. -/
  environment : σ → Environment
  /-- The text of a rule file, or why it is not read. -/
  text : String → σ → Except Unread String
  /-- The absolute name of a file, or the failure of looking for it: links may lead in a circle. -/
  resolve : String → σ → Except Failure String
  /-- A number that the nesting of rule files need not exceed. -/
  nestingLimit : σ → Nat
  /-- Sets the time of a file to the clock; a missing file is created. -/
  touch : String → Action σ Unit
  /-- Removes a file; a missing file is no failure. -/
  remove : String → Action σ Unit
  /-- Runs a command in an environment. -/
  run : List String → Environment → Action σ Completion
  /-- Prints a piece of text. -/
  print : Printed → σ → σ

namespace Host

variable {σ : Type}

/-- Whether a file exists. -/
def fileExists (host : Host σ) (name : String) (state : σ) : Bool :=
  (host.modified name state).isSome

/-- Prints pieces of text in order. -/
def say (host : Host σ) (pieces : List Printed) : Action σ Unit :=
  modify fun state => pieces.foldl (fun current piece => host.print piece current) state

end Host

end BuildSystem
