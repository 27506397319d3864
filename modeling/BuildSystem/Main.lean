/-
**The program.**

The program rehearses a build.  It reads a listing of files from standard input, one per line: the
time of the file, a space, and its name.  Commands are not started: every recipe is taken to
succeed and to make all its targets.  What the build would print is printed, and its exit code is
the program's.

* `Program.fileOfLine?` — a line of the listing.
* `Program.assignments` — the environment, from its written form.
* `main` — the program.
-/

import BuildSystem.CommandLine.Run
import BuildSystem.Host.World

namespace BuildSystem.Program

/-- A line of the listing: a time and a name. -/
def fileOfLine? (line : String) : Option (Int × String) :=
  match Chars.splitFirst ' ' line.toList with
  | none => none
  | some (time, name) =>
    (Text.integer? (String.ofList time)).map fun time => (time, String.ofList name)

/-- The variables of an environment, which is written as assignments with a null behind each. -/
def assignments (written : String) : Environment :=
  (Chars.splitWhere (· == '\x00') written.toList).filterMap fun assignment =>
    (Chars.splitFirst '=' assignment).map fun (name, value) =>
      (String.ofList name, String.ofList value)

/-- The world of a rehearsal: the clock stands behind the times of all files, and commands make
their targets. -/
def rehearsal (environment : Environment) (files : List (String × World.File)) : World :=
  let programs := match shellOf environment with
    | .ok words => words.take 1
    | .error _ => []
  files.foldl (fun world (name, file) => world.put name file) {
    environment := environment
    now := 1 + files.foldl (fun latest (_, file) => max latest file.time) 0
    programs := programs
    script := { otherwise := { product := some .allTargets } } }

/-- The lines of standard input. -/
partial def readLines (input : IO.FS.Stream) (found : List String) : IO (List String) := do
  let line ← input.getLine
  if line.isEmpty then return found.reverse
  else readLines input (Text.join "" ((Chars.lines line.toList).map String.ofList) :: found)

/-- The file of a listed name and time, with its text if it can be read. -/
def loadFile (time : Int) (name : String) : IO World.File := do
  try
    match String.fromUTF8? (← IO.FS.readBinFile name) with
    | some text => return { time := time, text := text }
    | none => return { time := time, undecodable := some "the text is not encoded in UTF-8" }
  catch error =>
    return { time := time, unreadable := some error.toString }

/-- The environment of the program. -/
def loadEnvironment : IO Environment := do
  try
    return assignments (← IO.FS.readFile "/proc/self/environ")
  catch _ =>
    return []

/-- Prints what a build has printed. -/
def display (pieces : List Printed) : IO Unit :=
  pieces.forM fun piece =>
    match piece.stream with
    | .output => IO.print piece.text
    | .error => IO.eprint piece.text

end BuildSystem.Program

open BuildSystem in
/-- Rehearses the build that the arguments describe; the result is its exit code. -/
def main (arguments : List String) : IO UInt32 := do
  let listing ← Program.readLines (← IO.getStdin) []
  let files ← (listing.filterMap Program.fileOfLine?).mapM fun (time, name) =>
    return (name, ← Program.loadFile time name)
  let world := Program.rehearsal (← Program.loadEnvironment) files
  match CommandLine.run World.host world.script.cost arguments world with
  | .ok code world =>
    Program.display world.printed
    return UInt32.ofNat code.toNat
  | .error failure world =>
    Program.display world.printed
    IO.eprintln failure.message
    return 1
