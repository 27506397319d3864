/-
**The arguments of the command line.**

Flags are single letters behind a dash and can be combined; `-f` takes a value, which is the rest of
its argument or the next argument.  Flags and other arguments may be mixed, and `--` ends the flags.

* `CommandLine.read` — the invocation that a list of arguments describes.
* `CommandLine.splitArguments` — the targets and the assignments among the other arguments.
-/

import BuildSystem.Options
import BuildSystem.Variable.Assignment

namespace BuildSystem.CommandLine

/-- The flags of an invocation. -/
structure Flags where
  ruleFile : String := defaultRuleFile
  dryRun : Bool := false
  forceAll : Bool := false
  touch : Bool := false
  keepGoing : Bool := false
  ignoreMissing : Bool := false
  explain : Bool := false
  debug : Bool := false
  help : Bool := false
deriving DecidableEq, Repr

/-- The flags after a single letter, or nothing if the letter is no flag. -/
def Flags.set? (flags : Flags) : Char → Option Flags
  | 'n' => some { flags with dryRun := true }
  | 'a' => some { flags with forceAll := true }
  | 't' => some { flags with touch := true }
  | 'k' => some { flags with keepGoing := true }
  | 'i' => some { flags with ignoreMissing := true }
  | 'e' => some { flags with explain := true }
  | 'd' => some { flags with debug := true }
  | 'h' => some { flags with help := true }
  | _ => none

/-- What the letters of an argument say. -/
inductive Letters where
  /-- The flags are complete. -/
  | flags (flags : Flags)
  /-- The next argument is the name of the rule file. -/
  | valueFollows (flags : Flags)
  /-- A letter is no flag. -/
  | unknown

/-- Reads the letters of an argument. -/
def readLetters (flags : Flags) : List Char → Letters
  | [] => .flags flags
  | 'f' :: [] => .valueFollows flags
  | 'f' :: value => .flags { flags with ruleFile := String.ofList value }
  | letter :: rest =>
    match flags.set? letter with
    | some flags => readLetters flags rest
    | none => .unknown

/-- What a list of arguments describes. -/
structure Invocation where
  flags : Flags := {}
  /-- The arguments that are no flags, in order. -/
  others : List String := []
deriving DecidableEq, Repr

/-- The invocation that a list of arguments describes, or nothing if it does not describe one. -/
def read (invocation : Invocation) : List String → Option Invocation
  | [] => some invocation
  | argument :: rest =>
    match argument.toList with
    | ['-', '-'] => some { invocation with others := invocation.others ++ rest }
    | '-' :: '-' :: name =>
      if name = "help".toList then
        read { invocation with flags := { invocation.flags with help := true } } rest
      else none
    | '-' :: letter :: letters =>
      match readLetters invocation.flags (letter :: letters) with
      | .flags flags => read { invocation with flags } rest
      | .valueFollows flags =>
        match rest with
        | value :: rest => read { invocation with flags := { flags with ruleFile := value } } rest
        | [] => none
      | .unknown => none
    | _ => read { invocation with others := invocation.others ++ [argument] } rest

/-- The targets and the assignments among arguments that are no flags. -/
def splitArguments (arguments : List String) : List String × Environment :=
  arguments.foldl
    (fun (targets, assignments) argument =>
      match splitAssignment? argument with
      | some (name, value) => (targets, assignments.set name value)
      | none => (targets ++ [argument], assignments))
    ([], [])

/-- The changes of the options that an invocation asks for. -/
def Invocation.changes (invocation : Invocation) : List OptionChange :=
  let flags := invocation.flags
  let (targets, assignments) := splitArguments invocation.others
  [.ruleFile flags.ruleFile, .targets targets, .assignments assignments, .dryRun flags.dryRun,
    .forceAll flags.forceAll, .touch flags.touch, .keepGoing flags.keepGoing,
    .ignoreMissing flags.ignoreMissing, .explain flags.explain, .debug flags.debug]

end BuildSystem.CommandLine
