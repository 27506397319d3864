/-
**Variables and their values.**

* `Values` — the value of every variable, a list of words.
* `Bindings` — the values while a rule file is read; the names given on the command line are
  locked, so that they keep the value given there.
* `splitAssignment?` — the two sides of a text of the form `NAME=value`.
-/

import BuildSystem.Host
import BuildSystem.Variable.Reference

namespace BuildSystem

/-- The value of every variable, a list of words. -/
abbrev Values := Table String (List String)

namespace Values

/-- The value of a variable; a variable without one has no words. -/
def lookup (values : Values) (name : String) : List String :=
  (values.get? name).getD []

/-- The values as the environment of a command: their words joined by spaces. -/
def environment (values : Values) : Environment :=
  values.map fun (name, words) => (name, Text.unwords words)

/-- The values that an environment gives: its texts cut into words. -/
def ofEnvironment (environment : Environment) : Values :=
  environment.map fun (name, text) => (name, Text.words text)

end Values

/-- The variables while a rule file is read. -/
structure Bindings where
  values : Values
  /-- The names that keep their values. -/
  locked : List String
deriving DecidableEq, Repr

namespace Bindings

/-- The variables of an environment, in which the command line overrides some. -/
def ofEnvironment (environment overrides : Environment) : Bindings where
  values := Table.update (Values.ofEnvironment environment) (Values.ofEnvironment overrides)
  locked := overrides.map (·.1)

/-- Assigns a value, unless the name is locked; the result tells whether it was assigned. -/
def assign (name : String) (words : List String) (bindings : Bindings) : Bool × Bindings :=
  if bindings.locked.contains name then (false, bindings)
  else (true, { bindings with values := bindings.values.set name words })

end Bindings

/-- Whether a character may begin the name on the left of an assignment. -/
def isNameStart (c : Char) : Bool :=
  c.isAlpha || c == '_'

namespace Chars

/-- The two sides of an assignment: a name, blanks, an equals sign, and the rest. -/
def splitAssignment? (text : List Char) : Option (List Char × List Char) :=
  let name := text.takeWhile isNameCharacter
  match name.head?.any isNameStart, (text.dropWhile isNameCharacter).dropWhile isBlank with
  | true, '=' :: value => some (name, value)
  | _, _ => none

end Chars

/-- The two sides of an assignment: a name, blanks, an equals sign, and the rest. -/
def splitAssignment? (text : String) : Option (String × String) :=
  (Chars.splitAssignment? text.toList).map fun (name, value) =>
    (String.ofList name, String.ofList value)

end BuildSystem
