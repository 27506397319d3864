/-
**Reading rule files.**

A rule file is read line by line.  Assignments take effect at once, so that later lines see earlier
values; the lines of a recipe belong to the header above them; and an include directive is read in
the place where it stands.

* `RuleFile.Source` — what reading asks of the outside: texts of files and outputs of commands.
* `RuleFile.readText` — reads a text; `depth` bounds the nesting of texts.
* `RuleFile.ofText`, `RuleFile.ofFile` — the rule set of a text and of a file.
-/

import BuildSystem.FileName
import BuildSystem.RuleFile.Header
import BuildSystem.RuleFile.Line

namespace BuildSystem.RuleFile

/-- What reading rule files asks of the outside, whose states are of type `σ`. -/
structure Source (σ : Type) where
  /-- The text of a file, or why it is not read. -/
  text : String → σ → Except Unread String
  /-- The absolute name of a file, or the failure of looking for it. -/
  resolve : String → σ → Except Failure String
  /-- A number that the nesting of texts need not exceed. -/
  nestingLimit : σ → Nat
  /-- The output of a command between backquoted braces, under the current values. -/
  output : Values → String → Action σ String
  /-- The output of a command that an include directive names, under the current values. -/
  included : Values → String → Action σ String

variable {σ : Type}

/-- The commands and files of a host, where commands are run by a shell. -/
def Source.ofHost (host : Host σ) (shell : List String) : Source σ where
  text := host.text
  resolve := host.resolve
  nestingLimit := host.nestingLimit
  output := fun values command => do
    let environment := (host.environment (← get)).update values.environment
    return (← host.run (shell ++ ["-c", command]) environment).output
  included := fun values command =>
    return (← host.run (shell ++ ["-c", command]) values.environment).output

/-- What has been read. -/
structure Reader where
  bindings : Bindings
  rules : List Rule := []
  /-- The header to which lines of a recipe belong. -/
  header : Option Header := none
deriving DecidableEq, Repr

namespace Reader

/-- The expansion of texts under the current values. -/
def expander (reader : Reader) (source : Source σ) : Expander σ where
  lookup := reader.bindings.values.lookup
  output := source.output reader.bindings.values

/-- Declares the rules of the current header. -/
def close (reader : Reader) : Except Failure Reader :=
  match reader.header with
  | none => .ok reader
  | some header =>
    match header.rules with
    | .ok rules => .ok { reader with rules := reader.rules ++ rules, header := none }
    | .error error => .error error

/-- Adds a line to the recipe of the current header. -/
def addRecipeLine (reader : Reader) (location : Location) (text : List Char) :
    Except Failure Reader :=
  match reader.header with
  | none => .error (malformed "recipe line before any rule header" location)
  | some header =>
    .ok { reader with
      header := some { header with recipe := header.recipe ++ [String.ofList text] } }

/-- What has been declared. -/
def ruleSet (reader : Reader) : RuleSet where
  rules := reader.rules
  values := reader.bindings.values

end Reader

/-- How a nested text is read: the absolute names of the files that are being read, the name of the
text, and the text. -/
abbrev Nested (σ : Type) := List String → String → String → Reader → Action σ Reader

/-- Reads a file, which must not be among those that are being read.  Only a file that the system
refuses is an error of the rule file; other failures of finding or reading it stay what they are. -/
def readFileWith (nested : Nested σ) (source : Source σ) (active : List String) (path : String)
    (reader : Reader) : Action σ Reader := do
  let file := FileName.shown path
  let name ← accepted (source.resolve path (← get))
  let refuseFile := fun (message : String) =>
    throw (.build (.malformedRuleFile message file 0))
  if active.contains name then
    refuseFile ("recursive include: " ++ Text.join " -> " (active ++ [name]))
  else
    match source.text path (← get) with
    | .error (.refused reason) => refuseFile ("cannot read rule file: " ++ reason)
    | .error (.failed failure) => throw failure
    | .ok text => nested (active ++ [name]) file (Text.unifyLineEnds text) reader

/-- Reads what an include directive names.  An error about the named file as a whole is moved to
the line of the directive. -/
def readInclude (nested : Nested σ) (source : Source σ) (active : List String)
    (location : Location) (directive : List Char) (reader : Reader) : Action σ Reader := do
  let expander := reader.expander source
  match directive with
  | '|' :: command =>
    let command ← located location (expander.text (String.ofList command))
    let text ← source.included reader.bindings.values command
    nested active ("<|" ++ command) text reader
  | path =>
    let path ← located location (expander.text (String.ofList path))
    if path.isEmpty then refuse "include directive without a file name" location
    else
      tryCatch (readFileWith nested source active path reader) fun
        | .build (.malformedRuleFile message file line) =>
          if file = path ∧ line = 0 then refuse message location
          else throw (.build (.malformedRuleFile message file line))
        | failure => throw failure

/-- Reads a statement.  A comment that stands alone does not end the current rule. -/
def readStatement (nested : Nested σ) (source : Source σ) (active : List String)
    (location : Location) (text : List Char) (reader : Reader) : Action σ Reader := do
  let body := Chars.strip (← located location (expanded (Chars.stripComment text)))
  if body.isEmpty then return reader
  let reader ← accepted reader.close
  match body with
  | '<' :: directive => readInclude nested source active location directive reader
  | body =>
    match Chars.splitAssignment? body with
    | some (name, value) =>
      let words ← located location ((reader.expander source).words (String.ofList value))
      let (_, bindings) := reader.bindings.assign (String.ofList name) words
      return { reader with bindings }
    | none =>
      let header ← readHeader (reader.expander source) location body
      return { reader with header := some header }

/-- Reads a logical line. -/
def readLine (nested : Nested σ) (source : Source σ) (active : List String) (file : String)
    (reader : Reader) (line : Line) : Action σ Reader :=
  let location : Location := ⟨file, line.number⟩
  match line.content with
  | .blank => accepted reader.close
  | .recipe text => accepted (reader.addRecipeLine location text)
  | .statement text => readStatement nested source active location text reader

/-- Reads a text; `depth` bounds the nesting of texts. -/
def readText (source : Source σ) : (depth : Nat) → Nested σ
  | 0, _, _, _, _ => throw .nestedTooDeeply
  | depth + 1, active, file, text, reader => do
    let reader ← (logicalLines text).foldlM
      (readLine (readText source depth) source active file) reader
    accepted reader.close

/-- The rule set of a text. -/
def ofText (source : Source σ) (bindings : Bindings) (file text : String) :
    Action σ RuleSet := do
  let depth := source.nestingLimit (← get)
  return (← readText source (depth + 1) [] file text { bindings }).ruleSet

/-- The rule set of a file. -/
def ofFile (source : Source σ) (bindings : Bindings) (path : String) : Action σ RuleSet := do
  let depth := source.nestingLimit (← get)
  return (← readFileWith (readText source (depth + 1)) source [] path { bindings }).ruleSet

end BuildSystem.RuleFile
