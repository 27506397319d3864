/-
**Logical lines of a rule file.**

* `RuleFile.Content` — what a line holds: nothing, a line of a recipe, or a statement.
* `RuleFile.logicalLines` — the lines of a text with their numbers; a statement whose line ends
  with a backslash continues on the next line.
-/

import BuildSystem.Text.Blank
import BuildSystem.Text.Lines

namespace BuildSystem.RuleFile

/-- What a logical line holds. -/
inductive Content where
  /-- Blanks only. -/
  | blank
  /-- A line of a recipe, without its indentation. -/
  | recipe (text : List Char)
  /-- A statement, with its comment. -/
  | statement (text : List Char)
deriving DecidableEq, Repr

/-- A logical line and the number of its first line. -/
structure Line where
  number : Nat
  content : Content
deriving DecidableEq, Repr

/-- Spaces and tabs indent the lines of a recipe. -/
def isIndentation (c : Char) : Bool :=
  c == ' ' || c == '\t'

/-- A statement that goes on: where it began, and its text so far. -/
structure Unfinished where
  number : Nat
  text : List Char
deriving DecidableEq, Repr

/-- The statement's text without the backslash with which it goes on, if it does. -/
def continued? (text : List Char) : Option (List Char) :=
  if text.getLast? = some '\\' then some (text.dropLast ++ [' ']) else none

/-- The logical lines from a line on. -/
def linesFrom (unfinished : Option Unfinished) (number : Nat) : List (List Char) → List Line
  | [] => []
  | line :: rest =>
    let statement := fun (first : Nat) (text : List Char) =>
      match continued? text, rest with
      | some text, _ :: _ => linesFrom (some ⟨first, text⟩) (number + 1) rest
      | _, _ => ⟨first, .statement text⟩ :: linesFrom none (number + 1) rest
    match unfinished with
    | some pending => statement pending.number (pending.text ++ line)
    | none =>
      if line.all Chars.isBlank then ⟨number, .blank⟩ :: linesFrom none (number + 1) rest
      else if line.head?.any isIndentation then
        ⟨number, .recipe (line.dropWhile isIndentation)⟩ :: linesFrom none (number + 1) rest
      else statement number line

/-- The logical lines of a text. -/
def logicalLines (text : String) : List Line :=
  linesFrom none 1 (Chars.lines text.toList)

end BuildSystem.RuleFile
