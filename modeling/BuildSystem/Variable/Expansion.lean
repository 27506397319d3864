/-
**Expanding texts into words.**

A text is expanded from left to right.  Blanks separate words; single quotes keep their content,
where two quotes stand for one; `$name` and `${name}` are replaced by the words of a variable,
`${name:old=new}` by the same words under a substitution, and a command between backquoted braces by
the words of its output.  What is written next to a reference sticks to its first or last word.

* `Words` — the words that have been completed and the one that is being written.
* `Expander.step` — what one character does; it depends on nothing that follows.
* `Expander.words` — the words of a text.
-/

import BuildSystem.Variable.Assignment

namespace BuildSystem

/-- The words that have been completed and the one that is being written, if any. -/
structure Words where
  complete : List String := []
  current : Option String := none
deriving DecidableEq, Repr

namespace Words

/-- Writes a text at the end of the current word. -/
def add (text : String) (words : Words) : Words :=
  { words with current := some (words.current.getD "" ++ text) }

/-- Completes the current word. -/
def flush (words : Words) : Words :=
  match words.current with
  | some word => ⟨words.complete ++ [word], none⟩
  | none => words

/-- Writes several words: the first sticks to the current word, and the last stays current. -/
def splice : List String → Words → Words
  | [], words => words
  | first :: others, words =>
    others.foldl (fun words word => words.flush.add word) (words.add first)

end Words

/-- What an expansion depends on. -/
structure Expander (σ : Type) where
  /-- The words of a variable. -/
  lookup : String → List String
  /-- The names whose references stay as they are written. -/
  keep : List String := []
  /-- The output of a command. -/
  output : String → Action σ String

namespace Expander

/-- Where in a text the expansion stands. -/
inductive Position where
  /-- Outside of quotes and references. -/
  | outside
  /-- Behind a dollar sign. -/
  | dollar
  /-- In a name behind a dollar sign. -/
  | name (read : List Char)
  /-- In a reference between braces. -/
  | reference (read : List Char)
  /-- Behind a backquote. -/
  | backquote
  /-- In a command between braces. -/
  | command (read : List Char)
  /-- Between quotes. -/
  | quoted (read : List Char)
  /-- Behind a quote that ends the quotation, unless another one follows. -/
  | quoteSeen (read : List Char)
deriving DecidableEq, Repr

variable {σ : Type}

/-- The words that the body of a reference stands for. -/
def referenced (expander : Expander σ) (body : List Char) :
    Except ExpansionError (List String) :=
  match Chars.splitFirst ':' body with
  | none => .ok (expander.lookup (String.ofList (Chars.strip body)))
  | some (name, change) =>
    match Chars.splitFirst '=' change with
    | none => .error (.badSubstitution (String.ofList body))
    | some (old, new) =>
      .ok (substitute (String.ofList old) (String.ofList new)
        (expander.lookup (String.ofList (Chars.strip name))))

/-- Writes what a name behind a dollar sign stands for. -/
def addName (expander : Expander σ) (name : List Char) (words : Words) : Words :=
  let name := String.ofList name
  if expander.keep.contains name then words.add ("$" ++ name)
  else words.splice (expander.lookup name)

/-- Writes what a reference between braces stands for. -/
def addReference (expander : Expander σ) (body : List Char) (words : Words) : Action σ Words :=
  if expander.keep.contains (String.ofList (Chars.strip body)) then
    pure (words.add (String.ofList ('$' :: '{' :: body ++ ['}'])))
  else
    match expander.referenced body with
    | .ok found => pure (words.splice found)
    | .error error => throw (.expansion error)

/-- Writes the words of the output of a command. -/
def addOutput (expander : Expander σ) (command : List Char) (words : Words) :
    Action σ Words := do
  let text ← expander.output (String.ofList command)
  return words.splice (Text.words text)

/-- What a character outside of quotes and references does. -/
def stepOutside (c : Char) (words : Words) : Position × Words :=
  if Chars.isBlank c then (.outside, words.flush)
  else if c = '\'' then (.quoted [], words)
  else if c = '$' then (.dollar, words)
  else if c = '`' then (.backquote, words)
  else (.outside, words.add (String.singleton c))

/-- What a character does. -/
def step (expander : Expander σ) : Position × Words → Char → Action σ (Position × Words)
  | (.outside, words), c => pure (stepOutside c words)
  | (.dollar, words), c =>
    if c = '{' then pure (.reference [], words)
    else if isNameCharacter c then pure (.name [c], words)
    else pure (stepOutside c (words.add "$"))
  | (.name read, words), c =>
    if isNameCharacter c then pure (.name (read ++ [c]), words)
    else pure (stepOutside c (expander.addName read words))
  | (.reference read, words), c =>
    if c = '}' then do return (.outside, ← expander.addReference read words)
    else pure (.reference (read ++ [c]), words)
  | (.backquote, words), c =>
    if c = '{' then pure (.command [], words)
    else pure (stepOutside c (words.add "`"))
  | (.command read, words), c =>
    if c = '}' then do return (.outside, ← expander.addOutput read words)
    else pure (.command (read ++ [c]), words)
  | (.quoted read, words), c =>
    if c = '\'' then pure (.quoteSeen read, words) else pure (.quoted (read ++ [c]), words)
  | (.quoteSeen read, words), c =>
    if c = '\'' then pure (.quoted (read ++ [c]), words)
    else pure (stepOutside c (words.add (String.ofList read)))

/-- What the end of the text does. -/
def finish (expander : Expander σ) : Position × Words → Action σ (List String)
  | (.outside, words) => pure words.flush.complete
  | (.dollar, words) => pure (words.add "$").flush.complete
  | (.name read, words) => pure (expander.addName read words).flush.complete
  | (.backquote, words) => pure (words.add "`").flush.complete
  | (.quoteSeen read, words) => pure (words.add (String.ofList read)).flush.complete
  | (.reference _, _) => throw (.expansion .unterminatedReference)
  | (.command _, _) => throw (.expansion .unterminatedCommand)
  | (.quoted _, _) => throw (.expansion .unterminatedQuote)

/-- Expands a text from a position on. -/
def wordsFrom (expander : Expander σ) : Position × Words → List Char → Action σ (List String)
  | reached, [] => expander.finish reached
  | reached, c :: rest => do
    let next ← expander.step reached c
    expander.wordsFrom next rest

/-- The words of a text. -/
def words (expander : Expander σ) (text : String) : Action σ (List String) :=
  expander.wordsFrom (.outside, {}) text.toList

/-- The words of a text, joined by spaces. -/
def text (expander : Expander σ) (text : String) : Action σ String := do
  return Text.unwords (← expander.words text)

end Expander

end BuildSystem
