/-
**References to variables.**

* `isNameCharacter` — the characters of a variable's name behind a dollar sign.
* `Chars.bind`, `bind` — replaces `$name` and `${name}` for the names that have a value, and leaves
  every other text as it is, in one pass from left to right.
* `Chars.substitute`, `substitute` — replaces words that fit a pattern with at most one `%`.
-/

import BuildSystem.Text.Blank
import BuildSystem.Text.Search

namespace BuildSystem

/-- Letters, digits and the underscore of ASCII make up the names behind a dollar sign. -/
def isNameCharacter (c : Char) : Bool :=
  c.isAlphanum || c == '_'

namespace Chars

/-- Where in a text the search for references stands. -/
inductive BindPosition where
  /-- Outside of a reference. -/
  | outside
  /-- Behind a dollar sign. -/
  | dollar
  /-- In a name that stands alone. -/
  | name (read : List Char)
  /-- In a name between braces. -/
  | braced (read : List Char)
deriving DecidableEq, Repr

/-- A reference that stands alone, replaced if its name has a value. -/
def boundName (values : List Char → Option (List Char)) (name : List Char) : List Char :=
  (values name).getD ('$' :: name)

/-- A reference between braces, replaced if its name has a value. -/
def boundBraces (values : List Char → Option (List Char)) (name : List Char) : List Char :=
  (values name).getD ('$' :: '{' :: name ++ ['}'])

/-- What a character outside of references writes, and where it leads. -/
def bindOutside (c : Char) : List Char × BindPosition :=
  if c = '$' then ([], .dollar) else ([c], .outside)

/-- What a character writes, and where it leads. -/
def bindStep (values : List Char → Option (List Char)) (c : Char) :
    BindPosition → List Char × BindPosition
  | .outside => bindOutside c
  | .dollar =>
    if c = '{' then ([], .braced [])
    else if isNameCharacter c then ([], .name [c])
    else
      let (written, position) := bindOutside c
      ('$' :: written, position)
  | .name read =>
    if isNameCharacter c then ([], .name (read ++ [c]))
    else
      let (written, position) := bindOutside c
      (boundName values read ++ written, position)
  | .braced read =>
    if isNameCharacter c then ([], .braced (read ++ [c]))
    else if c = '}' && !read.isEmpty then (boundBraces values read, .outside)
    else
      let (written, position) := bindOutside c
      ('$' :: '{' :: read ++ written, position)

/-- What the end of the text writes. -/
def bindEnd (values : List Char → Option (List Char)) : BindPosition → List Char
  | .outside => []
  | .dollar => ['$']
  | .name read => boundName values read
  | .braced read => '$' :: '{' :: read

/-- The text from a position on, with its references replaced. -/
def bindFrom (values : List Char → Option (List Char)) : BindPosition → List Char → List Char
  | position, [] => bindEnd values position
  | position, c :: rest =>
    let (written, next) := bindStep values c position
    written ++ bindFrom values next rest

/-- The text with the references replaced whose names have a value. -/
def bind (values : List Char → Option (List Char)) (text : List Char) : List Char :=
  bindFrom values .outside text

/-- One word under a substitution: a pattern without `%` fits the equal word, and one with `%` fits
what begins and ends like it; what stands for `%` is put in the place of the first `%` of the new
pattern. -/
def substitute (old new word : List Char) : List Char :=
  match splitFirst '%' old with
  | none => if word = old then new else word
  | some (start, finish) =>
    match between start finish word with
    | none => word
    | some stem =>
      match splitFirst '%' new with
      | none => new
      | some (before, after) => before ++ stem ++ after

end Chars

/-- The text with the references replaced whose names have a value. -/
def bind (values : String → Option String) (text : String) : String :=
  String.ofList
    (Chars.bind (fun name => (values (String.ofList name)).map String.toList) text.toList)

/-- Words under a substitution. -/
def substitute (old new : String) (words : List String) : List String :=
  words.map fun word => String.ofList (Chars.substitute old.toList new.toList word.toList)

end BuildSystem
