/-
**Names of files.**

* `FileName.canonical` — a name without empty components and without `.` components; a leading
  slash stays.
* `FileName.shown` — the name as messages give it, which keeps two leading slashes.
* `FileName.resolved` — the absolute name of a file, seen from a directory, without `..`.
-/

import BuildSystem.Text.Blank

namespace BuildSystem.FileName

/-- The components of a name. -/
def components (name : String) : List String :=
  ((Chars.splitWhere (· == '/') name.toList).map String.ofList).filter fun component =>
    component != "" && component != "."

/-- Whether a name starts at the root. -/
def isAbsolute (name : String) : Bool :=
  name.toList.head? = some '/'

/-- A name without empty components and without `.` components. -/
def canonical (name : String) : String :=
  (if isAbsolute name then "/" else "") ++ Text.join "/" (components name)

/-- The root at which a name starts.  Exactly two leading slashes are a root of their own; more of
them mean the same as one. -/
def root (name : String) : String :=
  match name.toList.takeWhile (· == '/') with
  | [] => ""
  | [_, _] => "//"
  | _ => "/"

/-- The name as it is shown to the user, without empty components and without `.` components: the
working directory itself is `.`. -/
def shown (name : String) : String :=
  let name := root name ++ Text.join "/" (components name)
  if name.isEmpty then "." else name

/-- Follows the components from a directory, whose components are given in reverse. -/
def follow (directory : List String) : List String → List String
  | [] => directory
  | component :: rest =>
    follow (if component == ".." then directory.tail else component :: directory) rest

/-- The absolute name of a file, seen from the directory with the given components. -/
def resolved (directory : List String) (name : String) : String :=
  let start := if isAbsolute name then [] else directory.reverse
  "/" ++ Text.join "/" (follow start (components name)).reverse

end BuildSystem.FileName
