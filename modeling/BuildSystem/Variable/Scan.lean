/-
**Which characters of a text stand for themselves.**

Characters between quotes and between the braces of a reference or a command are enclosed; all
others are open.

* `Scan.marks` — every character of a text together with whether it is open.
* `splitUnquoted` — a text cut at the open occurrences of a separator.
* `stripComment` — a text up to the first open number sign.
-/

import BuildSystem.Failure

namespace BuildSystem

namespace Scan

/-- Where in a text the scan stands. -/
inductive Position where
  /-- Outside of every enclosure. -/
  | outside
  /-- Behind a dollar sign or a backquote, which a brace would make an opening. -/
  | sign (c : Char)
  /-- Between quotes. -/
  | quoted
  /-- Behind a quote that ends the quotation, unless another one follows. -/
  | quoteSeen
  /-- Between the braces that a sign has opened. -/
  | braced (c : Char)
deriving DecidableEq, Repr

/-- A character and whether it is open. -/
structure Mark where
  character : Char
  isOpen : Bool
deriving DecidableEq, Repr

/-- What a character outside of every enclosure marks, and where it leads. -/
def stepOutside (c : Char) : List Mark × Position :=
  if c = '\'' then ([⟨c, false⟩], .quoted)
  else if c = '$' || c = '`' then ([], .sign c)
  else ([⟨c, true⟩], .outside)

/-- What a character marks, and where it leads. -/
def step (c : Char) : Position → List Mark × Position
  | .outside => stepOutside c
  | .sign sign =>
    if c = '{' then ([⟨sign, false⟩, ⟨c, false⟩], .braced sign)
    else
      let (marks, position) := stepOutside c
      (⟨sign, true⟩ :: marks, position)
  | .quoted => ([⟨c, false⟩], if c = '\'' then .quoteSeen else .quoted)
  | .quoteSeen => if c = '\'' then ([⟨c, false⟩], .quoted) else stepOutside c
  | .braced sign => ([⟨c, false⟩], if c = '}' then .outside else .braced sign)

/-- What the end of the text marks, and the error if an enclosure has no end. -/
def finish : Position → List Mark × Option ExpansionError
  | .outside | .quoteSeen => ([], none)
  | .sign sign => ([⟨sign, true⟩], none)
  | .quoted => ([], some .unterminatedQuote)
  | .braced sign =>
    ([], some (if sign = '$' then .unterminatedReference else .unterminatedCommand))

/-- The marks of a text from a position on, and the error if an enclosure has no end. -/
def marksFrom : Position → List Char → List Mark × Option ExpansionError
  | position, [] => finish position
  | position, c :: rest =>
    let (first, next) := step c position
    let (others, error) := marksFrom next rest
    (first ++ others, error)

/-- The marks of a text, and the error if an enclosure has no end. -/
def marks (text : List Char) : List Mark × Option ExpansionError :=
  marksFrom .outside text

/-- The text that the marks spell. -/
def text (marks : List Mark) : List Char :=
  marks.map (·.character)

end Scan

namespace Chars

/-- The parts of a text between the open characters that separate. -/
def splitUnquoted (separates : Char → Bool) (text : List Char) :
    Except ExpansionError (List (List Char)) :=
  match Scan.marks text with
  | (_, some error) => .error error
  | (marks, none) =>
    .ok ((splitWhere (fun mark => mark.isOpen && separates mark.character) marks).map Scan.text)

/-- The text up to its first open number sign.  An enclosure without an end is an error only if it
stands before the number sign. -/
def stripComment (text : List Char) : Except ExpansionError (List Char) :=
  let (marks, error) := Scan.marks text
  let kept := marks.takeWhile fun mark => !(mark.isOpen && mark.character == '#')
  match error with
  | some error => if kept.length < marks.length then .ok (Scan.text kept) else .error error
  | none => .ok (Scan.text kept)

end Chars

/-- The parts of a text between the open characters that separate. -/
def splitUnquoted (separates : Char → Bool) (text : String) :
    Except ExpansionError (List String) :=
  (Chars.splitUnquoted separates text.toList).map (·.map String.ofList)

/-- The text up to its first open number sign. -/
def stripComment (text : String) : Except ExpansionError String :=
  (Chars.stripComment text.toList).map String.ofList

end BuildSystem
