/-
**Texts as they are shown in messages.**

* `Text.quoted` — a text between single quotes, or between double quotes if it holds single quotes
  only; what has no visible form is written as an escape.
* `Text.quotedList`, `Text.quotedTuple` — several texts in square or round brackets.
-/

import BuildSystem.Text.Blank
import BuildSystem.Text.CharacterRanges

namespace BuildSystem

namespace Chars

/-- The digits of a number in base sixteen, in lower case and with at least `width` of them. -/
def hexadecimal (width number : Nat) : List Char :=
  let digits := Nat.toDigits 16 number
  List.replicate (width - digits.length) '0' ++ digits

/-- Whether a character has a visible form; the space counts as one. -/
def isPrintable (c : Char) : Bool :=
  let code := c.toNat
  if code < 128 then 32 ≤ code && code < 127
  else CharacterRanges.isInRanges CharacterRanges.printable code

/-- One character of a shown text whose delimiter is `delimiter`. -/
def shown (delimiter c : Char) : List Char :=
  let code := c.toNat
  if c = delimiter || c = '\\' then ['\\', c]
  else if c = '\n' then ['\\', 'n']
  else if c = '\r' then ['\\', 'r']
  else if c = '\t' then ['\\', 't']
  else if isPrintable c then [c]
  else if code < 0x100 then ['\\', 'x'] ++ hexadecimal 2 code
  else if code < 0x10000 then ['\\', 'u'] ++ hexadecimal 4 code
  else ['\\', 'U'] ++ hexadecimal 8 code

/-- A text between quotes: single ones, unless it holds a single quote and no double quote. -/
def quoted (text : List Char) : List Char :=
  let delimiter := if text.contains '\'' && !text.contains '"' then '"' else '\''
  delimiter :: text.flatMap (shown delimiter) ++ [delimiter]

end Chars

namespace Text

/-- A text between quotes, with escapes for what has no visible form. -/
def quoted (text : String) : String :=
  String.ofList (Chars.quoted text.toList)

/-- Several quoted texts in square brackets. -/
def quotedList (texts : List String) : String :=
  "[" ++ join ", " (texts.map quoted) ++ "]"

/-- Several quoted texts in round brackets; a single one is followed by a comma. -/
def quotedTuple : List String → String
  | [text] => "(" ++ quoted text ++ ",)"
  | texts => "(" ++ join ", " (texts.map quoted) ++ ")"

end Text

end BuildSystem
