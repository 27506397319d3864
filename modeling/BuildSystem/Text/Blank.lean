/-
**Blank characters, words and stripped texts.**

A text is read as the list of its characters; the functions of `Chars` work on that list and the
functions of `Text` on strings.

* `Chars.isBlank` — the characters that separate words: the space separators, the line and
  paragraph separators, and the control characters that move the carriage or divide records.
* `Chars.words`, `Text.words` — the maximal runs of characters that are not blank.
* `Chars.strip`, `Text.strip` — a text without the blanks at its two ends.
-/

namespace BuildSystem

namespace Chars

/-- A blank is a space separator, a line or paragraph separator, or one of the control characters
that move the carriage or divide records. -/
def isBlank (c : Char) : Bool :=
  let code := c.toNat
  (0x09 ≤ code && code ≤ 0x0D) || (0x1C ≤ code && code ≤ 0x20) || code == 0x85 || code == 0xA0 ||
    code == 0x1680 || (0x2000 ≤ code && code ≤ 0x200A) || code == 0x2028 || code == 0x2029 ||
    code == 0x202F || code == 0x205F || code == 0x3000

/-- Cuts a list at every member that satisfies `cut`; the pieces are one more than the cuts. -/
def splitWhere {α : Type} (cut : α → Bool) : List α → List (List α)
  | [] => [[]]
  | c :: rest =>
    if cut c then [] :: splitWhere cut rest
    else
      match splitWhere cut rest with
      | [] => [[c]]
      | piece :: pieces => (c :: piece) :: pieces

/-- The words of a text, in order. -/
def words (text : List Char) : List (List Char) :=
  (splitWhere isBlank text).filter fun piece => !piece.isEmpty

/-- A text without the blanks at its end. -/
def stripEnd (text : List Char) : List Char :=
  text.foldr (fun c kept => if kept.isEmpty && isBlank c then [] else c :: kept) []

/-- A text without the blanks at its two ends. -/
def strip (text : List Char) : List Char :=
  stripEnd (text.dropWhile isBlank)

end Chars

namespace Text

/-- The words of a text, in order. -/
def words (text : String) : List String :=
  (Chars.words text.toList).map String.ofList

/-- A text without the blanks at its two ends. -/
def strip (text : String) : String :=
  String.ofList (Chars.strip text.toList)

/-- The pieces joined by a separator. -/
def join (separator : String) : List String → String
  | [] => ""
  | [piece] => piece
  | piece :: pieces => piece ++ separator ++ join separator pieces

/-- The words joined by single spaces. -/
def unwords (pieces : List String) : String :=
  join " " pieces

end Text

end BuildSystem
