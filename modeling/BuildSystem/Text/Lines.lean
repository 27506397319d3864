/-
**Lines of a text.**

* `Chars.lines` — the lines of a text without their ends; the end of the last line is optional, and
  a carriage return followed by a line feed is one end.
* `Chars.unifyLineEnds` — the text as a reader of files sees it: every carriage return, with or
  without a line feed, is one line feed.
-/

namespace BuildSystem

namespace Chars

/-- The characters that end a line: line feed, vertical tab, form feed, carriage return, the three
separators of records, next line, and the line and paragraph separators. -/
def isLineEnd (c : Char) : Bool :=
  let code := c.toNat
  (0x0A ≤ code && code ≤ 0x0D) || (0x1C ≤ code && code ≤ 0x1E) || code == 0x85 || code == 0x2028 ||
    code == 0x2029

/-- The lines of a text, without their ends. -/
def lines : List Char → List (List Char)
  | [] => []
  | '\r' :: '\n' :: rest => [] :: lines rest
  | c :: rest =>
    if isLineEnd c then [] :: lines rest
    else
      match lines rest with
      | [] => [[c]]
      | line :: others => (c :: line) :: others

/-- Every carriage return, with or without a line feed, becomes one line feed. -/
def unifyLineEnds : List Char → List Char
  | [] => []
  | '\r' :: '\n' :: rest => '\n' :: unifyLineEnds rest
  | c :: rest => (if c = '\r' then '\n' else c) :: unifyLineEnds rest

end Chars

namespace Text

/-- Every carriage return, with or without a line feed, becomes one line feed. -/
def unifyLineEnds (text : String) : String :=
  String.ofList (Chars.unifyLineEnds text.toList)

end Text

end BuildSystem
