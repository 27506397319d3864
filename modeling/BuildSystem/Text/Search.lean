/-
**Cutting and replacing inside a text.**

* `Chars.splitFirst` — the two sides of the first occurrence of a character.
* `Chars.between` — what stands between a given beginning and a given end.
* `Chars.occursIn` — whether one text is a part of another.
* `Chars.replace`, `Text.replace` — every occurrence of a character replaced by a text.
-/

namespace BuildSystem

namespace Chars

/-- The parts before and after the first `mark`, or nothing if `mark` does not occur. -/
def splitFirst (mark : Char) : List Char → Option (List Char × List Char)
  | [] => none
  | c :: rest =>
    if c = mark then some ([], rest)
    else (splitFirst mark rest).map fun (before, after) => (c :: before, after)

/-- What stands between `start` and `finish` in a text that begins with the one and ends with the
other without overlap. -/
def between (start finish text : List Char) : Option (List Char) :=
  if start.length + finish.length ≤ text.length && start.isPrefixOf text &&
      finish.isSuffixOf text then
    some ((text.drop start.length).take (text.length - start.length - finish.length))
  else none

/-- Whether the first text occurs somewhere in the second. -/
def occursIn (part : List Char) : List Char → Bool
  | [] => part.isEmpty
  | c :: rest => part.isPrefixOf (c :: rest) || occursIn part rest

/-- Every `mark` replaced by `value`. -/
def replace (mark : Char) (value text : List Char) : List Char :=
  text.flatMap fun c => if c = mark then value else [c]

end Chars

namespace Text

/-- Whether a text begins with `start`. -/
def startsWith (start text : String) : Bool :=
  start.toList.isPrefixOf text.toList

/-- Whether the first text occurs somewhere in the second. -/
def occursIn (part text : String) : Bool :=
  Chars.occursIn part.toList text.toList

/-- Every `mark` replaced by `value`. -/
def replace (mark : Char) (value text : String) : String :=
  String.ofList (Chars.replace mark value.toList text.toList)

end Text

end BuildSystem
