/-
**Reading whole numbers.**

* `Text.integer?` — the number that a text denotes in decimal notation: blanks around it are
  ignored, one sign may precede it, and single underscores may stand between digits.  Decimal
  digits of every script count, and a number has at most `maximumDigits` digits.
-/

import BuildSystem.Text.Blank
import BuildSystem.Text.CharacterRanges

namespace BuildSystem

namespace Chars

/-- The most digits that a number may have. -/
def maximumDigits : Nat := 4300

/-- The value of a decimal digit of any script. -/
def digitValue? (c : Char) : Option Nat :=
  let code := c.toNat
  if code < 128 then (if 48 ≤ code && code ≤ 57 then some (code - 48) else none)
  else
    (CharacterRanges.decimalDigit.find? fun (first, last) => first ≤ code && code ≤ last).map
      fun (first, _) => (code - first) % 10

/-- The values of the digits of a number.  `afterDigit` tells whether the last character read is a
digit, which an underscore and the end of the number need. -/
def digitValues? (afterDigit : Bool) : List Char → Option (List Nat)
  | [] => if afterDigit then some [] else none
  | '_' :: rest => if afterDigit then digitValues? false rest else none
  | c :: rest =>
    match digitValue? c with
    | some value => (digitValues? true rest).map (value :: ·)
    | none => none

/-- The number that a run of digits denotes. -/
def natural? (text : List Char) : Option Nat :=
  match digitValues? false text with
  | some digits =>
    if digits.length ≤ maximumDigits then
      some (digits.foldl (fun number digit => 10 * number + digit) 0)
    else none
  | none => none

/-- The number that a text without surrounding blanks denotes. -/
def integer? : List Char → Option Int
  | '-' :: digits => (natural? digits).map fun number => -(number : Int)
  | '+' :: digits => (natural? digits).map Int.ofNat
  | digits => (natural? digits).map Int.ofNat

end Chars

namespace Text

/-- The number that a text denotes in decimal notation. -/
def integer? (text : String) : Option Int :=
  Chars.integer? (Chars.strip text.toList)

end Text

end BuildSystem
