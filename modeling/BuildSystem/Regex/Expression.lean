/-
**Regular expressions as data.**

* `Regex.Expression` — one regular expression: single characters, classes, positions, groups,
  repetitions, alternatives, references back to a group, choices by what a group remembers, and
  conditions on what follows or precedes.
* `Regex.Expression.width` — how many characters an expression reads.
* `Regex.Class.accepts` — which characters a class of characters contains, with and without regard
  to case.
* `Regex` — an expression together with the number of its groups.
-/

import BuildSystem.Text.Blank
import BuildSystem.Text.Case
import BuildSystem.Text.CharacterRanges

namespace BuildSystem

namespace Regex

/-- How letters are compared and classified. -/
inductive Alphabet where
  /-- All scripts. -/
  | all
  /-- Letters, digits and blanks of ASCII only. -/
  | ascii
deriving DecidableEq, Repr

/-- The named kinds of characters. -/
inductive Category where
  | digit
  | blank
  | word
deriving DecidableEq, Repr

/-- Whether a character is of a kind. -/
def Category.contains (alphabet : Alphabet) (c : Char) : Category → Bool
  | digit =>
    c.isDigit || (alphabet == .all && 128 ≤ c.toNat &&
      CharacterRanges.isInRanges CharacterRanges.decimalDigit c.toNat)
  | blank =>
    match alphabet with
    | .all => Chars.isBlank c
    | .ascii => c == ' ' || (0x09 ≤ c.toNat && c.toNat ≤ 0x0D)
  | word =>
    c == '_' || c.isAlphanum || (alphabet == .all && 128 ≤ c.toNat &&
      CharacterRanges.isInRanges CharacterRanges.alphanumeric c.toNat)

/-- One member of a class in brackets. -/
inductive Member where
  /-- One character. -/
  | one (c : Char)
  /-- All characters between two. -/
  | range (first last : Char)
  /-- All characters of a kind, or all others. -/
  | kind (category : Category) (negated : Bool)
deriving DecidableEq, Repr

/-- How a character of the expression is compared with a character of the text. -/
structure Comparison where
  ignoreCase : Bool := false
  alphabet : Alphabet := .all
deriving DecidableEq, Repr

/-- The lower-case code point under which a character is compared when case is ignored. -/
def Comparison.folded (comparison : Comparison) (c : Char) : Nat :=
  match comparison.alphabet with
  | .all => Case.lowerCode c.toNat
  | .ascii => if c.isUpper then c.toNat + 32 else c.toNat

/-- The folded code points that count as equal to a folded one. -/
def Comparison.variants (comparison : Comparison) (code : Nat) : List Nat :=
  match comparison.alphabet with
  | .all => Case.foldClass code
  | .ascii => [code]

/-- The code points that fold to a given one. -/
def Comparison.sources (comparison : Comparison) (code : Nat) : List Nat :=
  match comparison.alphabet with
  | .all => Case.lowerSources code
  | .ascii =>
    if 97 ≤ code && code ≤ 122 then [code, code - 32]
    else if 65 ≤ code && code ≤ 90 then [] else [code]

/-- Whether a character of the expression stands for a character of the text. -/
def Comparison.equal (comparison : Comparison) (expected actual : Char) : Bool :=
  if comparison.ignoreCase then
    (comparison.variants (comparison.folded expected)).contains (comparison.folded actual)
  else expected == actual

/-- Whether a member of a class contains a character. -/
def Member.contains (comparison : Comparison) (c : Char) : Member → Bool
  | one expected => comparison.equal expected c
  | range first last =>
    if comparison.ignoreCase then
      (comparison.variants (comparison.folded c)).any fun variant =>
        (comparison.sources variant).any fun code => first.toNat ≤ code && code ≤ last.toNat
    else first.toNat ≤ c.toNat && c.toNat ≤ last.toNat
  | kind category negated => category.contains comparison.alphabet c != negated

/-- A class of characters: the characters of its members, or all others. -/
structure Class where
  negated : Bool
  members : List Member
deriving DecidableEq, Repr

/-- Whether a class contains a character. -/
def Class.accepts (comparison : Comparison) (c : Char) (cls : Class) : Bool :=
  cls.members.any (·.contains comparison c) != cls.negated

/-- A condition on the place where the text is read. -/
inductive Place where
  /-- The beginning of the text. -/
  | start
  /-- The beginning of a line. -/
  | lineStart
  /-- The end of the text, or before a line feed at its end. -/
  | finish
  /-- The end of a line. -/
  | lineFinish
  /-- The very end of the text. -/
  | absoluteFinish
  /-- Between a word character and another, or not there. -/
  | wordEdge (alphabet : Alphabet) (negated : Bool)
deriving DecidableEq, Repr

/-- How a repetition chooses among its lengths. -/
inductive Greed where
  /-- As often as possible, fewer times if the rest does not fit. -/
  | greedy
  /-- As seldom as possible, more times if the rest does not fit. -/
  | lazy
  /-- As often as possible and no other way. -/
  | possessive
deriving DecidableEq, Repr

/-- A regular expression. -/
inductive Expression where
  /-- Fits the empty text. -/
  | empty
  /-- Fits one character. -/
  | character (comparison : Comparison) (c : Char)
  /-- Fits any one character; line feeds only if `lineFeeds` is set. -/
  | any (lineFeeds : Bool)
  /-- Fits one character of a class. -/
  | oneOf (comparison : Comparison) (cls : Class)
  /-- Fits the empty text at a place. -/
  | place (condition : Place)
  /-- Fits what the body fits and remembers it under a number. -/
  | group (number : Nat) (body : Expression)
  /-- Fits what a group has remembered. -/
  | reference (comparison : Comparison) (number : Nat)
  /-- One after the other. -/
  | sequence (first second : Expression)
  /-- The first, or the second. -/
  | alternative (first second : Expression)
  /-- From `least` to `most` times, or any number of times from `least` on. -/
  | repetition (greed : Greed) (least : Nat) (most : Option Nat) (body : Expression)
  /-- The first way in which the body fits and no other. -/
  | atomic (body : Expression)
  /-- Fits the empty text where the body fits, or does not fit, the text that follows. -/
  | ahead (negated : Bool) (body : Expression)
  /-- Fits the empty text where the body fits, or does not fit, the `width` characters that
  precede. -/
  | behind (negated : Bool) (width : Nat) (body : Expression)
  /-- The first if a group remembers something, and else the second.  Inside of that group, what
  counts is what its last round has left. -/
  | choice (number : Nat) (first second : Expression)
deriving DecidableEq, Repr

/-! ### Widths -/

/-- How many characters are read, at least and at most; there may be no bound above. -/
structure Width where
  least : Nat := 0
  most : Option Nat := some 0
deriving DecidableEq, Repr

namespace Width

/-- One after the other. -/
def plus (first second : Width) : Width where
  least := first.least + second.least
  most := do return (← first.most) + (← second.most)

/-- The first, or the second. -/
def either (first second : Width) : Width where
  least := min first.least second.least
  most := do return max (← first.most) (← second.most)

/-- Several times. -/
def times (least : Nat) (most : Option Nat) (width : Width) : Width where
  least := least * width.least
  most :=
    match most, width.most with
    | some 0, _ | _, some 0 => some 0
    | some times, some length => some (times * length)
    | _, _ => none

/-- The most characters that a condition on what precedes may look back. -/
def farthest : Nat := 4294967295

/-- Whether always the same number of characters is read, and not too many to look back at. -/
def isFixed (width : Width) : Bool :=
  width.most == some width.least && width.least ≤ farthest

end Width

/-- How many characters an expression reads; `known` tells how many the groups remember that it
refers to. -/
def Expression.width (known : Nat → Width) : Expression → Width
  | empty | place _ | ahead _ _ | behind _ _ _ => {}
  | character _ _ | any _ | oneOf _ _ => ⟨1, some 1⟩
  | reference _ number => known number
  | group _ body | atomic body => body.width known
  | sequence first second => (first.width known).plus (second.width known)
  | alternative first second | choice _ first second =>
    (first.width known).either (second.width known)
  | repetition _ least most body => (body.width known).times least most

end Regex

/-- A regular expression and the number of its groups. -/
structure Regex where
  expression : Regex.Expression
  groupCount : Nat
deriving DecidableEq, Repr

end BuildSystem
