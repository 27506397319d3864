/-
**Matching by backtracking.**

* `Regex.Expression.run` — tries the ways in which an expression fits at a cursor, in order of
  preference, until the rest of the expression, given as a continuation, fits too.
* `Regex.matchAll?` — the groups remembered when an expression fits a whole text.
-/

import BuildSystem.Regex.Expression

namespace BuildSystem.Regex

/-- A place in a text, with what the groups have remembered on the way. -/
structure Cursor where
  /-- What has been read, the last character first. -/
  before : List Char
  /-- What is still to be read. -/
  after : List Char
  /-- What the groups remember, the latest first. -/
  groups : List (Nat × List Char)

namespace Cursor

/-- The cursor behind the next character. -/
def next (cursor : Cursor) (c : Char) (rest : List Char) : Cursor :=
  { cursor with before := c :: cursor.before, after := rest }

/-- The cursor some characters before, unless the text begins behind that. -/
def back? : Nat → Cursor → Option Cursor
  | 0, cursor => some cursor
  | count + 1, cursor =>
    match cursor.before with
    | [] => none
    | c :: before => back? count { cursor with before := before, after := c :: cursor.after }

/-- What a group remembers. -/
def group? (cursor : Cursor) (number : Nat) : Option (List Char) :=
  (cursor.groups.find? (·.1 == number)).map (·.2)

/-- Reads a given text. -/
def reads? (comparison : Comparison) : List Char → Cursor → Option Cursor
  | [], cursor => some cursor
  | expected :: text, cursor =>
    match cursor.after with
    | c :: rest =>
      if (if comparison.ignoreCase then comparison.folded expected == comparison.folded c
          else expected == c) then
        reads? comparison text (cursor.next c rest)
      else none
    | [] => none

end Cursor

/-- Whether a condition on the place holds at a cursor.  In an empty text there is neither an edge
of a word nor a place without one. -/
def Place.holds (cursor : Cursor) : Place → Bool
  | start => cursor.before.isEmpty
  | lineStart =>
    match cursor.before with
    | [] => true
    | c :: _ => c == '\n'
  | finish => cursor.after.isEmpty || cursor.after == ['\n']
  | lineFinish =>
    match cursor.after with
    | [] => true
    | c :: _ => c == '\n'
  | absoluteFinish => cursor.after.isEmpty
  | wordEdge alphabet negated =>
    let isWord := fun c => Category.word.contains alphabet c
    !(cursor.before.isEmpty && cursor.after.isEmpty) &&
      (cursor.before.head?.any isWord != cursor.after.head?.any isWord) != negated

/-- What is to fit behind an expression. -/
abbrev Continuation := Cursor → Option Cursor

/-- Repeats `body`, as often as possible first.  After `least` rounds another round is tried only
if the cursor has moved since the last such round began at `last`, so that `rounds`, the bound on
their number, is never reached. -/
def repeatGreedy (body : Cursor → Continuation → Option Cursor) (least : Nat)
    (most : Option Nat) : (rounds count : Nat) → (last : Option Nat) → Cursor → Continuation →
    Option Cursor
  | 0, _, _, cursor, rest => rest cursor
  | rounds + 1, count, last, cursor, rest =>
    if count < least then
      body cursor fun moved => repeatGreedy body least most rounds (count + 1) last moved rest
    else if most.all (count < ·) && last != some cursor.after.length then
      match body cursor fun moved =>
          repeatGreedy body least most rounds (count + 1) (some cursor.after.length) moved rest with
      | some result => some result
      | none => rest cursor
    else rest cursor

/-- Repeats `body`, as seldom as possible first. -/
def repeatLazy (body : Cursor → Continuation → Option Cursor) (least : Nat)
    (most : Option Nat) : (rounds count : Nat) → (last : Option Nat) → Cursor → Continuation →
    Option Cursor
  | 0, _, _, cursor, rest => rest cursor
  | rounds + 1, count, last, cursor, rest =>
    if count < least then
      body cursor fun moved => repeatLazy body least most rounds (count + 1) last moved rest
    else
      match rest cursor with
      | some result => some result
      | none =>
        if most.all (count < ·) && last != some cursor.after.length then
          body cursor fun moved =>
            repeatLazy body least most rounds (count + 1) (some cursor.after.length) moved rest
        else none

/-- The bound on the rounds of a repetition: the required ones, one for every character that is
left, and one that reads nothing. -/
def roundLimit (least : Nat) (cursor : Cursor) : Nat :=
  least + cursor.after.length + 2

namespace Expression

/-- The first way in which an expression fits at a cursor and the rest fits behind it. -/
def run : Expression → Cursor → Continuation → Option Cursor
  | empty, cursor, rest => rest cursor
  | character comparison expected, cursor, rest =>
    match cursor.after with
    | c :: text => if comparison.equal expected c then rest (cursor.next c text) else none
    | [] => none
  | any lineFeeds, cursor, rest =>
    match cursor.after with
    | c :: text => if lineFeeds || c != '\n' then rest (cursor.next c text) else none
    | [] => none
  | oneOf comparison cls, cursor, rest =>
    match cursor.after with
    | c :: text => if cls.accepts comparison c then rest (cursor.next c text) else none
    | [] => none
  | place condition, cursor, rest => if condition.holds cursor then rest cursor else none
  | group number body, cursor, rest =>
    body.run cursor fun moved =>
      let text := cursor.after.take (cursor.after.length - moved.after.length)
      rest { moved with groups := (number, text) :: moved.groups }
  | reference comparison number, cursor, rest =>
    match cursor.group? number with
    | some text =>
      match cursor.reads? comparison text with
      | some moved => rest moved
      | none => none
    | none => none
  | sequence first second, cursor, rest =>
    first.run cursor fun moved => second.run moved rest
  | alternative first second, cursor, rest =>
    match first.run cursor rest with
    | some result => some result
    | none => second.run cursor rest
  | repetition greed least most body, cursor, rest =>
    let again := fun place continuation => body.run place continuation
    let rounds := roundLimit least cursor
    match greed with
    | .greedy => repeatGreedy again least most rounds 0 none cursor rest
    | .lazy => repeatLazy again least most rounds 0 none cursor rest
    | .possessive =>
      match repeatGreedy again least most rounds 0 none cursor some with
      | some moved => rest moved
      | none => none
  | atomic body, cursor, rest =>
    match body.run cursor some with
    | some moved => rest moved
    | none => none
  | ahead negated body, cursor, rest =>
    match body.run cursor some, negated with
    | some moved, false => rest { cursor with groups := moved.groups }
    | none, true => rest cursor
    | _, _ => none
  | behind negated width body, cursor, rest =>
    match (cursor.back? width).bind fun earlier => body.run earlier some, negated with
    | some moved, false => rest { cursor with groups := moved.groups }
    | none, true => rest cursor
    | _, _ => none
  | choice number first second, cursor, rest =>
    if (cursor.group? number).isSome then first.run cursor rest else second.run cursor rest

end Expression

/-- What the groups remember, in order, when the expression fits the whole text; a group that took
no part remembers the empty text. -/
def matchAll? (regex : Regex) (text : List Char) : Option (List (List Char)) :=
  (regex.expression.run ⟨[], text, []⟩ fun cursor =>
      if cursor.after.isEmpty then some cursor else none).map fun cursor =>
    (List.range regex.groupCount).map fun index => (cursor.group? (index + 1)).getD []

end BuildSystem.Regex
