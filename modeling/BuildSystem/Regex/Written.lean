/-
**Regular expressions as they are written.**

* `Regex.Token` — a character of the written form, alone or behind a backslash.
* `Regex.Refusal` — why a text denotes no regular expression.
* `Regex.read` — the regular expression that a text denotes, or why there is none.

The written form knows literal characters, `.`, classes in brackets, `^`, `$`, `|`, the repetitions
`*`, `+`, `?` and `{m,n}` with their lazy and possessive forms, groups, which may have a name,
groups that remember nothing, atomic groups, comments, flags for the whole expression or for a
group, conditions on what follows or precedes, references back to a group by number or name, choices
by what a group remembers, and escapes.  Characters by their Unicode names (`\N`) are left out, and so
is the obsolete flag `t`.
-/

import BuildSystem.Regex.Expression
import BuildSystem.Text.Integer

namespace BuildSystem

namespace Regex

/-- Why a text denotes no regular expression. -/
inductive Refusal where
  /-- The text is not well formed. -/
  | malformed
  /-- The text asks for what no expression can have, which is a failure of the given kind. -/
  | excessive (kind message : String)
deriving DecidableEq, Repr

/-- What is not well formed is refused. -/
def wellFormed {α : Type} : Option α → Except Refusal α
  | some found => .ok found
  | none => .error .malformed

/-- A character of a written expression. -/
inductive Token where
  /-- A character that stands alone. -/
  | plain (c : Char)
  /-- A character behind a backslash. -/
  | escaped (c : Char)
deriving DecidableEq, Repr

/-- The tokens of a written expression; a backslash at the end is refused. -/
def tokens? : List Char → Option (List Token)
  | [] => some []
  | ['\\'] => none
  | '\\' :: c :: rest => (tokens? rest).map (.escaped c :: ·)
  | c :: rest => (tokens? rest).map (.plain c :: ·)

/-- How a part of the expression is to be read. -/
structure Flags where
  ignoreCase : Bool := false
  multipleLines : Bool := false
  anyIncludesLineFeed : Bool := false
  spaced : Bool := false
  alphabet : Alphabet := .all
deriving DecidableEq, Repr

/-- How characters are compared under the flags. -/
def Flags.comparison (flags : Flags) : Comparison :=
  ⟨flags.ignoreCase, flags.alphabet⟩

/-- What is known about the groups of the part that has been read. -/
structure Groups where
  /-- The number of groups that have been opened. -/
  count : Nat := 0
  /-- The groups that have not been closed. -/
  pending : List Nat := []
  /-- The numbers of the named groups. -/
  named : List (String × Nat) := []
  /-- The flags of the whole expression. -/
  flags : Flags := {}
  /-- The letters of alphabets among the flags of the whole expression. -/
  alphabets : List Char := []
  /-- How many characters the closed groups remember. -/
  widths : List (Nat × Width) := []
  /-- The number of groups that were opened before the condition on what precedes that is being
  read, if there is one. -/
  outside : Option Nat := none
  /-- The numbers of the groups by which choices are made. -/
  choosing : List Nat := []
  /-- Whether a condition on what precedes has no fixed width. -/
  loose : Bool := false

namespace Groups

/-- Whether a group has been opened and closed. -/
def isClosed (groups : Groups) (number : Nat) : Bool :=
  1 ≤ number && number ≤ groups.count && !groups.pending.contains number

/-- Whether a group may be referred to: it is closed, and does not belong to the condition on what
precedes that is being read. -/
def mayRefer (groups : Groups) (number : Nat) : Bool :=
  groups.isClosed number && groups.outside.all (number ≤ ·)

/-- Whether a choice may be made by a group.  The group may be opened later, unless a condition on
what precedes is being read. -/
def mayChoose (groups : Groups) (number : Nat) : Bool :=
  groups.outside.isNone || groups.mayRefer number

/-- How many characters a group remembers. -/
def width (groups : Groups) (number : Nat) : Width :=
  ((groups.widths.find? (·.1 == number)).map (·.2)).getD {}

/-- Whether the whole expression may be used: conditions on what precedes have fixed widths, and
choices are made by groups that exist. -/
def isSound (groups : Groups) : Bool :=
  !groups.loose && groups.choosing.all (· ≤ groups.count)

end Groups

/-- What a repetition sign may follow. -/
inductive ItemKind where
  | place
  | repeated
  | other
deriving DecidableEq, Repr

/-- One item of a sequence. -/
structure Item where
  kind : ItemKind
  expression : Expression

/-- The items of a sequence, the last one first, as one expression. -/
def sequenceOf (items : List Item) : Expression :=
  match items.reverse.map (·.expression) with
  | [] => .empty
  | first :: others => others.foldl .sequence first

/-! ### Characters and escapes -/

/-- The value of a digit in base sixteen. -/
def hexadecimalValue? (c : Char) : Option Nat :=
  if c.isDigit then some (c.toNat - 48)
  else if 'a' ≤ c && c ≤ 'f' then some (c.toNat - 87)
  else if 'A' ≤ c && c ≤ 'F' then some (c.toNat - 55)
  else none

/-- Whether a character is a digit in base eight. -/
def isOctal (c : Char) : Bool :=
  '0' ≤ c && c ≤ '7'

/-- The character with a code point, if there is one. -/
def character? (code : Nat) : Option Char :=
  if h : code.isValidChar then some (Char.ofNatAux code h) else none

/-- Reads exactly `count` digits in base sixteen. -/
def readHexadecimal? : (count : Nat) → Nat → List Token → Option (Nat × List Token)
  | 0, value, rest => some (value, rest)
  | count + 1, value, .plain c :: rest =>
    match hexadecimalValue? c with
    | some digit => readHexadecimal? count (16 * value + digit) rest
    | none => none
  | _ + 1, _, _ => none

/-- Reads up to `count` digits in base eight. -/
def readOctal : (count : Nat) → Nat → List Token → Nat × List Token
  | count + 1, value, .plain c :: rest =>
    if isOctal c then readOctal count (8 * value + (c.toNat - 48)) rest
    else (value, .plain c :: rest)
  | _, value, rest => (value, rest)

/-- The control characters that have an escape of their own. -/
def control? : Char → Option Char
  | 'a' => some '\x07'
  | 'f' => some '\x0c'
  | 'n' => some '\n'
  | 'r' => some '\r'
  | 't' => some '\t'
  | 'v' => some '\x0b'
  | '\\' => some '\\'
  | _ => none

/-- The kinds of characters that have an escape. -/
def category? : Char → Option (Category × Bool)
  | 'd' => some (.digit, false)
  | 'D' => some (.digit, true)
  | 's' => some (.blank, false)
  | 'S' => some (.blank, true)
  | 'w' => some (.word, false)
  | 'W' => some (.word, true)
  | _ => none

/-- Reads the character that an escape with a code point denotes. -/
def readCode? (c : Char) (rest : List Token) : Option (Char × List Token) := do
  let width ← match c with
    | 'x' => some 2
    | 'u' => some 4
    | 'U' => some 8
    | _ => none
  let (code, rest) ← readHexadecimal? width 0 rest
  return (← character? code, rest)

/-- Reads an escape between brackets. -/
def readMemberEscape? (c : Char) (rest : List Token) : Option (Member × List Token) :=
  if c = 'b' then some (.one '\x08', rest)
  else if let some control := control? c then some (.one control, rest)
  else if let some (category, negated) := category? c then some (.kind category negated, rest)
  else if isOctal c then do
    let (code, rest) := readOctal 2 (c.toNat - 48) rest
    if code ≤ 255 then return (.one (← character? code), rest) else none
  else if c.isDigit then none
  else if c.isAlpha then (readCode? c rest).map fun (found, rest) => (.one found, rest)
  else some (.one c, rest)

/-- Reads a reference to a group, or a character given by three digits in base eight. -/
def readDigits? (flags : Flags) (groups : Groups) (c : Char) (rest : List Token) :
    Option (Expression × List Token) :=
  let reference := fun (number : Nat) (rest : List Token) =>
    if groups.mayRefer number then some (Expression.reference flags.comparison number, rest)
    else none
  match rest with
  | .plain d :: rest =>
    if d.isDigit then
      match rest with
      | .plain e :: rest' =>
        if isOctal c && isOctal d && isOctal e then do
          let code := 64 * (c.toNat - 48) + 8 * (d.toNat - 48) + (e.toNat - 48)
          if code ≤ 255 then
            return (.character flags.comparison (← character? code), rest')
          else none
        else reference (10 * (c.toNat - 48) + (d.toNat - 48)) rest
      | _ => reference (10 * (c.toNat - 48) + (d.toNat - 48)) rest
    else reference (c.toNat - 48) (.plain d :: rest)
  | rest => reference (c.toNat - 48) rest

/-- Reads an escape outside of brackets. -/
def readEscape? (flags : Flags) (groups : Groups) (c : Char) (rest : List Token) :
    Option (Item × List Token) :=
  let place := fun condition => some (⟨.place, .place condition⟩, rest)
  let one := fun (found : Char) (rest : List Token) =>
    some (⟨.other, .character flags.comparison found⟩, rest)
  if let some (category, negated) := category? c then
    some (⟨.other, .oneOf flags.comparison ⟨false, [.kind category negated]⟩⟩, rest)
  else
    match c with
    | 'A' => place .start
    | 'Z' => place .absoluteFinish
    | 'b' => place (.wordEdge flags.alphabet false)
    | 'B' => place (.wordEdge flags.alphabet true)
    | '0' => do
      let (code, rest) := readOctal 2 0 rest
      one (← character? code) rest
    | c =>
      if let some control := control? c then one control rest
      else if c.isDigit then
        (readDigits? flags groups c rest).map fun (expression, rest) =>
          (⟨.other, expression⟩, rest)
      else if c.isAlpha then (readCode? c rest).bind fun (found, rest) => one found rest
      else one c rest

/-! ### Classes -/

/-- The single character that a member of a class consists of. -/
def Member.character? : Member → Option Char
  | one c => some c
  | _ => none

/-- Reads one member of a class. -/
def readMember? : Token → List Token → Option (Member × List Token)
  | .plain c, rest => some (.one c, rest)
  | .escaped c, rest => readMemberEscape? c rest

/-- Reads the members of a class up to its closing bracket, which closes it only if a member
precedes.  The first argument bounds the number of members. -/
def readMembers? : Nat → List Member → List Token → Option (List Member × List Token)
  | 0, _, _ => none
  | _ + 1, _, [] => none
  | bound + 1, members, token :: rest =>
    if token == .plain ']' && !members.isEmpty then some (members.reverse, rest)
    else do
      let (first, rest) ← readMember? token rest
      match rest with
      | .plain '-' :: .plain ']' :: rest => some ((.one '-' :: first :: members).reverse, rest)
      | .plain '-' :: token :: rest =>
        let (last, rest) ← readMember? token rest
        let low ← first.character?
        let high ← last.character?
        if low.toNat ≤ high.toNat then readMembers? bound (.range low high :: members) rest
        else none
      | rest => readMembers? bound (first :: members) rest

/-- Reads a class behind its opening bracket. -/
def readClass? (tokens : List Token) : Option (Class × List Token) :=
  let (negated, tokens) := match tokens with
    | .plain '^' :: rest => (true, rest)
    | tokens => (false, tokens)
  (readMembers? (tokens.length + 1) [] tokens).map fun (members, rest) =>
    (⟨negated, members⟩, rest)

/-! ### Repetitions -/

/-- Reads the digits of a bound. -/
def readBound : List Token → List Char × List Token
  | .plain c :: rest =>
    if c.isDigit then
      let (digits, rest) := readBound rest
      (c :: digits, rest)
    else ([], .plain c :: rest)
  | rest => ([], rest)

/-- What stands behind an opening brace. -/
inductive Braces where
  /-- Two bounds, of which the second may be missing. -/
  | bounds (least : Nat) (most : Option Nat) (rest : List Token)
  /-- The brace stands for itself. -/
  | literal
  /-- The bounds contradict each other or are too large. -/
  | refused (refusal : Refusal)

/-- The first bound that is too large for a repetition. -/
def bigBound : Nat := 4294967295

/-- The bound that digits denote. -/
def boundOf (digits : List Char) : Except Refusal Nat :=
  match Chars.natural? digits with
  | none =>
    .error (.excessive "ValueError"
      ("Exceeds the limit (" ++ toString Chars.maximumDigits ++
        " digits) for integer string conversion: value has " ++ toString digits.length ++
        " digits; use sys.set_int_max_str_digits() to increase the limit"))
  | some bound =>
    if bound ≥ bigBound then
      .error (.excessive "OverflowError" "the repetition number is too large")
    else .ok bound

/-- The bounds of a repetition; without digits there is none below or above. -/
def boundsOf (low high : List Char) : Except Refusal (Nat × Option Nat) := do
  let least ← if low.isEmpty then .ok 0 else boundOf low
  if high.isEmpty then return (least, none)
  let most ← boundOf high
  if most < least then .error .malformed else return (least, some most)

/-- Reads the bounds of a repetition behind the opening brace. -/
def readBraces (tokens : List Token) : Braces :=
  match tokens with
  | .plain '}' :: _ => .literal
  | tokens =>
    let (low, rest) := readBound tokens
    let (high, rest) := match rest with
      | .plain ',' :: rest => readBound rest
      | rest => (low, rest)
    match rest with
    | .plain '}' :: rest =>
      match boundsOf low high with
      | .ok (least, most) => .bounds least most rest
      | .error refusal => .refused refusal
    | _ => .literal

/-- Repeats the last item of a sequence, unless there is none or it must not be repeated. -/
def repeatLast? (least : Nat) (most : Option Nat) (items : List Item) (rest : List Token) :
    Option (List Item × List Token) :=
  match items with
  | [] => none
  | item :: items =>
    if item.kind = .other then
      let (greed, rest) : Greed × List Token := match rest with
        | .plain '?' :: rest => (.lazy, rest)
        | .plain '+' :: rest => (.possessive, rest)
        | rest => (.greedy, rest)
      some (⟨.repeated, .repetition greed least most item.expression⟩ :: items, rest)
    else none

/-! ### Names and flags of groups -/

/-- Reads a name up to its terminator. -/
def readName? (terminator : Char) : List Token → Option (List Char × List Token)
  | [] => none
  | .plain c :: rest =>
    if c = terminator then some ([], rest)
    else (readName? terminator rest).map fun (name, rest) => (c :: name, rest)
  | .escaped c :: rest =>
    (readName? terminator rest).map fun (name, rest) => ('\\' :: c :: name, rest)

/-- Whether a character may begin a name. -/
def beginsName (c : Char) : Bool :=
  let isIn := fun table => CharacterRanges.isInRanges table c.toNat
  if c.toNat < 128 then c.isAlpha || c == '_'
  else isIn CharacterRanges.nameSign || (isIn CharacterRanges.alphanumeric &&
    !(isIn CharacterRanges.nameless || isIn CharacterRanges.decimalDigit ||
      isIn CharacterRanges.innerLetter))

/-- Whether a character may go on a name. -/
def continuesName (c : Char) : Bool :=
  let isIn := fun table => CharacterRanges.isInRanges table c.toNat
  if c.toNat < 128 then c.isAlphanum || c == '_'
  else isIn CharacterRanges.nameSign || isIn CharacterRanges.nameMark ||
    (isIn CharacterRanges.alphanumeric && !isIn CharacterRanges.nameless)

/-- Whether a text is a name. -/
def isName : List Char → Bool
  | [] => false
  | c :: rest => beginsName c && rest.all continuesName

/-- The most groups that an expression may have. -/
def maximumGroups : Nat := 1073741823

/-- The group by which a choice is made: its name, or its number in decimal notation. -/
def choosingGroup? (groups : Groups) (name : List Char) : Option Nat :=
  if isName name then (groups.named.find? (·.1 == String.ofList name)).map (·.2)
  else
    match Chars.integer? (Chars.strip name) with
    | some number =>
      if 0 < number && number < maximumGroups then some number.toNat else none
    | none => none

/-- A change of the flags. -/
structure FlagChange where
  added : List Char := []
  removed : List Char := []

/-- The letters of the flags. -/
def isFlag (c : Char) : Bool :=
  "imsxau".toList.contains c

/-- The letters of the flags that choose an alphabet. -/
def isAlphabetFlag (c : Char) : Bool :=
  c == 'a' || c == 'u'

/-- Reads the letters of flags up to the first other character. -/
def readFlagLetters : List Token → List Char × List Token
  | .plain c :: rest =>
    if isFlag c then
      let (letters, rest) := readFlagLetters rest
      (c :: letters, rest)
    else ([], .plain c :: rest)
  | rest => ([], rest)

/-- Reads flags behind the question mark of a group.  The second result tells whether the flags are
those of the whole expression. -/
def readFlags? (tokens : List Token) : Option (FlagChange × Bool × List Token) :=
  let (added, rest) := readFlagLetters tokens
  if added.contains 'a' && added.contains 'u' then none
  else
    match rest with
    | .plain ')' :: rest => if added.isEmpty then none else some (⟨added, []⟩, true, rest)
    | .plain ':' :: rest => if added.isEmpty then none else some (⟨added, []⟩, false, rest)
    | .plain '-' :: rest =>
      let (removed, rest) := readFlagLetters rest
      match rest with
      | .plain ':' :: rest =>
        if removed.isEmpty || removed.any isAlphabetFlag || removed.any added.contains then none
        else some (⟨added, removed⟩, false, rest)
      | _ => none
    | _ => none

/-- The flags after a change. -/
def Flags.change (flags : Flags) (change : FlagChange) : Flags where
  ignoreCase := (flags.ignoreCase || change.added.contains 'i') && !change.removed.contains 'i'
  multipleLines :=
    (flags.multipleLines || change.added.contains 'm') && !change.removed.contains 'm'
  anyIncludesLineFeed :=
    (flags.anyIncludesLineFeed || change.added.contains 's') && !change.removed.contains 's'
  spaced := (flags.spaced || change.added.contains 'x') && !change.removed.contains 'x'
  alphabet :=
    if change.added.contains 'a' then .ascii
    else if change.added.contains 'u' then .all
    else flags.alphabet

/-! ### Groups, sequences and alternatives -/

/-- What a group does with what its body fits. -/
inductive GroupKind where
  | remembering (name : Option String)
  | plain
  | atomic
  | ahead (negated : Bool)
  | behind (negated : Bool)

/-- The opening of a group, or what only looks like one. -/
inductive Opening where
  /-- A group whose body follows. -/
  | body (kind : GroupKind) (flags : Flags) (rest : List Token)
  /-- A choice by what a group remembers. -/
  | choice (number : Nat) (rest : List Token)
  /-- A reference to a named group. -/
  | reference (number : Nat) (rest : List Token)
  /-- A comment. -/
  | comment (rest : List Token)
  /-- Flags of the whole expression. -/
  | flags (change : FlagChange) (rest : List Token)

/-- Reads a comment up to its closing bracket. -/
def readComment? : List Token → Option (List Token)
  | [] => none
  | token :: rest => if token == .plain ')' then some rest else readComment? rest

/-- Reads what stands behind the opening bracket of a group. -/
def readOpening? (flags : Flags) (groups : Groups) : List Token → Option Opening
  | .plain '?' :: .plain 'P' :: .plain '<' :: rest => do
    let (name, rest) ← readName? '>' rest
    let name' := String.ofList name
    if isName name && !groups.named.any (·.1 == name') then
      return .body (.remembering (some name')) flags rest
    else none
  | .plain '?' :: .plain 'P' :: .plain '=' :: rest => do
    let (name, rest) ← readName? ')' rest
    let (_, number) ← groups.named.find? (·.1 == String.ofList name)
    if isName name && groups.mayRefer number then return .reference number rest else none
  | .plain '?' :: .plain ':' :: rest => some (.body .plain flags rest)
  | .plain '?' :: .plain '>' :: rest => some (.body .atomic flags rest)
  | .plain '?' :: .plain '=' :: rest => some (.body (.ahead false) flags rest)
  | .plain '?' :: .plain '!' :: rest => some (.body (.ahead true) flags rest)
  | .plain '?' :: .plain '<' :: .plain '=' :: rest => some (.body (.behind false) flags rest)
  | .plain '?' :: .plain '<' :: .plain '!' :: rest => some (.body (.behind true) flags rest)
  | .plain '?' :: .plain '(' :: rest => do
    let (name, rest) ← readName? ')' rest
    let number ← choosingGroup? groups name
    if groups.mayChoose number then return .choice number rest else none
  | .plain '?' :: .plain '#' :: rest => (readComment? rest).map .comment
  | .plain '?' :: rest => do
    let (change, whole, rest) ← readFlags? rest
    if whole then return .flags change rest
    else return .body .plain (flags.change change) rest
  | rest => some (.body (.remembering none) flags rest)

/-- Records that a group has been opened. -/
def GroupKind.opened (groups : Groups) : GroupKind → Groups
  | remembering name =>
    let number := groups.count + 1
    { groups with
      count := number
      pending := number :: groups.pending
      named := match name with
        | some name => groups.named ++ [(name, number)]
        | none => groups.named }
  | behind _ => { groups with outside := some (groups.outside.getD groups.count) }
  | _ => groups

/-- Records that a group has been closed.  `before` is what was known when it opened, and `found`
when its body had been read. -/
def GroupKind.closed (before found : Groups) (body : Expression) (kind : GroupKind) : Groups :=
  let groups := { found with pending := before.pending, outside := before.outside }
  let width := body.width found.width
  match kind with
  | remembering _ => { groups with widths := (before.count + 1, width) :: found.widths }
  | behind _ => { groups with loose := found.loose || !width.isFixed }
  | _ => groups

/-- The item that a group makes of its body. -/
def GroupKind.item (before found : Groups) (body : Expression) : GroupKind → Item
  | remembering _ => ⟨.other, .group (before.count + 1) body⟩
  | plain => ⟨.other, body⟩
  | atomic => ⟨.other, .atomic body⟩
  | ahead negated => ⟨.other, .ahead negated body⟩
  | behind negated => ⟨.other, .behind negated (body.width found.width).least body⟩

/-- Drops what a comment behind a number sign leaves out of a spaced expression. -/
def dropLine : List Token → List Token
  | [] => []
  | token :: rest => if token == .plain '\n' then rest else dropLine rest

/-- The blanks that do not count in a spaced expression. -/
def isSpacing (c : Char) : Bool :=
  c == ' ' || (0x09 ≤ c.toNat && c.toNat ≤ 0x0D)

mutual

/-- Reads alternatives up to a closing bracket or the end.  `whole` tells whether they are the
whole expression.  The first argument bounds the number of steps. -/
def readAlternatives (steps : Nat) (flags : Flags) (whole : Bool) (groups : Groups)
    (tokens : List Token) : Except Refusal (Expression × Groups × List Token) :=
  match steps with
  | 0 => .error .malformed
  | steps + 1 =>
    match readSequence steps flags whole [] groups tokens with
    | .ok (first, groups, .plain '|' :: rest) =>
      let flags := if whole then groups.flags else flags
      readOthers steps flags first groups rest
    | result => result

/-- Reads the alternatives behind a bar. -/
def readOthers (steps : Nat) (flags : Flags) (first : Expression) (groups : Groups)
    (tokens : List Token) : Except Refusal (Expression × Groups × List Token) :=
  match steps with
  | 0 => .error .malformed
  | steps + 1 =>
    match readSequence steps flags false [] groups tokens with
    | .ok (second, groups, .plain '|' :: rest) =>
      readOthers steps flags (.alternative first second) groups rest
    | .ok (second, groups, rest) => .ok (.alternative first second, groups, rest)
    | .error refusal => .error refusal

/-- Reads a sequence up to a bar, a closing bracket or the end.  `leading` tells whether flags of
the whole expression may still stand here; `items` are the items read, the last one first. -/
def readSequence (steps : Nat) (flags : Flags) (leading : Bool) (items : List Item)
    (groups : Groups) (tokens : List Token) : Except Refusal (Expression × Groups × List Token) :=
  match steps with
  | 0 => .error .malformed
  | steps + 1 =>
    let continueWith := fun (item : Item) (rest : List Token) =>
      readSequence steps flags leading (item :: items) groups rest
    let repeated := fun (least : Nat) (most : Option Nat) (rest : List Token) =>
      (wellFormed (repeatLast? least most items rest)).bind fun (items, rest) =>
        readSequence steps flags leading items groups rest
    match tokens with
    | [] | .plain '|' :: _ | .plain ')' :: _ => .ok (sequenceOf items, groups, tokens)
    | .escaped c :: rest =>
      (wellFormed (readEscape? flags groups c rest)).bind fun (item, rest) =>
        continueWith item rest
    | .plain c :: rest =>
      if flags.spaced && isSpacing c then readSequence steps flags leading items groups rest
      else if flags.spaced && c = '#' then
        readSequence steps flags leading items groups (dropLine rest)
      else
        match c with
        | '[' =>
          (wellFormed (readClass? rest)).bind fun (cls, rest) =>
            continueWith ⟨.other, .oneOf flags.comparison cls⟩ rest
        | '*' => repeated 0 none rest
        | '+' => repeated 1 none rest
        | '?' => repeated 0 (some 1) rest
        | '{' =>
          match readBraces rest with
          | .bounds least most rest => repeated least most rest
          | .literal => continueWith ⟨.other, .character flags.comparison '{'⟩ rest
          | .refused refusal => .error refusal
        | '.' => continueWith ⟨.other, .any flags.anyIncludesLineFeed⟩ rest
        | '^' =>
          continueWith ⟨.place, .place (if flags.multipleLines then .lineStart else .start)⟩ rest
        | '$' =>
          continueWith ⟨.place, .place (if flags.multipleLines then .lineFinish else .finish)⟩ rest
        | '(' =>
          match readOpening? flags groups rest with
          | none => .error .malformed
          | some (.comment rest) => readSequence steps flags leading items groups rest
          | some (.reference number rest) =>
            continueWith ⟨.other, .reference flags.comparison number⟩ rest
          | some (.flags change rest) =>
            if leading && items.isEmpty then
              let flags := flags.change change
              let alphabets := groups.alphabets ++ change.added.filter isAlphabetFlag
              readSequence steps flags leading items { groups with flags, alphabets } rest
            else .error .malformed
          | some (.body kind inner rest) =>
            match readAlternatives steps inner false (kind.opened groups) rest with
            | .ok (body, found, .plain ')' :: rest) =>
              readSequence steps flags leading (kind.item groups found body :: items)
                (kind.closed groups found body) rest
            | .ok _ => .error .malformed
            | .error refusal => .error refusal
          | some (.choice number rest) =>
            match readChoice steps flags number
                { groups with choosing := number :: groups.choosing } rest with
            | .ok (choice, groups, .plain ')' :: rest) =>
              readSequence steps flags leading (⟨.other, choice⟩ :: items) groups rest
            | .ok _ => .error .malformed
            | .error refusal => .error refusal
        | c => continueWith ⟨.other, .character flags.comparison c⟩ rest

/-- Reads the one or two sequences among which a choice is made. -/
def readChoice (steps : Nat) (flags : Flags) (number : Nat) (groups : Groups)
    (tokens : List Token) : Except Refusal (Expression × Groups × List Token) :=
  match steps with
  | 0 => .error .malformed
  | steps + 1 =>
    match readSequence steps flags false [] groups tokens with
    | .ok (first, groups, .plain '|' :: rest) =>
      (readSequence steps flags false [] groups rest).map fun (second, groups, rest) =>
        (.choice number first second, groups, rest)
    | .ok (first, groups, rest) => .ok (.choice number first .empty, groups, rest)
    | .error refusal => .error refusal

end

/-- The regular expression that a text denotes, or why there is none. -/
def read (text : String) : Except Refusal Regex := do
  let tokens ← wellFormed (tokens? text.toList)
  let (expression, groups, rest) ← readAlternatives (2 * tokens.length + 2) {} true {} tokens
  if groups.alphabets.contains 'a' && groups.alphabets.contains 'u' then
    .error (.excessive "ValueError" "ASCII and UNICODE flags are incompatible")
  else if rest.isEmpty && groups.isSound then return ⟨expression, groups.count⟩
  else .error .malformed

end Regex

end BuildSystem
