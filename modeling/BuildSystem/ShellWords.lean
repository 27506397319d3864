/-
**Words as a shell reads and writes them.**

* `ShellWords.split` — the words of a command line: blanks separate, single quotes keep everything,
  double quotes keep everything but a backslash before a backslash or a double quote, and a
  backslash outside of quotes keeps the next character.
* `ShellWords.quote` — one word that a shell reads as the given text.
-/

import BuildSystem.Text.Blank

namespace BuildSystem.ShellWords

/-- Why a command line has no words. -/
inductive SplitError where
  /-- The line ends inside of quotes. -/
  | noClosingQuotation
  /-- The line ends with a backslash that keeps nothing. -/
  | noEscapedCharacter
deriving DecidableEq, Repr

/-- The wording of the error. -/
def SplitError.message : SplitError → String
  | noClosingQuotation => "No closing quotation"
  | noEscapedCharacter => "No escaped character"

/-- Where in a command line the reader stands. -/
inductive Position where
  /-- Between two words. -/
  | gap
  /-- In a word, outside of quotes. -/
  | word
  /-- Between two quotes of the given kind. -/
  | quotes (mark : Char)
  /-- After a backslash, possibly between quotes. -/
  | escape (mark : Option Char)
deriving DecidableEq, Repr

/-- The blanks between the words of a command line. -/
def isGap (c : Char) : Bool :=
  c == ' ' || c == '\t' || c == '\r' || c == '\n'

/-- The two kinds of quotes. -/
def isQuote (c : Char) : Bool :=
  c == '\'' || c == '"'

/-- The words from a position on; `current` is the part of the current word that has been read. -/
def splitFrom : Position → List Char → List Char → Except SplitError (List (List Char))
  | .gap, _, [] => .ok []
  | .word, current, [] => .ok [current]
  | .quotes _, _, [] => .error .noClosingQuotation
  | .escape _, _, [] => .error .noEscapedCharacter
  | .gap, current, c :: rest =>
    if isGap c then splitFrom .gap current rest
    else if c == '\\' then splitFrom (.escape none) [] rest
    else if isQuote c then splitFrom (.quotes c) [] rest
    else splitFrom .word [c] rest
  | .word, current, c :: rest =>
    if isGap c then (splitFrom .gap [] rest).map (current :: ·)
    else if c == '\\' then splitFrom (.escape none) current rest
    else if isQuote c then splitFrom (.quotes c) current rest
    else splitFrom .word (current ++ [c]) rest
  | .quotes mark, current, c :: rest =>
    if c == mark then splitFrom .word current rest
    else if c == '\\' && mark == '"' then splitFrom (.escape (some mark)) current rest
    else splitFrom (.quotes mark) (current ++ [c]) rest
  | .escape none, current, c :: rest => splitFrom .word (current ++ [c]) rest
  | .escape (some mark), current, c :: rest =>
    if c == mark || c == '\\' then splitFrom (.quotes mark) (current ++ [c]) rest
    else splitFrom (.quotes mark) (current ++ ['\\', c]) rest

/-- The words of a command line. -/
def split (line : String) : Except SplitError (List String) :=
  (splitFrom .gap [] line.toList).map (·.map String.ofList)

/-- The characters that a shell reads as themselves: letters and digits of ASCII and a few signs. -/
def isPlain (c : Char) : Bool :=
  c.isAlphanum || "_@%+=:,./-".toList.contains c

/-- A text as one word: as it is if all its characters are plain, and otherwise between single
quotes, where a single quote is closed off and written between double quotes. -/
def quoteChars (text : List Char) : List Char :=
  if !text.isEmpty && text.all isPlain then text
  else
    '\'' :: text.flatMap (fun c => if c = '\'' then ['\'', '"', '\'', '"', '\''] else [c]) ++ ['\'']

/-- One word that a shell reads as the given text. -/
def quote (text : String) : String :=
  String.ofList (quoteChars text.toList)

end BuildSystem.ShellWords
