/-
**The lexical elements of a text.**

A text consists of blanks, characters that stand for themselves, quotations, references to variables
and commands, whatever values the variables have and whatever the commands print.

* `Lexeme`, `lexemes` — the elements of a text, up to an enclosure without an end, if there is one.
* `spelled_lexemes` — the elements of a text spell the text.
* `Expander.words_eq` — an expansion writes what one element after the other stands for.
* `error_marks` — the scan for open characters and the elements find the same enclosure without an
  end.
-/

import BuildSystem.Proofs.Variable.Quotation

namespace BuildSystem

open Expander (Position)

/-! ### Elements -/

/-- A lexical element. -/
inductive Lexeme where
  /-- A blank, which separates words. -/
  | blank (c : Char)
  /-- A character that stands for itself. -/
  | plain (c : Char)
  /-- A quotation of a text. -/
  | quoted (text : List Char)
  /-- A reference that is only a name. -/
  | name (name : List Char)
  /-- A reference between braces. -/
  | reference (body : List Char)
  /-- A command between braces. -/
  | command (body : List Char)
deriving DecidableEq, Repr

namespace Lexeme

/-- An element as it is written. -/
def text : Lexeme → List Char
  | .blank c => [c]
  | .plain c => [c]
  | .quoted content => Chars.quotation content
  | .name letters => '$' :: letters
  | .reference body => '$' :: '{' :: body ++ ['}']
  | .command body => '`' :: '{' :: body ++ ['}']

/-- What a character outside of quotes and references makes, and where it leads. -/
def begin (c : Char) : List Lexeme × Position :=
  if Chars.isBlank c then ([.blank c], .outside)
  else if c = '\'' then ([], .quoted [])
  else if c = '$' then ([], .dollar)
  else if c = '`' then ([], .backquote)
  else ([.plain c], .outside)

/-- What a character makes that begins something new behind an element. -/
def behind (first : Lexeme) (c : Char) : List Lexeme × Position :=
  (first :: (begin c).1, (begin c).2)

/-- What a character makes, and where it leads. -/
def step (c : Char) : Position → List Lexeme × Position
  | .outside => begin c
  | .dollar =>
    if c = '{' then ([], .reference [])
    else if isNameCharacter c then ([], .name [c])
    else behind (.plain '$') c
  | .name read => if isNameCharacter c then ([], .name (read ++ [c])) else behind (.name read) c
  | .reference read =>
    if c = '}' then ([.reference read], .outside) else ([], .reference (read ++ [c]))
  | .backquote => if c = '{' then ([], .command []) else behind (.plain '`') c
  | .command read =>
    if c = '}' then ([.command read], .outside) else ([], .command (read ++ [c]))
  | .quoted read => if c = '\'' then ([], .quoteSeen read) else ([], .quoted (read ++ [c]))
  | .quoteSeen read => if c = '\'' then ([], .quoted (read ++ [c])) else behind (.quoted read) c

/-- What the end of the text makes, and the error if an enclosure has no end. -/
def finish : Position → List Lexeme × Option ExpansionError
  | .outside => ([], none)
  | .dollar => ([.plain '$'], none)
  | .name read => ([.name read], none)
  | .backquote => ([.plain '`'], none)
  | .quoteSeen read => ([.quoted read], none)
  | .reference _ => ([], some .unterminatedReference)
  | .command _ => ([], some .unterminatedCommand)
  | .quoted _ => ([], some .unterminatedQuote)

end Lexeme

/-- The elements of a text from a position on, and the error if an enclosure has no end. -/
def lexemesFrom : Position → List Char → List Lexeme × Option ExpansionError
  | position, [] => Lexeme.finish position
  | position, c :: rest =>
    let (first, next) := Lexeme.step c position
    let (others, error) := lexemesFrom next rest
    (first ++ others, error)

/-- **The elements of a text**, and the error if an enclosure has no end. -/
def lexemes (text : List Char) : List Lexeme × Option ExpansionError :=
  lexemesFrom .outside text

theorem lexemesFrom_cons (position : Position) (c : Char) (rest : List Char) :
    lexemesFrom position (c :: rest) =
      ((Lexeme.step c position).1 ++ (lexemesFrom (Lexeme.step c position).2 rest).1,
        (lexemesFrom (Lexeme.step c position).2 rest).2) :=
  rfl

/-! ### Letters of names -/

/-- A letter of a name is not a given character that is no letter. -/
theorem ne_of_letter {c : Char} (letter : isNameCharacter c = true) (other : Char)
    (unnamed : isNameCharacter other = false) : c ≠ other := by
  rintro rfl
  rw [letter] at unnamed
  cases unnamed

theorem Chars.isBlank_letter {c : Char} (letter : isNameCharacter c = true) :
    isBlank c = false := by
  have visible : 0x30 ≤ c.toNat ∧ c.toNat ≤ 0x7A := by
    unfold isNameCharacter Char.isAlphanum Char.isAlpha Char.isUpper Char.isLower
      Char.isDigit at letter
    simp only [Bool.or_eq_true, Bool.and_eq_true, decide_eq_true_eq, beq_iff_eq,
      UInt32.le_iff_toNat_le, ge_iff_le] at letter
    rcases letter with ((upper | lower) | digit) | rfl
    · simp at upper
      omega
    · simp at lower
      omega
    · simp at digit
      omega
    · decide
  simp only [isBlank]
  simp
  omega

theorem Lexeme.begin_letter {c : Char} (letter : isNameCharacter c = true) :
    begin c = ([.plain c], .outside) := by
  simp [begin, Chars.isBlank_letter letter, ne_of_letter letter '\'' (by decide),
    ne_of_letter letter '$' (by decide), ne_of_letter letter '`' (by decide)]

/-! ### Elements spell the text -/

/-- The text of elements. -/
def spelled (elements : List Lexeme) : List Char :=
  elements.flatMap Lexeme.text

/-- What has been read and belongs to no element yet. -/
def Expander.Position.pending : Position → List Char
  | outside => []
  | dollar => ['$']
  | name read => '$' :: read
  | reference read => '$' :: '{' :: read
  | backquote => ['`']
  | command read => '`' :: '{' :: read
  | quoted read => '\'' :: Chars.replace '\'' ['\'', '\''] read
  | quoteSeen read => Chars.quotation read

namespace Lexeme

theorem spelled_begin (c : Char) : spelled (begin c).1 ++ (begin c).2.pending = [c] := by
  unfold begin
  split
  · simp [spelled, text, Position.pending]
  · split
    · next quote => simp [spelled, Position.pending, quote, Chars.replace]
    · split
      · next dollar => simp [spelled, Position.pending, dollar]
      · split
        · next backquote => simp [spelled, Position.pending, backquote]
        · simp [spelled, text, Position.pending]

theorem spelled_behind (first : Lexeme) (c : Char) :
    spelled (behind first c).1 ++ (behind first c).2.pending = first.text ++ [c] := by
  rw [← spelled_begin c]
  simp [behind, spelled]

theorem replace_concat (read : List Char) (c : Char) :
    Chars.replace '\'' ['\'', '\''] (read ++ [c]) =
      Chars.replace '\'' ['\'', '\''] read ++ if c = '\'' then ['\'', '\''] else [c] := by
  simp [Chars.replace]

theorem spelled_step (c : Char) (position : Position) :
    spelled (step c position).1 ++ (step c position).2.pending = position.pending ++ [c] := by
  cases position with
  | outside => exact spelled_begin c
  | dollar =>
    by_cases brace : c = '{'
    · simp [step, brace, spelled, Position.pending]
    · by_cases letter : isNameCharacter c = true
      · simp [step, brace, letter, spelled, Position.pending]
      · simpa [step, brace, letter, text, Position.pending] using spelled_behind (.plain '$') c
  | name read =>
    by_cases letter : isNameCharacter c = true
    · simp [step, letter, spelled, Position.pending]
    · simpa [step, letter, text, Position.pending] using spelled_behind (.name read) c
  | reference read =>
    by_cases brace : c = '}' <;> simp [step, brace, spelled, text, Position.pending]
  | backquote =>
    by_cases brace : c = '{'
    · simp [step, brace, spelled, Position.pending]
    · simpa [step, brace, text, Position.pending] using spelled_behind (.plain '`') c
  | command read =>
    by_cases brace : c = '}' <;> simp [step, brace, spelled, text, Position.pending]
  | quoted read =>
    by_cases quote : c = '\'' <;>
      simp [step, quote, spelled, Position.pending, Chars.quotation, replace_concat]
  | quoteSeen read =>
    by_cases quote : c = '\''
    · simp [step, quote, spelled, Position.pending, Chars.quotation, replace_concat]
    · simpa [step, quote, text, Position.pending] using spelled_behind (.quoted read) c

end Lexeme

/-- **The elements of a text spell the text**, if every enclosure has an end. -/
theorem spelled_lexemesFrom {position : Position} {rest : List Char}
    (ended : (lexemesFrom position rest).2 = none) :
    spelled (lexemesFrom position rest).1 = position.pending ++ rest := by
  induction rest generalizing position with
  | nil =>
    cases position <;>
      simp_all [lexemesFrom, Lexeme.finish, spelled, Lexeme.text, Position.pending]
  | cons c rest ih =>
    rw [lexemesFrom_cons] at ended ⊢
    rw [spelled, List.flatMap_append]
    show spelled (Lexeme.step c position).1 ++ spelled (lexemesFrom _ rest).1 = _
    rw [ih ended, ← List.append_assoc, Lexeme.spelled_step, List.append_assoc,
      List.singleton_append]

theorem spelled_lexemes {text : List Char} (ended : (lexemes text).2 = none) :
    spelled (lexemes text).1 = text :=
  spelled_lexemesFrom ended

/-! ### What elements stand for -/

namespace Expander

variable {σ : Type} (expander : Expander σ)

/-- Writes what an element stands for. -/
def write (words : Words) : Lexeme → Action σ Words
  | .blank _ => pure words.flush
  | .plain c => pure (words.add (String.singleton c))
  | .quoted text => pure (words.add (String.ofList text))
  | .name name => pure (expander.addName name words)
  | .reference body => expander.addReference body words
  | .command body => expander.addOutput body words

/-- Writes what elements stand for; an enclosure without an end is an error. -/
def interpret (words : Words) (lexed : List Lexeme × Option ExpansionError) :
    Action σ (List String) := do
  let words ← lexed.1.foldlM expander.write words
  match lexed.2 with
  | none => return words.flush.complete
  | some error => throw (.expansion error)

theorem write_begin (words : Words) (c : Char) :
    (Lexeme.begin c).1.foldlM expander.write words = pure (stepOutside c words).2 ∧
      (Lexeme.begin c).2 = (stepOutside c words).1 := by
  unfold Lexeme.begin stepOutside
  split
  · simp [write]
  · split
    · simp
    · split
      · simp
      · split
        · simp
        · simp [write]

/-- What is open is written in front of what a character begins. -/
theorem write_behind (first : Lexeme) {words next : Words} (c : Char)
    (writes : expander.write words first = pure next) :
    (pure (stepOutside c next) : Action σ (Position × Words)) = do
      let words ← (Lexeme.behind first c).1.foldlM expander.write words
      return ((Lexeme.behind first c).2, words) := by
  obtain ⟨written, leads⟩ := expander.write_begin next c
  simp only [Lexeme.behind, List.foldlM_cons, writes, pure_bind, written, leads]

/-- When it has read a character, an expansion has written what the elements stand for that the
character makes. -/
theorem step_eq (position : Position) (words : Words) (c : Char) :
    expander.step (position, words) c = do
      let words ← (Lexeme.step c position).1.foldlM expander.write words
      return ((Lexeme.step c position).2, words) := by
  cases position with
  | outside =>
    obtain ⟨written, leads⟩ := expander.write_begin words c
    simp only [step, Lexeme.step, written, leads, pure_bind]
  | dollar =>
    by_cases brace : c = '{'
    · simp [step, Lexeme.step, brace]
    · by_cases letter : isNameCharacter c = true
      · simp [step, Lexeme.step, brace, letter]
      · simp only [step, Lexeme.step, if_neg brace, if_neg letter]
        exact expander.write_behind (.plain '$') c rfl
  | name read =>
    by_cases letter : isNameCharacter c = true
    · simp [step, Lexeme.step, letter]
    · simp only [step, Lexeme.step, if_neg letter]
      exact expander.write_behind (.name read) c rfl
  | reference read =>
    by_cases brace : c = '}' <;> simp [step, Lexeme.step, brace, write]
  | backquote =>
    by_cases brace : c = '{'
    · simp [step, Lexeme.step, brace]
    · simp only [step, Lexeme.step, if_neg brace]
      exact expander.write_behind (.plain '`') c rfl
  | command read =>
    by_cases brace : c = '}' <;> simp [step, Lexeme.step, brace, write]
  | quoted read =>
    by_cases quote : c = '\'' <;> simp [step, Lexeme.step, quote]
  | quoteSeen read =>
    by_cases quote : c = '\''
    · simp [step, Lexeme.step, quote]
    · simp only [step, Lexeme.step, if_neg quote]
      exact expander.write_behind (.quoted read) c rfl

/-- What the end of a text does is what its last element does, or an error. -/
theorem finish_eq (position : Position) (words : Words) :
    expander.finish (position, words) = expander.interpret words (Lexeme.finish position) := by
  cases position <;> simp [finish, interpret, Lexeme.finish, write]

theorem wordsFrom_eq (position : Position) (words : Words) (text : List Char) :
    expander.wordsFrom (position, words) text =
      expander.interpret words (lexemesFrom position text) := by
  induction text generalizing position words with
  | nil => exact expander.finish_eq position words
  | cons c rest ih =>
    rw [wordsFrom, step_eq, lexemesFrom_cons]
    simp [interpret, ih, List.foldlM_append]

/-- **An expansion writes what one element of the text after the other stands for.** -/
theorem words_eq (text : String) :
    expander.words text = expander.interpret {} (lexemes text.toList) :=
  expander.wordsFrom_eq .outside {} text.toList

end Expander

/-! ### Elements and open characters -/

/-- Where the scan for open characters stands. -/
def Expander.Position.scan : Position → Scan.Position
  | outside => .outside
  | dollar => .sign '$'
  | name _ => .outside
  | reference _ => .braced '$'
  | backquote => .sign '`'
  | command _ => .braced '`'
  | quoted _ => .quoted
  | quoteSeen _ => .quoteSeen

theorem Lexeme.scan_begin (c : Char) : (begin c).2.scan = (Scan.stepOutside c).2 := by
  by_cases quote : c = '\''
  · simp [begin, Scan.stepOutside, quote, Chars.isBlank, Position.scan]
  by_cases dollar : c = '$'
  · simp [begin, Scan.stepOutside, dollar, Chars.isBlank, Position.scan]
  by_cases backquote : c = '`'
  · simp [begin, Scan.stepOutside, backquote, Chars.isBlank, Position.scan]
  by_cases blank : Chars.isBlank c = true <;>
    simp [begin, Scan.stepOutside, blank, quote, dollar, backquote, Position.scan]

/-- The letters of a name are open. -/
theorem Scan.stepOutside_letter {c : Char} (letter : isNameCharacter c = true) :
    stepOutside c = ([⟨c, true⟩], .outside) := by
  simp [stepOutside, ne_of_letter letter '\'' (by decide), ne_of_letter letter '$' (by decide),
    ne_of_letter letter '`' (by decide)]

theorem Lexeme.scan_step (c : Char) (position : Position) :
    (step c position).2.scan = (Scan.step c position.scan).2 := by
  cases position with
  | outside => exact scan_begin c
  | dollar =>
    by_cases brace : c = '{'
    · simp [step, Scan.step, brace, Position.scan]
    · by_cases letter : isNameCharacter c = true
      · simp [step, Scan.step, brace, letter, Position.scan, Scan.stepOutside_letter letter]
      · simpa [step, Scan.step, brace, letter, Position.scan, behind] using scan_begin c
  | name read =>
    by_cases letter : isNameCharacter c = true
    · simp [step, Scan.step, letter, Position.scan, Scan.stepOutside_letter letter]
    · simpa [step, Scan.step, letter, Position.scan, behind] using scan_begin c
  | reference read =>
    by_cases brace : c = '}' <;> simp [step, Scan.step, brace, Position.scan]
  | backquote =>
    by_cases brace : c = '{'
    · simp [step, Scan.step, brace, Position.scan]
    · simpa [step, Scan.step, brace, Position.scan, behind] using scan_begin c
  | command read =>
    by_cases brace : c = '}' <;> simp [step, Scan.step, brace, Position.scan]
  | quoted read =>
    by_cases quote : c = '\'' <;> simp [step, Scan.step, quote, Position.scan]
  | quoteSeen read =>
    by_cases quote : c = '\''
    · simp [step, Scan.step, quote, Position.scan]
    · simpa [step, Scan.step, quote, Position.scan, behind] using scan_begin c

theorem error_marksFrom (position : Position) (text : List Char) :
    (Scan.marksFrom position.scan text).2 = (lexemesFrom position text).2 := by
  induction text generalizing position with
  | nil => cases position <;> rfl
  | cons c rest ih =>
    show (Scan.marksFrom (Scan.step c position.scan).2 rest).2 = _
    rw [← Lexeme.scan_step, ih]
    rfl

/-- **The scan and the elements find the same enclosure without an end.** -/
theorem error_marks (text : List Char) : (Scan.marks text).2 = (lexemes text).2 :=
  error_marksFrom .outside text

end BuildSystem
