/-
**The words of a command that is put together.**

A comparator is a command line of its own, behind which the names of a target and of a prerequisite
are written.  Whatever characters these names have, they are two words for the shell, and the words
of the comparator stay as they are.

* `splitFrom_cons` — what a character completes, and where it leaves the reader, does not depend on
  what follows.
* `splitFrom_append` — a gap behind a line that ends outside of quotes keeps its words apart from
  those that follow.
* `splitFrom_quoteChars` — a quoted text is one word, and the shell reads it as the text.
* `Plan.split_comparison` — the words of a comparison.
* `Plan.differs_asks` — this is what the shell is asked, and nothing else.
-/

import BuildSystem.Host.World
import BuildSystem.Plan
import BuildSystem.Proofs.Following

namespace BuildSystem

namespace ShellWords

/-! ### Words on both sides of a gap -/

/-- **A character is read on its own**: the words that it completes, and the place at which it
leaves the reader, do not depend on what follows. -/
theorem splitFrom_cons (position : Position) (current : List Char) (c : Char) :
    ∃ complete next begun, ∀ rest, splitFrom position current (c :: rest) =
      (splitFrom next begun rest).map (complete ++ ·) := by
  have onward : ∀ next begun, (∀ rest, splitFrom position current (c :: rest) =
      splitFrom next begun rest) → ∃ complete next begun, ∀ rest,
        splitFrom position current (c :: rest) =
          (splitFrom next begun rest).map (complete ++ ·) := by
    intro next begun leads
    refine ⟨[], next, begun, fun rest => ?_⟩
    rw [leads]
    cases splitFrom next begun rest with
    | ok words => rfl
    | error error => rfl
  cases position with
  | gap =>
    by_cases gap : isGap c = true
    · exact onward .gap current fun rest => by simp [splitFrom, gap]
    · by_cases escapes : (c == '\\') = true
      · exact onward (.escape none) [] fun rest => by simp [splitFrom, gap, escapes]
      · by_cases quotes : isQuote c = true
        · exact onward (.quotes c) [] fun rest => by simp [splitFrom, gap, escapes, quotes]
        · exact onward .word [c] fun rest => by simp [splitFrom, gap, escapes, quotes]
  | word =>
    by_cases gap : isGap c = true
    · exact ⟨[current], .gap, [], fun rest => by simp [splitFrom, gap]⟩
    · by_cases escapes : (c == '\\') = true
      · exact onward (.escape none) current fun rest => by simp [splitFrom, gap, escapes]
      · by_cases quotes : isQuote c = true
        · exact onward (.quotes c) current fun rest => by simp [splitFrom, gap, escapes, quotes]
        · exact onward .word (current ++ [c]) fun rest => by
            simp [splitFrom, gap, escapes, quotes]
  | quotes mark =>
    by_cases closes : (c == mark) = true
    · exact onward .word current fun rest => by simp [splitFrom, closes]
    · by_cases escapes : (c == '\\' && mark == '"') = true
      · exact onward (.escape (some mark)) current fun rest => by
          rw [splitFrom, if_neg closes, if_pos escapes]
      · exact onward (.quotes mark) (current ++ [c]) fun rest => by
          rw [splitFrom, if_neg closes, if_neg escapes]
  | escape outer =>
    cases outer with
    | none => exact onward .word (current ++ [c]) fun rest => by rw [splitFrom]
    | some mark =>
      by_cases kept : (c == mark || c == '\\') = true
      · exact onward (.quotes mark) (current ++ [c]) fun rest => by rw [splitFrom, if_pos kept]
      · exact onward (.quotes mark) (current ++ ['\\', c]) fun rest => by
          rw [splitFrom, if_neg kept]

/-- Between two words nothing of a word has been read. -/
theorem splitFrom_gap (current line : List Char) :
    splitFrom .gap current line = splitFrom .gap [] line := by
  induction line with
  | nil => rfl
  | cons c rest ih =>
    unfold splitFrom
    rw [ih]

/-- **A gap keeps the words in front of it apart from those behind it**, wherever the reader begins,
if the line in front of it has words. -/
theorem splitFrom_append {position : Position} {current line : List Char}
    {words : List (List Char)} (read : splitFrom position current line = .ok words) {c : Char}
    (gap : isGap c = true) (rest : List Char) :
    splitFrom position current (line ++ c :: rest) =
      (splitFrom .gap [] rest).map (words ++ ·) := by
  induction line generalizing position current words with
  | nil =>
    cases position with
    | gap =>
      obtain rfl := Except.ok.inj read
      rw [List.nil_append, splitFrom, if_pos gap, splitFrom_gap]
      cases splitFrom .gap [] rest with
      | ok words => rfl
      | error error => rfl
    | word =>
      obtain rfl := Except.ok.inj read
      rw [List.nil_append, splitFrom, if_pos gap]
      rfl
    | quotes mark => cases read
    | escape outer => cases read
  | cons first line ih =>
    obtain ⟨complete, next, begun, leads⟩ := splitFrom_cons position current first
    rw [leads] at read
    obtain ⟨others, behind, rfl⟩ := exists_of_map_eq_ok read
    rw [List.cons_append, leads, ih behind]
    cases splitFrom .gap [] rest with
    | ok words => simp [Except.map]
    | error error => rfl

/-! ### Quoted texts -/

/-- A plain character means nothing to the shell. -/
theorem isPlain_means_nothing {c : Char} (plain : isPlain c = true) :
    isGap c = false ∧ (c == '\\') = false ∧ isQuote c = false := by
  have meant : ∀ special ∈ [' ', '\t', '\r', '\n', '\\', '\'', '"'], isPlain special = false := by
    simp [isPlain]
  have ordinary : ∀ special ∈ [' ', '\t', '\r', '\n', '\\', '\'', '"'], c ≠ special := by
    rintro special listed rfl
    rw [meant c listed] at plain
    cases plain
  simpa [isGap, isQuote, and_assoc] using ordinary

theorem splitFrom_plain {text : List Char} (plain : ∀ c ∈ text, isPlain c = true)
    (current : List Char) : splitFrom .word current text = .ok [current ++ text] := by
  induction text generalizing current with
  | nil => simp [splitFrom]
  | cons c rest ih =>
    rw [List.forall_mem_cons] at plain
    obtain ⟨gap, escapes, quotes⟩ := isPlain_means_nothing plain.1
    simp [splitFrom, gap, escapes, quotes, ih plain.2]

/-- Between single quotes everything stands for itself, and a single quote is written outside of
them. -/
theorem splitFrom_enclosed (text current : List Char) :
    splitFrom (.quotes '\'') current
      (text.flatMap (fun c => if c = '\'' then ['\'', '"', '\'', '"', '\''] else [c]) ++ ['\'']) =
        .ok [current ++ text] := by
  induction text generalizing current with
  | nil => simp [splitFrom]
  | cons c rest ih =>
    by_cases quote : c = '\''
    · subst quote
      have escaped : isGap '"' = false ∧ isGap '\'' = false := by decide
      simpa [splitFrom, escaped, isQuote] using ih (current ++ ['\''])
    · simpa [splitFrom, quote] using ih (current ++ [c])

/-- **A quoted text is one word, and the shell reads it as the text**, whatever its characters. -/
theorem splitFrom_quoteChars (text : List Char) :
    splitFrom .gap [] (quoteChars text) = .ok [text] := by
  unfold quoteChars
  split
  · next simple =>
    rw [Bool.and_eq_true, List.all_eq_true] at simple
    cases text with
    | nil => cases simple.1
    | cons c rest =>
      have plain := List.forall_mem_cons.mp simple.2
      obtain ⟨gap, escapes, quotes⟩ := isPlain_means_nothing plain.1
      simpa [splitFrom, gap, escapes, quotes] using splitFrom_plain plain.2 [c]
  · have opens : isGap '\'' = false ∧ isQuote '\'' = true := by decide
    simpa [splitFrom, opens] using splitFrom_enclosed text []

end ShellWords

/-! ### Comparators -/

namespace Plan

open ShellWords (split splitFrom splitFrom_append splitFrom_quoteChars)

variable {σ : Type} {comparator : String} {words : List String}

/-- **The words of a comparison** are those of the comparator and the two names. -/
theorem split_comparison (read : split comparator = .ok words) (target prereq : String) :
    split (comparison comparator target prereq) = .ok (words ++ [target, prereq]) := by
  have gap : ShellWords.isGap ' ' = true := by decide
  have line : (comparison comparator target prereq).toList = comparator.toList ++ ' ' ::
      (ShellWords.quoteChars target.toList ++ ' ' :: ShellWords.quoteChars prereq.toList) := by
    simp [comparison, ShellWords.quote]
  obtain ⟨characters, found, rfl⟩ := exists_of_map_eq_ok read
  rw [split, line, splitFrom_append found gap, splitFrom_append (splitFrom_quoteChars _) gap,
    splitFrom_quoteChars]
  simp [Except.map]

/-- **An action asks the shell for one command**: its answer is whether the command ends with
anything but zero, it fails as the command fails, and all else that it does is to print. -/
def Asks (host : Host σ) (shell : List String) (command : String) (action : Action σ Bool) : Prop :=
  ∀ state, match host.attempt (shell ++ ["-c", command]) (host.environment state) state with
    | .ok completion after => ∃ pieces : List Printed, action state =
        .ok (completion.exitCode != 0)
          (pieces.foldl (fun current piece => host.print piece current) after)
    | .error failure after => action state = .error failure after

/-- **A comparator is asked about exactly the two names**, whatever characters these have: the
command that the shell is asked for has the words of the comparator and the names as two words. -/
theorem differs_asks (read : split comparator = .ok words) (target prereq : String)
    (host : Host σ) (console : Console) (shell : List String) :
    ∃ command, split command = .ok (words ++ [target, prereq]) ∧
      Asks host shell command (differs host console shell comparator target prereq) := by
  refine ⟨comparison comparator target prereq, split_comparison read target prereq, fun state => ?_⟩
  have begins : differs host console shell comparator target prereq state = EStateM.bind
      (host.attempt (shell ++ ["-c", comparison comparator target prereq])
        (host.environment state)) _ state := rfl
  rw [begins]
  unfold EStateM.bind
  cases host.attempt (shell ++ ["-c", comparison comparator target prereq])
      (host.environment state) state with
  | ok completion after => exact ⟨_, rfl⟩
  | error failure after => rfl

/-- A name with a quote, a line break and signs that a shell replaces, and one without
characters. -/
theorem differs_asks_awkward :
    split "cmp -s \"old copy\"" = .ok ["cmp", "-s", "old copy"] ∧
      ∃ command, split command = .ok ["cmp", "-s", "old copy", "it's\n$HOME\\", ""] ∧
        Asks World.host ["sh"] command
          (differs World.host {} ["sh"] "cmp -s \"old copy\"" "it's\n$HOME\\" "") :=
  have read : split "cmp -s \"old copy\"" = .ok ["cmp", "-s", "old copy"] := by rfl
  ⟨read, differs_asks read "it's\n$HOME\\" "" World.host {} ["sh"]⟩

end Plan

end BuildSystem
