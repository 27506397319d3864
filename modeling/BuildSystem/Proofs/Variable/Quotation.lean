/-
**Quoted texts stand for themselves.**

A text is quoted by writing a single quote in front of it and behind it and each of its own single
quotes twice.

* `Chars.quotation`, `Text.quotation` — a quoted text.
* `Chars.quotations`, `Text.quotations` — several ones, with spaces between them.
* `Scan.text_marksFrom` — the marks of a text spell the text.
* `Scan.Spells` — a text has the same marks in front of every text that does not go on with a quote.
* `Scan.spells_quotations` — only the spaces between quoted texts are open.
* `Expander.wordsFrom_quotations` — the words of quoted texts are these texts.
* `Expander.words_quotations` — so every list of texts can be written as one text, which holds no
  comment and is cut at no other character than a space.
-/

import BuildSystem.Proofs.Text.Pieces
import BuildSystem.Text.Search
import BuildSystem.Variable.Expansion
import BuildSystem.Variable.Scan
import Mathlib.Data.List.TakeWhile

namespace BuildSystem

/-! ### Quoted texts -/

namespace Chars

/-- A text between quotes, with each of its own quotes written twice. -/
def quotation (text : List Char) : List Char :=
  '\'' :: replace '\'' ['\'', '\''] text ++ ['\'']

/-- Quoted texts with spaces between them. -/
def quotations (texts : List (List Char)) : List Char :=
  [' '].intercalate (texts.map quotation)

end Chars

namespace Text

/-- A text between quotes, with each of its own quotes written twice. -/
def quotation (text : String) : String :=
  "'" ++ replace '\'' "''" text ++ "'"

/-- Quoted texts with spaces between them. -/
def quotations (texts : List String) : String :=
  unwords (texts.map quotation)

@[simp] theorem toList_quotation (text : String) :
    (quotation text).toList = Chars.quotation text.toList := by
  simp [quotation, replace, Chars.quotation]

@[simp] theorem toList_quotations (texts : List String) :
    (quotations texts).toList = Chars.quotations (texts.map String.toList) := by
  rw [quotations, unwords, toList_join, Chars.quotations, List.map_map, List.map_map]
  congr 1
  exact List.map_congr_left fun text _ => toList_quotation text

end Text

namespace Chars

theorem replace_cons (mark : Char) (value : List Char) (c : Char) (text : List Char) :
    replace mark value (c :: text) = (if c = mark then value else [c]) ++ replace mark value text :=
  List.flatMap_cons

theorem quotations_cons_cons (first second : List Char) (others : List (List Char)) :
    quotations (first :: second :: others) =
      quotation first ++ ' ' :: quotations (second :: others) := by
  simp [quotations, List.intercalate_cons_cons]

theorem quotations_singleton (text : List Char) : quotations [text] = quotation text := by
  simp [quotations]

theorem head?_quotations {texts : List (List Char)} (some : texts ≠ []) :
    (quotations texts).head? = .some '\'' := by
  match texts with
  | [text] => simp [quotations_singleton, quotation]
  | first :: second :: others => simp [quotations_cons_cons, quotation]

theorem getLast?_quotations {texts : List (List Char)} (some : texts ≠ []) :
    (quotations texts).getLast? = .some '\'' := by
  induction texts with
  | nil => exact absurd rfl some
  | cons first others ih =>
    cases others with
    | nil =>
      rw [quotations_singleton]
      exact List.getLast?_concat
    | cons second others =>
      rw [quotations_cons_cons, List.getLast?_append, List.getLast?_cons,
        ih (List.cons_ne_nil second others)]
      rfl

theorem mem_quotation {text : List Char} {c : Char} (member : c ∈ quotation text) :
    c = '\'' ∨ c ∈ text := by
  simp only [quotation, replace, List.mem_append, List.mem_cons, List.mem_flatMap] at member
  rcases member with (quote | ⟨other, there, written⟩) | quote | none
  · exact .inl quote
  · by_cases quote : other = '\'' <;> simp_all
  · exact .inl quote
  · cases none

/-- Quoted texts hold quotes, spaces and what the texts hold. -/
theorem mem_quotations {texts : List (List Char)} {c : Char} (member : c ∈ quotations texts) :
    c = '\'' ∨ c = ' ' ∨ ∃ text ∈ texts, c ∈ text := by
  induction texts with
  | nil => cases member
  | cons first others ih =>
    have here : c ∈ quotation first →
        c = '\'' ∨ c = ' ' ∨ ∃ text ∈ first :: others, c ∈ text := fun inside =>
      (mem_quotation inside).imp_right fun inside => .inr ⟨first, List.mem_cons_self, inside⟩
    cases others with
    | nil => exact here (quotations_singleton first ▸ member)
    | cons second others =>
      rw [quotations_cons_cons, List.mem_append, List.mem_cons] at member
      rcases member with inside | space | later
      · exact here inside
      · exact .inr (.inl space)
      · exact (ih later).imp_right (Or.imp_right fun ⟨text, among, inside⟩ =>
          ⟨text, List.mem_cons_of_mem first among, inside⟩)

end Chars

/-! ### The marks of a text -/

namespace Scan

/-- The character that has been read and waits for its mark. -/
def Position.pending : Position → List Char
  | .sign c => [c]
  | _ => []

theorem text_append (first second : List Mark) :
    text (first ++ second) = text first ++ text second :=
  List.map_append

theorem text_stepOutside (c : Char) :
    text (stepOutside c).1 ++ (stepOutside c).2.pending = [c] := by
  unfold stepOutside
  split
  · rfl
  · split <;> rfl

theorem text_step (c : Char) (position : Position) :
    text (step c position).1 ++ (step c position).2.pending = position.pending ++ [c] := by
  cases position with
  | outside => exact text_stepOutside c
  | sign sign =>
    by_cases brace : c = '{'
    · simp [step, brace, text, Position.pending]
    · simpa [step, brace, text, Position.pending] using text_stepOutside c
  | quoted =>
    by_cases quote : c = '\'' <;> simp [step, quote, text, Position.pending]
  | quoteSeen =>
    by_cases quote : c = '\''
    · simp [step, quote, text, Position.pending]
    · simpa [step, quote, Position.pending] using text_stepOutside c
  | braced sign =>
    by_cases brace : c = '}' <;> simp [step, brace, text, Position.pending]

/-- **The marks of a text spell the text.** -/
theorem text_marksFrom (position : Position) (rest : List Char) :
    text (marksFrom position rest).1 = position.pending ++ rest := by
  induction rest generalizing position with
  | nil => cases position <;> rfl
  | cons c rest ih =>
    show text ((step c position).1 ++ (marksFrom (step c position).2 rest).1) = _
    rw [text_append, ih, ← List.append_assoc, text_step, List.append_assoc]
    rfl

theorem text_of_marks {read : List Char} {seen : List Mark} {error : Option ExpansionError}
    (marked : marks read = (seen, error)) : text seen = read := by
  have spelled := text_marksFrom .outside read
  rwa [show marksFrom .outside read = (seen, error) from marked] at spelled

/-- What is open only where it is a space is open at no other character. -/
theorem Mark.closed_at {mark : Mark} {c : Char}
    (space : mark.isOpen = true → mark.character = ' ') (other : (' ' == c) = false) :
    (mark.isOpen && mark.character == c) = false := by
  cases isOpen : mark.isOpen with
  | false => rfl
  | true => rw [space isOpen, other, Bool.and_false]

end Scan

namespace Chars

variable {read : List Char} {seen : List Scan.Mark}

/-- A text without open number signs holds no comment. -/
theorem stripComment_eq_self (marked : Scan.marks read = (seen, none))
    (closed : ∀ mark ∈ seen, (mark.isOpen && mark.character == '#') = false) :
    stripComment read = .ok read := by
  have kept : ∀ mark ∈ seen, (!(mark.isOpen && mark.character == '#')) = true :=
    fun mark member => by rw [closed mark member, Bool.not_false]
  rw [stripComment, marked]
  dsimp only
  rw [List.takeWhile_eq_self_iff.mpr kept, Scan.text_of_marks marked]

/-- A text without open separators is not cut. -/
theorem splitUnquoted_eq_self {separates : Char → Bool} (marked : Scan.marks read = (seen, none))
    (closed : ∀ mark ∈ seen, (mark.isOpen && separates mark.character) = false) :
    splitUnquoted separates read = .ok [read] := by
  rw [splitUnquoted, marked]
  dsimp only
  rw [splitWhere_uncut closed, List.map_singleton, Scan.text_of_marks marked]

end Chars

namespace Scan

/-! ### Texts that are marked alike in front of every text -/

/-- The text has these marks in front of every text that does not begin with a quote. -/
def Spells (read : List Char) (marks : List Mark) : Prop :=
  ∀ rest : List Char, rest.head? ≠ some '\'' →
    marksFrom .outside (read ++ rest) =
      (marks ++ (marksFrom .outside rest).1, (marksFrom .outside rest).2)

namespace Spells

variable {read other : List Char} {seen others : List Mark}

theorem nil : Spells [] [] := fun _ _ => rfl

/-- A character that opens nothing is open itself. -/
theorem cons {c : Char} (plain : c ≠ '\'' ∧ c ≠ '$' ∧ c ≠ '`') (spells : Spells read seen) :
    Spells (c :: read) (⟨c, true⟩ :: seen) := by
  intro rest unquoted
  have reads : stepOutside c = ([⟨c, true⟩], .outside) := by simp [stepOutside, plain]
  show ((stepOutside c).1 ++ (marksFrom (stepOutside c).2 (read ++ rest)).1,
    (marksFrom (stepOutside c).2 (read ++ rest)).2) = _
  rw [reads, spells rest unquoted]
  rfl

/-- Characters that open nothing are open themselves. -/
theorem plain {text : List Char} (plain : ∀ c ∈ text, c ≠ '\'' ∧ c ≠ '$' ∧ c ≠ '`')
    (spells : Spells read seen) : Spells (text ++ read) (text.map (⟨·, true⟩) ++ seen) := by
  induction text with
  | nil => exact spells
  | cons c text ih =>
    exact (ih fun other member => plain other (List.mem_cons_of_mem c member)).cons
      (plain c List.mem_cons_self)

/-- A quote behind the first text could be its last one written twice, so none may stand there. -/
theorem append (first : Spells read seen) (second : Spells other others)
    (unquoted : other.head? ≠ some '\'') : Spells (read ++ other) (seen ++ others) := by
  intro rest begins
  have apart : (other ++ rest).head? ≠ some '\'' := by
    cases other with
    | nil => exact begins
    | cons c _ => exact unquoted
  rw [List.append_assoc, first _ apart, second rest begins, List.append_assoc]

theorem marks (spells : Spells read seen) : Scan.marks read = (seen, none) := by
  have alone := spells [] (by simp)
  rw [List.append_nil] at alone
  simpa [Scan.marks, marksFrom, finish] using alone

theorem text (spells : Spells read seen) : Scan.text seen = read :=
  text_of_marks spells.marks

end Spells

/-! ### The marks of quoted texts -/

/-- Behind a quote, a text that does not begin with another one is marked as outside. -/
theorem marksFrom_quoteSeen {rest : List Char} (unquoted : rest.head? ≠ some '\'') :
    marksFrom .quoteSeen rest = marksFrom .outside rest := by
  cases rest with
  | nil => rfl
  | cons c rest =>
    have other : c ≠ '\'' := by simpa using unquoted
    simp [marksFrom, step, other]

theorem marksFrom_quoted (read : List Char) {rest : List Char}
    (unquoted : rest.head? ≠ some '\'') :
    marksFrom .quoted (Chars.replace '\'' ['\'', '\''] read ++ '\'' :: rest) =
      ((Chars.replace '\'' ['\'', '\''] read ++ ['\'']).map (⟨·, false⟩) ++
        (marksFrom .outside rest).1, (marksFrom .outside rest).2) := by
  induction read with
  | nil =>
    simp [Chars.replace, marksFrom, step, marksFrom_quoteSeen unquoted]
  | cons c read ih =>
    rw [Chars.replace_cons]
    by_cases quote : c = '\''
    · simp [quote, marksFrom, step, ih]
    · simp [quote, marksFrom, step, ih]

/-- Every character of a quoted text is enclosed. -/
theorem spells_quotation (read : List Char) :
    Spells (Chars.quotation read) ((Chars.quotation read).map (⟨·, false⟩)) := by
  intro rest unquoted
  have inner := marksFrom_quoted read unquoted
  simp only [Chars.quotation, List.cons_append, List.append_assoc, List.nil_append] at inner ⊢
  simp [marksFrom, step, stepOutside, inner]

/-- **Only the spaces between quoted texts are open.** -/
theorem spells_quotations (texts : List (List Char)) :
    ∃ marks, Spells (Chars.quotations texts) marks ∧
      ∀ mark ∈ marks, mark.isOpen = true → mark.character = ' ' := by
  induction texts with
  | nil => exact ⟨[], .nil, by simp⟩
  | cons first others ih =>
    have enclosed : ∀ mark ∈ (Chars.quotation first).map (Mark.mk · false),
        mark.isOpen = true → mark.character = ' ' := by simp
    cases others with
    | nil =>
      rw [Chars.quotations_singleton]
      exact ⟨_, spells_quotation first, enclosed⟩
    | cons second others =>
      obtain ⟨marks, spells, spaces⟩ := ih
      rw [Chars.quotations_cons_cons]
      refine ⟨_, (spells_quotation first).append (spells.cons (by decide)) (by simp), ?_⟩
      intro mark member
      rcases List.mem_append.mp member with inside | member
      · exact enclosed mark inside
      rcases List.mem_cons.mp member with rfl | later
      · exact fun _ => rfl
      · exact spaces mark later

/-- A space in front of quoted texts is open, too. -/
theorem spells_space_quotations (texts : List (List Char)) :
    ∃ marks, Spells (' ' :: Chars.quotations texts) marks ∧
      ∀ mark ∈ marks, mark.isOpen = true → mark.character = ' ' := by
  obtain ⟨marks, spells, spaces⟩ := spells_quotations texts
  exact ⟨⟨' ', true⟩ :: marks, spells.cons (by decide), by simpa using spaces⟩

end Scan

/-! ### The words of quoted texts -/

namespace Expander

variable {σ : Type} (expander : Expander σ)

/-- Behind a quote, a text that does not begin with another one goes on outside. -/
theorem wordsFrom_quoteSeen (read : List Char) (words : Words) {rest : List Char}
    (unquoted : rest.head? ≠ some '\'') :
    expander.wordsFrom (.quoteSeen read, words) rest =
      expander.wordsFrom (.outside, words.add (String.ofList read)) rest := by
  cases rest with
  | nil => rfl
  | cons c rest =>
    have other : c ≠ '\'' := by simpa using unquoted
    simp [wordsFrom, step, other]

theorem wordsFrom_quoted (read text : List Char) (words : Words) (rest : List Char) :
    expander.wordsFrom (.quoted read, words)
        (Chars.replace '\'' ['\'', '\''] text ++ '\'' :: rest) =
      expander.wordsFrom (.quoteSeen (read ++ text), words) rest := by
  induction text generalizing read with
  | nil => simp [Chars.replace, wordsFrom, step]
  | cons c text ih =>
    rw [Chars.replace_cons]
    by_cases quote : c = '\''
    · simp [quote, wordsFrom, step, ih]
    · simp [quote, wordsFrom, step, ih]

/-- A quoted text is written into the current word. -/
theorem wordsFrom_quotation (text : String) (words : Words) {rest : List Char}
    (unquoted : rest.head? ≠ some '\'') :
    expander.wordsFrom (.outside, words) (Chars.quotation text.toList ++ rest) =
      expander.wordsFrom (.outside, words.add text) rest := by
  have inner := expander.wordsFrom_quoted [] text.toList words rest
  rw [List.nil_append, expander.wordsFrom_quoteSeen _ _ unquoted, String.ofList_toList] at inner
  simp only [Chars.quotation, List.cons_append, List.append_assoc, List.nil_append] at inner ⊢
  simpa [wordsFrom, step, stepOutside, Chars.isBlank] using inner

/-- A space completes the current word. -/
theorem wordsFrom_space (words : Words) (rest : List Char) :
    expander.wordsFrom (.outside, words) (' ' :: rest) =
      expander.wordsFrom (.outside, words.flush) rest := by
  simp [wordsFrom, step, stepOutside, Chars.isBlank]

/-- **The words of quoted texts are these texts.** -/
theorem wordsFrom_quotations (texts complete : List String) :
    expander.wordsFrom (.outside, ⟨complete, none⟩) (Chars.quotations (texts.map String.toList)) =
      pure (complete ++ texts) := by
  induction texts generalizing complete with
  | nil => simp [Chars.quotations, wordsFrom, finish, Words.flush]
  | cons first others ih =>
    cases others with
    | nil =>
      rw [List.map_singleton, Chars.quotations_singleton, ← List.append_nil (Chars.quotation _),
        expander.wordsFrom_quotation first _ (by simp)]
      simp [wordsFrom, finish, Words.add, Words.flush]
    | cons second others =>
      rw [List.map_cons, List.map_cons, Chars.quotations_cons_cons,
        expander.wordsFrom_quotation first _ (by simp), expander.wordsFrom_space]
      simpa [Words.add, Words.flush] using ih (complete ++ [first])

/-- **Every list of texts can be written**: quoted texts with spaces between them are expanded into
these texts, whatever values the variables have, and no command is run; they hold no comment, and
nothing but a space cuts them. -/
theorem words_quotations (texts : List String) :
    expander.words (Text.quotations texts) = pure texts ∧
    stripComment (Text.quotations texts) = .ok (Text.quotations texts) ∧
    ∀ separator, separator ≠ ' ' →
      splitUnquoted (· == separator) (Text.quotations texts) = .ok [Text.quotations texts] := by
  obtain ⟨marks, spells, spaces⟩ := Scan.spells_quotations (texts.map String.toList)
  rw [← Text.toList_quotations] at spells
  refine ⟨?_, ?_, fun separator other => ?_⟩
  · rw [words, Text.toList_quotations]
    exact expander.wordsFrom_quotations texts []
  · rw [stripComment, Chars.stripComment_eq_self spells.marks fun mark member =>
      Scan.Mark.closed_at (spaces mark member) (by decide)]
    exact congrArg Except.ok String.ofList_toList
  · have apart : (' ' == separator) = false := by simpa using other.symm
    rw [splitUnquoted, Chars.splitUnquoted_eq_self spells.marks fun mark member =>
      Scan.Mark.closed_at (spaces mark member) apart]
    exact congrArg (fun part => Except.ok [part]) String.ofList_toList

/-- Signs of references, commands, comments and quotes stand for themselves between quotes, and so
do blanks and empty texts, also where no command can be run. -/
theorem words_quotations_signs :
    words ⟨fun _ => ["value"], ["stem"], fun _ => throw (.programMissing "no such program")⟩
        "'$name `\x7bls\x7d #' '' 'it''s: \t' ''''" =
      (pure ["$name `\x7bls\x7d #", "", "it's: \t", "'"] : Action Unit (List String)) ∧
    ':' ≠ ' ' ∧
    splitUnquoted (· == ':') "'$name `\x7bls\x7d #' '' 'it''s: \t' ''''" =
      .ok ["'$name `\x7bls\x7d #' '' 'it''s: \t' ''''"] := by
  have quoted : Text.quotations ["$name `\x7bls\x7d #", "", "it's: \t", "'"] =
      "'$name `\x7bls\x7d #' '' 'it''s: \t' ''''" := by decide
  have other : ':' ≠ ' ' := by decide
  obtain ⟨words, -, uncut⟩ := words_quotations (σ := Unit)
    ⟨fun _ => ["value"], ["stem"], fun _ => throw (.programMissing "no such program")⟩
    ["$name `\x7bls\x7d #", "", "it's: \t", "'"]
  rw [quoted] at words uncut
  exact ⟨words, other, uncut ':' other⟩

end Expander

end BuildSystem
