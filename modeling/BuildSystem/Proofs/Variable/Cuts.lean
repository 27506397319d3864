/-
**Texts that are cut at open characters.**

* `Scan.marks_cut`, `part_alone` — what is cut off at open characters is marked alone as it is
  marked in the whole text, and has no references between braces but those of the whole text.
* `splitUnquoted_eq_error_iff` — a text can be cut exactly if every enclosure has an end.
* `WellFormed`, `Expander.words_answering` — an expansion fails only where an enclosure has no end
  or the body of a reference is not well formed.
* `Expander.words_fails_iff_uncut` — so an expansion fails where a text cannot be cut, and the parts
  of a text that can be cut can be expanded.
-/

import BuildSystem.Proofs.Text.Search
import BuildSystem.Proofs.Variable.Lexemes

namespace BuildSystem

open Expander (Position)

/-! ### Marks of the parts -/

namespace Scan

/-- What a text marks from a position on, and where it leads. -/
def after : Scan.Position → List Char → List Mark × Scan.Position
  | position, [] => ([], position)
  | position, c :: rest =>
    ((step c position).1 ++ (after (step c position).2 rest).1, (after (step c position).2 rest).2)

theorem marksFrom_append (position : Scan.Position) (text rest : List Char) :
    marksFrom position (text ++ rest) =
      ((after position text).1 ++ (marksFrom (after position text).2 rest).1,
        (marksFrom (after position text).2 rest).2) := by
  induction text generalizing position with
  | nil => rfl
  | cons c text ih =>
    show ((step c position).1 ++ (marksFrom (step c position).2 (text ++ rest)).1,
      (marksFrom (step c position).2 (text ++ rest)).2) = _
    rw [ih, after, List.append_assoc]

theorem marksFrom_eq (position : Scan.Position) (text : List Char) :
    marksFrom position text =
      ((after position text).1 ++ (finish (after position text).2).1,
        (finish (after position text).2).2) := by
  have alone := marksFrom_append position text []
  rwa [List.append_nil] at alone

theorem length_after (position : Scan.Position) (text : List Char) :
    (after position text).1.length + (after position text).2.pending.length =
      position.pending.length + text.length := by
  induction text generalizing position with
  | nil => simp [after]
  | cons c text ih =>
    have here := congrArg List.length (text_step c position)
    have later := ih (step c position).2
    simp only [Scan.text, List.length_append, List.length_map, List.length_singleton] at here
    simp only [after, List.length_append, List.length_cons]
    omega

theorem after_concat (position : Scan.Position) (text : List Char) (c : Char) :
    (after position (text ++ [c])).2 = (step c (after position text).2).2 := by
  induction text generalizing position with
  | nil => rfl
  | cons d text ih => exact ih (step d position).2

/-- Behind an open character a text is marked as at the beginning. -/
theorem marks_behind {c : Char} {rest : List Char} {others : List Mark}
    {error : Option ExpansionError}
    (marked : marksFrom .outside (c :: rest) = (⟨c, true⟩ :: others, error)) :
    marks rest = (others, error) ∧ ((stepOutside c).2 = .outside ∨
      (stepOutside c).2 = .sign c ∧ rest.head? ≠ some '{') := by
  by_cases quote : c = '\''
  · simp [marksFrom, step, stepOutside, quote] at marked
  by_cases sign : c = '$' ∨ c = '`'
  · have begins : stepOutside c = ([], .sign c) := by simp [stepOutside, quote, sign]
    cases rest with
    | nil =>
      simp only [marksFrom, step, begins, finish, List.nil_append] at marked
      obtain ⟨same, rfl⟩ := Prod.mk.inj marked
      exact ⟨by rw [← (List.cons.inj same).2]; rfl, .inr ⟨by rw [begins], by simp⟩⟩
    | cons d rest =>
      by_cases brace : d = '{'
      · simp [marksFrom, step, begins, brace] at marked
      · simp only [marksFrom, step, begins, if_neg brace, List.nil_append, List.cons_append]
          at marked
        obtain ⟨same, rfl⟩ := Prod.mk.inj marked
        refine ⟨?_, .inr ⟨by rw [begins], by simpa using brace⟩⟩
        rw [← (List.cons.inj same).2]
        rfl
  · have plain : stepOutside c = ([⟨c, true⟩], .outside) := by simp [stepOutside, quote, sign]
    simp only [marksFrom, step, plain, List.singleton_append] at marked
    obtain ⟨same, rfl⟩ := Prod.mk.inj marked
    exact ⟨by rw [← (List.cons.inj same).2]; rfl, .inl (by rw [plain])⟩

/-- In front of an open character no enclosure is open, and the character is marked as at the
beginning. -/
theorem marks_open {position : Scan.Position} {c : Char} {rest : List Char}
    {first others : List Mark} {error : Option ExpansionError}
    (marked : marksFrom position (c :: rest) = (first ++ ⟨c, true⟩ :: others, error))
    (waits : first.length = position.pending.length) :
    finish position = (first, none) ∧ (step c position).2 = (stepOutside c).2 ∧
      marksFrom .outside (c :: rest) = (⟨c, true⟩ :: others, error) := by
  cases position with
  | outside =>
    obtain rfl := List.length_eq_zero_iff.mp waits
    exact ⟨rfl, rfl, marked⟩
  | sign sign =>
    obtain ⟨mark, rfl⟩ := List.length_eq_one_iff.mp waits
    by_cases brace : c = '{'
    · simp [marksFrom, step, brace] at marked
    · have same : marksFrom (.sign sign) (c :: rest) =
          (⟨sign, true⟩ :: (marksFrom .outside (c :: rest)).1,
            (marksFrom .outside (c :: rest)).2) := by
        simp [marksFrom, step, brace]
      rw [same] at marked
      obtain ⟨marks, rfl⟩ := Prod.mk.inj marked
      obtain ⟨rfl, others⟩ := List.cons.inj marks
      exact ⟨rfl, by simp [step, brace], Prod.ext others rfl⟩
  | quoted =>
    obtain rfl := List.length_eq_zero_iff.mp waits
    simp [marksFrom, step] at marked
  | quoteSeen =>
    obtain rfl := List.length_eq_zero_iff.mp waits
    by_cases quote : c = '\''
    · simp [marksFrom, step, quote] at marked
    · refine ⟨rfl, by simp [step, quote], ?_⟩
      simpa [marksFrom, step, quote] using marked
  | braced sign =>
    obtain rfl := List.length_eq_zero_iff.mp waits
    simp [marksFrom, step] at marked

/-- **What stands before and behind an open character is marked alone as it is marked in the whole
text.** -/
theorem marks_cut {before rest : List Char} {c : Char} {first others : List Mark}
    {error : Option ExpansionError}
    (marked : marks (before ++ c :: rest) = (first ++ ⟨c, true⟩ :: others, error))
    (here : first.length = before.length) :
    marks before = (first, none) ∧ marks rest = (others, error) ∧
      ((after .outside (before ++ [c])).2 = .outside ∨
        (after .outside (before ++ [c])).2 = .sign c ∧ rest.head? ≠ some '{') := by
  have long := (length_after .outside before).trans (Nat.zero_add _)
  rw [marks, marksFrom_append] at marked
  rw [marks, marksFrom_eq, after_concat]
  generalize after .outside before = reached at marked long ⊢
  obtain ⟨seen, position⟩ := reached
  obtain ⟨pieces, rfl⟩ := Prod.mk.inj marked
  dsimp only at pieces long ⊢
  have short : seen.length ≤ first.length := by omega
  obtain ⟨open', rfl⟩ : seen <+: first :=
    List.prefix_of_prefix_length_le ⟨_, pieces⟩ ⟨_, rfl⟩ short
  rw [List.append_assoc, List.append_cancel_left_eq] at pieces
  have waits : open'.length = position.pending.length := by
    rw [List.length_append] at here
    omega
  obtain ⟨ended, leads, behind⟩ := marks_open (Prod.ext pieces rfl) waits
  rw [ended, leads]
  exact ⟨rfl, marks_behind behind⟩

/-- A text is cut at an open character as its marks are. -/
theorem text_cut {text : List Char} {c : Char} {first others : List Mark}
    {error : Option ExpansionError} (marked : marks text = (first ++ ⟨c, true⟩ :: others, error)) :
    text = Scan.text first ++ c :: Scan.text others := by
  rw [← text_of_marks marked, text_append]
  rfl

theorem length_text (marks : List Mark) : (text marks).length = marks.length :=
  List.length_map _

end Scan

/-! ### References of the parts -/

/-- The elements that a text makes from a position on, and where it leads. -/
def Lexeme.after : Position → List Char → List Lexeme × Position
  | position, [] => ([], position)
  | position, c :: rest =>
    ((step c position).1 ++ (after (step c position).2 rest).1, (after (step c position).2 rest).2)

theorem lexemesFrom_append (position : Position) (text rest : List Char) :
    lexemesFrom position (text ++ rest) =
      ((Lexeme.after position text).1 ++ (lexemesFrom (Lexeme.after position text).2 rest).1,
        (lexemesFrom (Lexeme.after position text).2 rest).2) := by
  induction text generalizing position with
  | nil => rfl
  | cons c text ih =>
    rw [List.cons_append, lexemesFrom_cons, ih, Lexeme.after, List.append_assoc]

theorem Lexeme.scan_after (position : Position) (text : List Char) :
    (after position text).2.scan = (Scan.after position.scan text).2 := by
  induction text generalizing position with
  | nil => rfl
  | cons c text ih =>
    rw [after, ih, scan_step]
    rfl

/-- A text has the references of what it begins with. -/
theorem mem_lexemes_append {text body : List Char} (rest : List Char)
    (member : .reference body ∈ (lexemes text).1) :
    .reference body ∈ (lexemes (text ++ rest)).1 := by
  have alone := lexemesFrom_append .outside text []
  rw [List.append_nil] at alone
  rw [lexemes, alone, List.mem_append] at member
  rw [lexemes, lexemesFrom_append, List.mem_append]
  refine .inl (member.resolve_right fun last => ?_)
  revert last
  cases (Lexeme.after .outside text).2 <;> simp [lexemesFrom, Lexeme.finish]

/-- In a name a text has the same references as at the beginning. -/
theorem mem_lexemesFrom_name (read text body : List Char) :
    .reference body ∈ (lexemesFrom (.name read) text).1 ↔
      .reference body ∈ (lexemes text).1 := by
  induction text generalizing read with
  | nil => simp [lexemes, lexemesFrom, Lexeme.finish]
  | cons c text ih =>
    by_cases letter : isNameCharacter c = true
    · simpa [lexemes, lexemesFrom_cons, Lexeme.step, letter, Lexeme.begin_letter letter]
        using ih (read ++ [c])
    · simp [lexemes, lexemesFrom_cons, Lexeme.step, letter, Lexeme.behind]

/-- Behind an open character a text has the same references as at the beginning. -/
theorem mem_lexemesFrom_behind {position : Position} {c : Char} {text : List Char}
    (body : List Char)
    (leads : position.scan = .outside ∨ position.scan = .sign c ∧ text.head? ≠ some '{') :
    .reference body ∈ (lexemesFrom position text).1 ↔ .reference body ∈ (lexemes text).1 := by
  cases position with
  | outside => rfl
  | name read => exact mem_lexemesFrom_name read text body
  | dollar =>
    cases text with
    | nil => simp [lexemes, lexemesFrom, Lexeme.finish]
    | cons d text =>
      have unbraced : '$' = c ∧ d ≠ '{' := by simpa [Position.scan] using leads
      by_cases letter : isNameCharacter d = true
      · simpa [lexemes, lexemesFrom_cons, Lexeme.step, unbraced, letter,
          Lexeme.begin_letter letter] using mem_lexemesFrom_name [d] text body
      · simp [lexemes, lexemesFrom_cons, Lexeme.step, unbraced, letter, Lexeme.behind]
  | backquote =>
    cases text with
    | nil => simp [lexemes, lexemesFrom, Lexeme.finish]
    | cons d text =>
      have unbraced : '`' = c ∧ d ≠ '{' := by simpa [Position.scan] using leads
      simp [lexemes, lexemesFrom_cons, Lexeme.step, unbraced, Lexeme.behind]
  | _ => simp [Position.scan] at leads

/-- What stands behind an open character has no references but those of the whole text. -/
theorem mem_lexemes_cut {before rest body : List Char} {c : Char} {first others : List Scan.Mark}
    {error : Option ExpansionError}
    (marked : Scan.marks (before ++ c :: rest) = (first ++ ⟨c, true⟩ :: others, error))
    (here : first.length = before.length) (member : .reference body ∈ (lexemes rest).1) :
    .reference body ∈ (lexemes (before ++ c :: rest)).1 := by
  obtain ⟨-, -, leads⟩ := Scan.marks_cut marked here
  have same : (Lexeme.after .outside (before ++ [c])).2.scan =
      (Scan.after .outside (before ++ [c])).2 := Lexeme.scan_after .outside (before ++ [c])
  rw [← same] at leads
  rw [← List.singleton_append, ← List.append_assoc, lexemes, lexemesFrom_append, List.mem_append]
  exact .inr ((mem_lexemesFrom_behind body leads).mpr member)

/-- **The parts of a text that is cut at open characters are marked alone as they are marked in the
whole text**, and their references are references of the whole text. -/
theorem part_alone {cut : Scan.Mark → Bool} (opens : ∀ mark, cut mark = true → mark.isOpen = true)
    {text : List Char} {all : List Scan.Mark} (marked : Scan.marks text = (all, none))
    {part : List Scan.Mark} (member : part ∈ Chars.splitWhere cut all) :
    Scan.marks (Scan.text part) = (part, none) ∧
      ∀ body, .reference body ∈ (lexemes (Scan.text part)).1 →
        .reference body ∈ (lexemes text).1 := by
  induction long : all.length using Nat.strongRecOn generalizing all text with
  | ind length ih =>
    cases found : all.find? cut with
    | none =>
      have uncut : ∀ mark ∈ all, cut mark = false := by simpa using found
      rw [Chars.splitWhere_uncut uncut, List.mem_singleton] at member
      rw [member, Scan.text_of_marks marked]
      exact ⟨marked, fun _ => id⟩
    | some mark =>
      obtain ⟨cuts, first, others, rfl, uncut⟩ := List.find?_eq_some_iff_append.mp found
      obtain ⟨c, isOpen⟩ := mark
      obtain rfl : isOpen = true := opens _ cuts
      have apart : text = Scan.text first ++ c :: Scan.text others := Scan.text_cut marked
      have here : first.length = (Scan.text first).length := (Scan.length_text first).symm
      rw [apart] at marked
      obtain ⟨alone, rest, -⟩ := Scan.marks_cut marked here
      rw [Chars.splitWhere_append (by simpa using uncut) cuts, List.mem_cons] at member
      rw [apart]
      rcases member with rfl | later
      · exact ⟨alone, fun body => mem_lexemes_append _⟩
      · have shorter : others.length < length := by
          rw [← long, List.length_append, List.length_cons]
          omega
        obtain ⟨marks, references⟩ := ih _ shorter rest later rfl
        exact ⟨marks, fun body inner => mem_lexemes_cut marked here (references body inner)⟩

/-! ### Texts that cannot be cut -/

/-- The parts of a text exist exactly if every enclosure has an end. -/
theorem splitUnquoted_eq (separates : Char → Bool) (text : String) :
    splitUnquoted separates text =
      match (lexemes text.toList).2 with
      | some error => .error error
      | none => .ok <| (Chars.splitWhere (fun mark => mark.isOpen && separates mark.character)
          (Scan.marks text.toList).1).map fun part => String.ofList (Scan.text part) := by
  rw [← error_marks, splitUnquoted, Chars.splitUnquoted]
  cases Scan.marks text.toList with
  | mk marks error =>
    cases error with
    | some error => rfl
    | none =>
      dsimp only [Except.map]
      rw [List.map_map]
      rfl

/-- A text can be cut exactly if every enclosure has an end. -/
theorem splitUnquoted_eq_error_iff {separates : Char → Bool} {text : String}
    {error : ExpansionError} :
    splitUnquoted separates text = .error error ↔ (lexemes text.toList).2 = some error := by
  rw [splitUnquoted_eq]
  cases (lexemes text.toList).2 with
  | none => simp
  | some other => simp

/-- **The enclosures of the parts of a text have ends**, and their references are references of the
text. -/
theorem part_of_splitUnquoted {separates : Char → Bool} {text : String} {parts : List String}
    (cut : splitUnquoted separates text = .ok parts) {part : String} (member : part ∈ parts) :
    (lexemes part.toList).2 = none ∧ ∀ body,
      .reference body ∈ (lexemes part.toList).1 → .reference body ∈ (lexemes text.toList).1 := by
  rw [splitUnquoted_eq] at cut
  cases ended : (lexemes text.toList).2 with
  | some error =>
    rw [ended] at cut
    cases cut
  | none =>
    rw [ended] at cut
    obtain rfl := Except.ok.inj cut
    obtain ⟨piece, among, rfl⟩ := List.mem_map.mp member
    have marked : Scan.marks text.toList = ((Scan.marks text.toList).1, none) :=
      Prod.ext rfl ((error_marks _).trans ended)
    have opens : ∀ mark : Scan.Mark, (mark.isOpen && separates mark.character) = true →
        mark.isOpen = true := fun mark both => (Bool.and_eq_true_iff.mp both).1
    obtain ⟨alone, references⟩ := part_alone opens marked among
    rw [String.toList_ofList, ← error_marks, alone]
    exact ⟨rfl, references⟩

/-! ### Texts that cannot be expanded -/

/-- **A reference between braces is well formed** if an equals sign stands behind its first
colon. -/
def Lexeme.WellFormed : Lexeme → Prop
  | .reference body => ∀ sides ∈ Chars.splitFirst ':' body, '=' ∈ sides.2
  | _ => True

instance (lexeme : Lexeme) : Decidable lexeme.WellFormed :=
  match lexeme with
  | .reference body => inferInstanceAs (Decidable (∀ sides ∈ Chars.splitFirst ':' body, _))
  | .blank _ | .plain _ | .quoted _ | .name _ | .command _ => inferInstanceAs (Decidable True)

/-- All references of a text are well formed. -/
def WellFormed (text : String) : Prop :=
  ∀ lexeme ∈ (lexemes text.toList).1, lexeme.WellFormed

instance (text : String) : Decidable (WellFormed text) :=
  inferInstanceAs (Decidable (∀ lexeme ∈ (lexemes text.toList).1, _))

namespace Expander

variable {σ : Type}

/-- An expansion in which commands print what a function says. -/
def answering (lookup : String → List String) (keep : List String) (answer : String → String) :
    Expander σ where
  lookup := lookup
  keep := keep
  output := fun command => pure (answer command)

theorem exists_referenced (expander : Expander σ) {body : List Char}
    (wellFormed : (Lexeme.reference body).WellFormed) :
    ∃ words, expander.referenced body = .ok words := by
  unfold referenced
  split
  · exact ⟨_, rfl⟩
  · next name change split =>
    have there := Chars.isSome_splitFirst.mpr (wellFormed (name, change) split)
    obtain ⟨⟨old, new⟩, found⟩ := Option.isSome_iff_exists.mp there
    rw [found]
    exact ⟨_, rfl⟩

section Answering

variable (lookup : String → List String) (keep : List String) (answer : String → String)

theorem write_answering {lexeme : Lexeme} (wellFormed : lexeme.WellFormed) (words : Words) :
    ∃ next, (answering lookup keep answer : Expander σ).write words lexeme = pure next := by
  cases lexeme with
  | reference body =>
    rw [write, addReference]
    split
    · exact ⟨_, rfl⟩
    · obtain ⟨found, same⟩ :=
        (answering lookup keep answer : Expander σ).exists_referenced wellFormed
      rw [same]
      exact ⟨_, rfl⟩
  | _ => exact ⟨_, rfl⟩

theorem foldlM_write_answering {elements : List Lexeme}
    (wellFormed : ∀ lexeme ∈ elements, lexeme.WellFormed) (words : Words) :
    ∃ next, elements.foldlM (answering lookup keep answer : Expander σ).write words =
      pure next := by
  induction elements generalizing words with
  | nil => exact ⟨words, rfl⟩
  | cons lexeme rest ih =>
    obtain ⟨next, written⟩ := write_answering (σ := σ) lookup keep answer
      (wellFormed lexeme List.mem_cons_self) words
    rw [List.foldlM_cons, written, pure_bind]
    exact ih (fun other later => wellFormed other (List.mem_cons_of_mem lexeme later)) next

/-- **An expansion whose references are well formed fails only if an enclosure has no end.** -/
theorem words_answering {text : String} (wellFormed : WellFormed text) :
    ∃ words, (answering lookup keep answer : Expander σ).words text =
      match (lexemes text.toList).2 with
      | some error => throw (.expansion error)
      | none => pure words := by
  obtain ⟨next, folded⟩ := foldlM_write_answering (σ := σ) lookup keep answer wellFormed {}
  refine ⟨next.flush.complete, ?_⟩
  rw [words_eq, interpret, folded, pure_bind]
  cases (lexemes text.toList).2 <;> rfl

/-- A text without an enclosure that has no end can be expanded. -/
theorem exists_words {text : String} (wellFormed : WellFormed text)
    (ended : (lexemes text.toList).2 = none) : ∃ words, ∀ state : σ,
      (answering lookup keep answer).words text state = .ok words state := by
  obtain ⟨words, expands⟩ := words_answering (σ := σ) lookup keep answer wellFormed
  rw [ended] at expands
  exact ⟨words, fun state => by rw [expands]; rfl⟩

/-- **An expansion fails exactly where the text cannot be cut, and with the same error**; if the
text can be cut, it and all of its parts can be expanded.  It is asked only that the references of
the text are well formed. -/
theorem words_fails_iff_uncut {text : String} (wellFormed : WellFormed text) (separator : Char) :
    (∀ error (state : σ),
      (answering lookup keep answer).words text state = .error (.expansion error) state ↔
        splitUnquoted (· == separator) text = .error error) ∧
    ∀ parts, splitUnquoted (· == separator) text = .ok parts → ∀ part ∈ text :: parts,
      ∃ words, ∀ state : σ, (answering lookup keep answer).words part state = .ok words state := by
  refine ⟨fun error state => ?_, fun parts cut part member => ?_⟩
  · obtain ⟨words, expands⟩ := words_answering (σ := σ) lookup keep answer wellFormed
    rw [splitUnquoted_eq_error_iff, expands]
    cases (lexemes text.toList).2 with
    | some broken =>
      show EStateM.Result.error (Failure.expansion broken) state = _ ↔ _
      simp
    | none =>
      show EStateM.Result.ok words state = _ ↔ _
      simp
  · rcases List.mem_cons.mp member with rfl | inner
    · have ended : (lexemes part.toList).2 = none := by
        rw [Option.eq_none_iff_forall_ne_some]
        intro error broken
        rw [splitUnquoted_eq_error_iff.mpr broken] at cut
        cases cut
      exact exists_words lookup keep answer wellFormed ended
    · obtain ⟨ended, references⟩ := part_of_splitUnquoted cut inner
      refine exists_words lookup keep answer (fun lexeme among => ?_) ended
      cases lexeme with
      | reference body => exact wellFormed _ (references body among)
      | _ => trivial

end Answering

/-- Quotations, references and commands are cut around, and a reference without an end is found by
the expansion and by the cut. -/
theorem words_fails_iff_uncut_sources :
    WellFormed "'it''s: ' $\x7bsrc:%.c=%.o\x7d:`\x7bls\x7d$" ∧
    WellFormed "$\x7bsrc:%.c=%.o\x7d: $\x7bname" ∧
    (∃ words, ∀ state : Unit, (answering (fun _ => ["main.c"]) [] id).words
      "'it''s: ' $\x7bsrc:%.c=%.o\x7d" state = .ok words state) ∧
    (answering (fun _ => ["main.c"]) [] id).words "$\x7bsrc:%.c=%.o\x7d: $\x7bname" () =
      .error (.expansion .unterminatedReference) () := by
  have first : WellFormed "'it''s: ' $\x7bsrc:%.c=%.o\x7d:`\x7bls\x7d$" := by decide
  have second : WellFormed "$\x7bsrc:%.c=%.o\x7d: $\x7bname" := by decide
  have cut : splitUnquoted (· == ':') "'it''s: ' $\x7bsrc:%.c=%.o\x7d:`\x7bls\x7d$" =
      .ok ["'it''s: ' $\x7bsrc:%.c=%.o\x7d", "`\x7bls\x7d$"] := by rfl
  have uncut : splitUnquoted (· == ':') "$\x7bsrc:%.c=%.o\x7d: $\x7bname" =
      .error .unterminatedReference := by rfl
  exact ⟨first, second,
    (words_fails_iff_uncut _ _ _ first ':').2 _ cut _ (by simp),
    ((words_fails_iff_uncut _ _ _ second ':').1 _ ()).mpr uncut⟩

end Expander

end BuildSystem
