/-
**A blank keeps the words in front of it apart from those behind it.**

* `lexemes_blank` — the elements in front of a blank and behind it, where every enclosure in front of
  it has an end.
* `Words.after`, `Expander.interpret_after` — what is written behind words that are complete does not
  depend on them.
* `Expander.words_of_name` — a reference that is only a name stands for all words of the variable.
* `Expander.words_juxtaposed` — a text with a blank in it is expanded into the words of the text in
  front of the blank and those of the text behind it.
-/

import BuildSystem.Proofs.Following
import BuildSystem.Proofs.Variable.Cuts

namespace BuildSystem

open Expander (Position)

/-! ### Elements around a blank -/

/-- A blank ends what is open in front of it, unless this is an enclosure. -/
theorem Lexeme.step_blank {c : Char} (blank : Chars.isBlank c = true) {position : Position}
    (ended : (finish position).2 = none) :
    step c position = ((finish position).1 ++ [.blank c], .outside) := by
  have begins : begin c = ([.blank c], .outside) := if_pos blank
  have unnamed : isNameCharacter c = false := by
    by_contra letter
    rw [Chars.isBlank_letter ((Bool.not_eq_false _).mp letter)] at blank
    cases blank
  have other : c ≠ '{' ∧ c ≠ '\'' := by
    constructor <;> rintro rfl <;> cases blank
  cases position with
  | outside => exact begins
  | dollar => simp [step, finish, behind, begins, other, unnamed]
  | name read => simp [step, finish, behind, begins, unnamed]
  | backquote => simp [step, finish, behind, begins, other]
  | quoteSeen read => simp [step, finish, behind, begins, other]
  | reference read => cases ended
  | command read => cases ended
  | quoted read => cases ended

/-- **The elements in front of a blank and behind it do not depend on each other**, if every
enclosure in front of it has an end. -/
theorem lexemes_blank {c : Char} (blank : Chars.isBlank c = true) {first : List Char}
    (ended : (lexemes first).2 = none) (second : List Char) :
    lexemes (first ++ c :: second) =
      ((lexemes first).1 ++ .blank c :: (lexemes second).1, (lexemes second).2) := by
  have alone : lexemes first = ((Lexeme.after .outside first).1 ++
      (Lexeme.finish (Lexeme.after .outside first).2).1,
      (Lexeme.finish (Lexeme.after .outside first).2).2) := by
    have appended := lexemesFrom_append .outside first []
    rwa [List.append_nil] at appended
  rw [alone] at ended ⊢
  rw [lexemes, lexemesFrom_append, lexemesFrom_cons, Lexeme.step_blank blank ended]
  simp [lexemes]

/-- The letters of a name are one element behind a dollar sign. -/
theorem lexemesFrom_name (read : List Char) {letters : List Char}
    (named : ∀ c ∈ letters, isNameCharacter c = true) :
    lexemesFrom (.name read) letters = ([.name (read ++ letters)], none) := by
  induction letters generalizing read with
  | nil => simp [lexemesFrom, Lexeme.finish]
  | cons c letters ih =>
    rw [List.forall_mem_cons] at named
    simp [lexemesFrom_cons, Lexeme.step, named.1, ih (read ++ [c]) named.2]

theorem lexemes_name {letters : List Char} (some : letters ≠ [])
    (named : ∀ c ∈ letters, isNameCharacter c = true) :
    lexemes ('$' :: letters) = ([.name letters], none) := by
  obtain ⟨c, rest, rfl⟩ := List.exists_cons_of_ne_nil some
  rw [List.forall_mem_cons] at named
  have other : c ≠ '{' := ne_of_letter named.1 '{' (by decide)
  have begun : lexemes ('$' :: c :: rest) = lexemesFrom (.name [c]) rest := by
    simp [lexemes, lexemesFrom_cons, Lexeme.step, Lexeme.begin, Chars.isBlank, other, named.1]
  exact begun.trans (lexemesFrom_name [c] named.2)

/-! ### Words behind others -/

namespace Words

/-- Words behind others that are complete. -/
def after (earlier : List String) (words : Words) : Words :=
  { words with complete := earlier ++ words.complete }

section After

variable (earlier : List String) (words : Words)

theorem add_after (text : String) : (words.after earlier).add text = (words.add text).after earlier :=
  rfl

theorem flush_after : (words.after earlier).flush = words.flush.after earlier := by
  cases current : words.current <;> simp [flush, after, current]

theorem splice_after (tokens : List String) :
    (words.after earlier).splice tokens = (words.splice tokens).after earlier := by
  cases tokens with
  | nil => rfl
  | cons first others =>
    rw [splice, splice, add_after]
    generalize words.add first = words
    induction others generalizing words with
    | nil => rfl
    | cons token others ih =>
      rw [List.foldl_cons, List.foldl_cons, flush_after, add_after]
      exact ih _

end After

/-- Words that are complete have no current word. -/
theorem flush_eq (words : Words) : words.flush = ({} : Words).after words.flush.complete := by
  obtain ⟨complete, current⟩ := words
  cases current <;> simp [flush, after]

/-- **All words of a value are written**, empty ones included. -/
theorem complete_splice (tokens : List String) :
    (({} : Words).splice tokens).flush.complete = tokens := by
  cases tokens with
  | nil => rfl
  | cons first others =>
    have spliced : ∀ words : Words,
        (others.foldl (fun words word => words.flush.add word) words).flush.complete =
          words.flush.complete ++ others := by
      intro words
      induction others generalizing words with
      | nil => simp
      | cons token others ih =>
        rw [List.foldl_cons, ih, flush_eq words]
        simp [after, add, flush]
    exact spliced _

end Words

namespace Expander

variable {σ : Type} (expander : Expander σ)

/-- **What an element stands for is written alike behind any words that are complete.** -/
theorem write_after (earlier : List String) (words : Words) (lexeme : Lexeme) :
    expander.write (words.after earlier) lexeme =
      Words.after earlier <$> expander.write words lexeme := by
  cases lexeme with
  | blank c => simp [write, Words.flush_after]
  | plain c => simp [write, Words.add_after]
  | quoted text => simp [write, Words.add_after]
  | name name =>
    rw [write, write, addName, addName, map_pure]
    split
    · rw [Words.add_after]
    · rw [Words.splice_after]
  | reference body =>
    rw [write, write, addReference, addReference]
    split
    · rw [Words.add_after, map_pure]
    · cases expander.referenced body with
      | ok found =>
        dsimp only
        rw [Words.splice_after, map_pure]
      | error error => rfl
  | command body =>
    rw [write, write, addOutput, addOutput, map_bind]
    refine bind_congr fun text => ?_
    rw [Words.splice_after, map_pure]

theorem interpret_nil (words : Words) :
    expander.interpret words ([], none) = pure words.flush.complete := by
  simp [interpret]

theorem interpret_cons (words : Words) (lexeme : Lexeme) (rest : List Lexeme)
    (error : Option ExpansionError) : expander.interpret words (lexeme :: rest, error) =
      expander.write words lexeme >>= fun next => expander.interpret next (rest, error) := by
  simp [interpret]

theorem interpret_after (earlier : List String) (words : Words)
    (lexed : List Lexeme × Option ExpansionError) :
    expander.interpret (words.after earlier) lexed =
      (earlier ++ ·) <$> expander.interpret words lexed := by
  obtain ⟨elements, error⟩ := lexed
  induction elements generalizing words with
  | nil =>
    cases error with
    | none =>
      rw [interpret_nil, interpret_nil, Words.flush_after, map_pure]
      rfl
    | some error => rfl
  | cons lexeme rest ih =>
    rw [interpret_cons, interpret_cons, write_after, map_bind, bind_map_left]
    exact bind_congr fun next => ih next

/-! ### Texts with a blank -/

/-- **A reference that is only a name stands for all words of the variable.** -/
theorem words_of_name {name : String} (some : name ≠ "")
    (named : ∀ c ∈ name.toList, isNameCharacter c = true)
    (replaced : expander.keep.contains name = false) :
    expander.words ("$" ++ name) = pure (expander.lookup name) := by
  have letters : name.toList ≠ [] := by simpa using some
  have elements : lexemes ("$" ++ name).toList = ([.name name.toList], none) := by
    rw [String.toList_append]
    exact lexemes_name letters named
  rw [words_eq, elements, interpret_cons, write, addName, String.ofList_toList, replaced, pure_bind,
    interpret_nil]
  exact congrArg pure (Words.complete_splice _)

/-- **A text in front of a blank is expanded alike**, if this does not fail, and so is the text behind
it. -/
theorem words_append_blank {blank : Char} (isBlank : Chars.isBlank blank = true) {first : String}
    {found : List String} {state middle : σ}
    (expands : expander.words first state = .ok found middle) (second : String) :
    expander.words (first ++ String.singleton blank ++ second) state =
      ((found ++ ·) <$> expander.words second) middle := by
  rw [words_eq, interpret] at expands
  obtain ⟨reached, world, written, ends⟩ := exists_of_bind_eq_ok expands
  cases ended : (lexemes first.toList).2 with
  | some error =>
    rw [ended] at ends
    cases ends
  | none =>
    rw [ended] at ends
    cases ends
    have elements : lexemes (first ++ String.singleton blank ++ second).toList =
        ((lexemes first.toList).1 ++ .blank blank :: (lexemes second.toList).1,
          (lexemes second.toList).2) := by
      rw [← lexemes_blank isBlank ended]
      simp
    rw [words_eq, words_eq, elements, interpret, List.foldlM_append, bind_assoc,
      bind_eq_of_ok written]
    rw [← interpret_after, ← Words.flush_eq]
    rfl

/-- **A blank keeps the words in front of it apart from those behind it.**  Where the text in front
of a blank can be expanded, the whole text is expanded into its words and those of the text behind
the blank, or fails as the latter does.  So a reference to a variable that is only a name puts all
words of the variable, empty ones included, in front of the words of what follows it. -/
theorem words_juxtaposed (second : String) :
    (∀ blank, Chars.isBlank blank = true → ∀ first found state middle,
      expander.words first state = .ok found middle →
        expander.words (first ++ String.singleton blank ++ second) state =
          ((found ++ ·) <$> expander.words second) middle) ∧
    ∀ name, name ≠ "" → (∀ c ∈ name.toList, isNameCharacter c = true) →
      expander.keep.contains name = false →
        expander.words ("$" ++ name ++ " " ++ second) =
          (expander.lookup name ++ ·) <$> expander.words second := by
  refine ⟨fun blank isBlank first found state middle expands =>
    expander.words_append_blank isBlank expands second, fun name some named replaced => ?_⟩
  funext state
  have space : String.singleton ' ' = " " := by decide
  have expands : expander.words ("$" ++ name) state = .ok (expander.lookup name) state :=
    congrFun (expander.words_of_name some named replaced) state
  rw [← space]
  exact expander.words_append_blank (by decide) expands second

/-- Every variable has an empty word and one with a space, and a command prints its own text. -/
def spacious : Expander Unit :=
  answering (fun _ => ["", "a b"]) ["stem"] id

/-- In front of a tab stands a dollar sign that begins no reference, and behind it a reference, a
command, and an enclosure without an end or none. -/
theorem words_juxtaposed_spacious :
    (Chars.isBlank '\t' = true ∧
      spacious.words "'it''s'$stem$" () = .ok ["it's$stem$"] ()) ∧
    spacious.words "'it''s'$stem$\t`\x7bls -l\x7dx" () = .ok ["it's$stem$", "ls", "-lx"] () ∧
    spacious.words "'it''s'$stem$\t$\x7bname" () =
      .error (.expansion .unterminatedReference) () ∧
    spacious.words "$name more" () = .ok ["", "a b", "more"] () := by
  have blank : Chars.isBlank '\t' = true := by decide
  have expands : spacious.words "'it''s'$stem$" () = .ok ["it's$stem$"] () := rfl
  obtain ⟨behind, -⟩ := words_juxtaposed spacious "`\x7bls -l\x7dx"
  obtain ⟨broken, -⟩ := words_juxtaposed spacious "$\x7bname"
  obtain ⟨-, reference⟩ := words_juxtaposed spacious "more"
  have named : ∀ c ∈ "name".toList, isNameCharacter c = true := List.all_eq_true.mp (by decide)
  exact ⟨⟨blank, expands⟩, behind '\t' blank _ _ () () expands, broken '\t' blank _ _ () () expands,
    congrFun (reference "name" (by decide) named rfl) ()⟩

end Expander

end BuildSystem
