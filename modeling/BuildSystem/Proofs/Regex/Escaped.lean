/-
**Texts in regular expressions.**

A text is escaped by writing a backslash before every character that may mean something else in a
regular expression.

* `Regex.escape` — an escaped text.
* `Regex.tokens?_escaped`, `readSequence_literals` — it is read character by character.
* `Regex.read_around` — the expression for all names between a beginning and an end, with a group
  for what stands between.
* `Regex.run_sequenceOf`, `run_letters`, `repeatGreedy_any` — how its parts fit.
* `Regex.matchAll?_around_iff` — it fits the names that have something between the beginning and the
  end, and the group remembers what that is.
-/

import BuildSystem.Regex.Match
import BuildSystem.Regex.Written
import Mathlib.Tactic.FinCases

namespace BuildSystem.Regex

/-! ### Escaped texts -/

/-- The characters that are escaped. -/
def specials : List Char :=
  ['(', ')', '[', ']', '{', '}', '?', '*', '+', '-', '|', '^', '$', '\\', '.', '&', '~', '#', ' ',
    '\t', '\n', '\r', '\x0b', '\x0c']

/-- A character as it is written. -/
def escapeCharacter (c : Char) : List Char :=
  if c ∈ specials then ['\\', c] else [c]

/-- A text as it is written. -/
def escape (text : String) : String :=
  String.ofList (text.toList.flatMap escapeCharacter)

/-- The token of an escaped character. -/
def literal (c : Char) : Token :=
  if c ∈ specials then .escaped c else .plain c

/-- What a character is read as. -/
def letter (c : Char) : Item :=
  ⟨.other, .character ({} : Flags).comparison c⟩

theorem tokens?_plain {c : Char} (other : c ≠ '\\') (rest : List Char) :
    tokens? (c :: rest) = (tokens? rest).map (.plain c :: ·) := by
  rw [tokens?]
  · exact fun same => absurd same other
  · exact fun _ _ same => absurd same other

/-- **An escaped text has one token for each character.** -/
theorem tokens?_escaped (text rest : List Char) :
    tokens? (text.flatMap escapeCharacter ++ rest) =
      (tokens? rest).map (text.map literal ++ ·) := by
  induction text with
  | nil => exact (Option.map_id' ..).symm
  | cons c text ih =>
    rw [List.flatMap_cons, List.append_assoc]
    by_cases special : c ∈ specials
    · rw [escapeCharacter, if_pos special]
      show (tokens? (text.flatMap escapeCharacter ++ rest)).map (.escaped c :: ·) = _
      rw [ih, Option.map_map, List.map_cons, literal, if_pos special]
      rfl
    · rw [escapeCharacter, if_neg special]
      have other : c ≠ '\\' := by
        rintro rfl
        exact special (by decide)
      rw [List.singleton_append, tokens?_plain other, ih, Option.map_map, List.map_cons, literal,
        if_neg special]
      rfl

theorem readEscape?_special {c : Char} (special : c ∈ specials) (flags : Flags) (groups : Groups)
    (rest : List Token) :
    readEscape? flags groups c rest = some (⟨.other, .character flags.comparison c⟩, rest) := by
  unfold specials at special
  fin_cases special
  all_goals rfl

/-- An escaped character is read as itself. -/
theorem readSequence_literal (c : Char) (steps : Nat) (leading : Bool) (items : List Item)
    (groups : Groups) (rest : List Token) :
    readSequence (steps + 1) {} leading items groups (literal c :: rest) =
      readSequence steps {} leading (letter c :: items) groups rest := by
  by_cases special : c ∈ specials
  · rw [literal, if_pos special, readSequence]
    rw [readEscape?_special special]
    rfl
  · have other : ∀ d ∈ specials, c ≠ d := fun d known same => special (same ▸ known)
    rw [literal, if_neg special, readSequence]
    · rfl
    all_goals exact fun same => absurd same (other _ (by decide))

/-- **An escaped text is read as its characters.** -/
theorem readSequence_literals (text : List Char) (steps : Nat) (leading : Bool)
    (items : List Item) (groups : Groups) (rest : List Token) :
    readSequence (steps + text.length) {} leading items groups (text.map literal ++ rest) =
      readSequence steps {} leading ((text.map letter).reverse ++ items) groups rest := by
  induction text generalizing items with
  | nil => rfl
  | cons c text ih =>
    rw [List.map_cons, List.cons_append, List.length_cons, ← Nat.add_assoc, readSequence_literal,
      ih, List.map_cons, List.reverse_cons, List.append_assoc]
    rfl

/-! ### What stands between two texts -/

/-- At least one character that is no line feed. -/
def something : Expression :=
  .repetition .greedy 1 none (.any false)

/-- The expression for what has something between two texts; a group remembers what that is. -/
def around (start finish : List Char) : Regex where
  expression := sequenceOf
    ((finish.map letter).reverse ++ ⟨.other, .group 1 something⟩ :: (start.map letter).reverse)
  groupCount := 1

/-- The tokens of a group for at least one character. -/
def captureTokens : List Token :=
  [.plain '(', .plain '.', .plain '+', .plain ')']

/-- What is known when the group has been read. -/
def captured : Groups where
  count := 1
  widths := [(1, ⟨1, none⟩)]

/-- The group is read as such. -/
theorem readSequence_capture (steps : Nat) (leading : Bool) (items : List Item)
    (rest : List Token) :
    readSequence (steps + 5) {} leading items {} (captureTokens ++ rest) =
      readSequence (steps + 4) {} leading (⟨.other, .group 1 something⟩ :: items) captured rest := by
  rfl

/-- **The written form of the expression.** -/
theorem read_around (start finish : String) :
    read (escape start ++ "(.+)" ++ escape finish) =
      .ok (around start.toList finish.toList) := by
  have tokens : tokens? (escape start ++ "(.+)" ++ escape finish).toList =
      some (start.toList.map literal ++ (captureTokens ++ finish.toList.map literal)) := by
    have last := tokens?_escaped finish.toList []
    rw [List.append_nil] at last
    have written : (escape start ++ "(.+)" ++ escape finish).toList =
        start.toList.flatMap escapeCharacter ++
          ('(' :: '.' :: '+' :: ')' :: finish.toList.flatMap escapeCharacter) := by
      simp [escape]
    rw [written, tokens?_escaped, tokens?_plain (by decide), tokens?_plain (by decide),
      tokens?_plain (by decide), tokens?_plain (by decide), last]
    simp [tokens?, captureTokens]
  have steps : 2 * (start.toList.map literal ++
        (captureTokens ++ finish.toList.map literal)).length + 1 =
      (start.toList.length + finish.toList.length + 4 + finish.toList.length + 5) +
        start.toList.length := by
    simp only [List.length_append, List.length_map, captureTokens, List.length_cons,
      List.length_nil]
    omega
  have sequence : readSequence (2 * (start.toList.map literal ++
        (captureTokens ++ finish.toList.map literal)).length + 1) {} true [] {}
        (start.toList.map literal ++ (captureTokens ++ finish.toList.map literal)) =
      .ok ((around start.toList finish.toList).expression, captured, []) := by
    rw [steps, readSequence_literals, readSequence_capture, Nat.add_right_comm,
      ← List.append_nil (finish.toList.map literal), readSequence_literals, List.append_nil]
    rfl
  unfold read
  rw [tokens]
  show (readAlternatives (_ + 1) _ _ _ _ >>= _) = _
  rw [readAlternatives, sequence]
  rfl

/-! ### How the parts fit -/

/-- Several expressions, one after the other. -/
def runAll : List Expression → Cursor → Continuation → Option Cursor
  | [], cursor, rest => rest cursor
  | first :: others, cursor, rest => first.run cursor fun moved => runAll others moved rest

theorem runAll_append (one two : List Expression) (cursor : Cursor) (rest : Continuation) :
    runAll (one ++ two) cursor rest = runAll one cursor fun moved => runAll two moved rest := by
  induction one generalizing cursor with
  | nil => rfl
  | cons first others ih =>
    show first.run cursor _ = first.run cursor _
    exact congrArg _ (funext fun moved => ih moved)

theorem run_foldl_sequence (first : Expression) (others : List Expression) (cursor : Cursor)
    (rest : Continuation) :
    (others.foldl .sequence first).run cursor rest =
      first.run cursor fun moved => runAll others moved rest := by
  induction others generalizing first with
  | nil => rfl
  | cons second others ih => exact ih (.sequence first second)

/-- **The items of a sequence fit one after the other.** -/
theorem run_sequenceOf (items : List Item) (cursor : Cursor) (rest : Continuation) :
    (sequenceOf items).run cursor rest =
      runAll (items.reverse.map (·.expression)) cursor rest := by
  unfold sequenceOf
  cases items.reverse.map (·.expression) with
  | nil => rfl
  | cons first others => exact run_foldl_sequence first others cursor rest

/-- The characters of a text. -/
def letters (text : List Char) : List Expression :=
  text.map fun c => .character ({} : Flags).comparison c

/-- A text fits itself. -/
theorem runAll_letters (text before after : List Char) (groups : List (Nat × List Char))
    (rest : Continuation) :
    runAll (letters text) ⟨before, text ++ after, groups⟩ rest =
      rest ⟨text.reverse ++ before, after, groups⟩ := by
  induction text generalizing before with
  | nil => rfl
  | cons c text ih =>
    show (if (c == c) = true then runAll (letters text) ⟨c :: before, text ++ after, groups⟩ rest
      else none) = _
    rw [if_pos (beq_self_eq_true c), ih, List.reverse_cons, List.append_assoc]
    rfl

theorem runAll_letters_self (text before : List Char) (groups : List (Nat × List Char))
    (rest : Continuation) :
    runAll (letters text) ⟨before, text, groups⟩ rest =
      rest ⟨text.reverse ++ before, [], groups⟩ := by
  have fits := runAll_letters text before [] groups rest
  rwa [List.append_nil] at fits

/-- A text fits nothing but itself. -/
theorem prefix_of_runAll_letters {text : List Char} {cursor found : Cursor} {rest : Continuation}
    (fits : runAll (letters text) cursor rest = some found) : text <+: cursor.after := by
  induction text generalizing cursor with
  | nil => exact List.nil_prefix
  | cons c text ih =>
    obtain ⟨before, after, groups⟩ := cursor
    cases after with
    | nil => cases fits
    | cons d after =>
      change (if (c == d) = true then runAll (letters text) ⟨d :: before, after, groups⟩ rest
        else none) = some found at fits
      split at fits
      · next same => exact List.cons_prefix_cons.mpr ⟨eq_of_beq same, ih fits⟩
      · cases fits

/-- Reads any character but a line feed. -/
def readAny (cursor : Cursor) (rest : Continuation) : Option Cursor :=
  (Expression.any false).run cursor rest

theorem readAny_cons {c : Char} (shown : c ≠ '\n') (before after : List Char)
    (groups : List (Nat × List Char)) (rest : Continuation) :
    readAny ⟨before, c :: after, groups⟩ rest = rest ⟨c :: before, after, groups⟩ :=
  if_pos (by simpa using shown)

theorem readAny_nil (before : List Char) (groups : List (Nat × List Char)) (rest : Continuation) :
    readAny ⟨before, [], groups⟩ rest = none :=
  rfl

/-- What any character but a line feed is followed by. -/
theorem readAny_eq_none {c : Char} {before after : List Char} {groups : List (Nat × List Char)}
    {rest : Continuation} (fails : rest ⟨c :: before, after, groups⟩ = none) :
    readAny ⟨before, c :: after, groups⟩ rest = none := by
  show (if (c != '\n') = true then rest ⟨c :: before, after, groups⟩ else none) = none
  rw [fails, ite_self]

section Repetition

variable {finish : List Char} {rest : Continuation}

/-- One more round of a repetition is tried first, as the cursor has moved since the last one. -/
theorem repeatGreedy_any_succ (rest : Continuation) (text before : List Char)
    (groups : List (Nat × List Char)) (rounds count : Nat) {last : Option Nat}
    (moved : ∀ length ∈ last, text.length < length) :
    ∃ last', (∀ length ∈ last', text.length ≤ length) ∧
      repeatGreedy readAny 1 none (rounds + 1) count last ⟨before, text, groups⟩ rest =
        (readAny ⟨before, text, groups⟩ fun cursor =>
          repeatGreedy readAny 1 none rounds (count + 1) last' cursor rest).or
            (if count = 0 then none else rest ⟨before, text, groups⟩) := by
  rw [repeatGreedy]
  by_cases first : count < 1
  · refine ⟨last, fun length member => Nat.le_of_lt (moved length member), ?_⟩
    rw [if_pos first, if_pos (Nat.lt_one_iff.mp first), Option.or_none]
  · refine ⟨some text.length, fun length member => ?_, ?_⟩
    · exact Nat.le_of_eq (Option.some.inj member)
    · have further : last ≠ some text.length := fun same =>
        Nat.lt_irrefl _ (moved text.length same)
      rw [if_neg first, if_neg (fun none => first (Nat.lt_one_iff.mpr none)),
        if_pos (by simpa using further)]
      cases readAny ⟨before, text, groups⟩ _ with
      | none => rfl
      | some found => rfl

/-- **The repetition of any character fails** where what follows does not fit. -/
theorem repeatGreedy_any_eq_none
    (only : ∀ cursor : Cursor, cursor.after ≠ finish → rest cursor = none)
    (text before : List Char) (groups : List (Nat × List Char)) (rounds count : Nat)
    {last : Option Nat} (enough : text.length ≤ rounds)
    (moved : ∀ length ∈ last, text.length < length)
    (absent : ∀ stem, text = stem ++ finish → stem = [] ∧ count = 0) :
    repeatGreedy readAny 1 none (rounds + 1) count last ⟨before, text, groups⟩ rest = none := by
  have here : ∀ {text before : List Char} {count : Nat},
      (∀ stem, text = stem ++ finish → stem = [] ∧ count = 0) →
        (if count = 0 then none else rest ⟨before, text, groups⟩) = none := by
    intro text before count absent
    split
    · rfl
    · next later => exact only _ fun same => later (absent [] same).2
  induction text generalizing before rounds count last with
  | nil =>
    obtain ⟨last', -, round⟩ := repeatGreedy_any_succ rest [] before groups rounds count moved
    rw [round, here absent, readAny_nil, Option.none_or]
  | cons c text ih =>
    obtain ⟨last', further, round⟩ :=
      repeatGreedy_any_succ rest (c :: text) before groups rounds count moved
    obtain ⟨fewer, rfl⟩ : ∃ fewer, rounds = fewer + 1 :=
      Nat.exists_eq_add_one_of_ne_zero (Nat.ne_of_gt (Nat.lt_of_lt_of_le (Nat.succ_pos _) enough))
    rw [round, here absent, Option.or_none]
    refine readAny_eq_none (ih _ fewer (count + 1) (Nat.le_of_succ_le_succ enough)
      (fun length member => Nat.lt_of_succ_le (further length member)) fun stem found => ?_)
    cases (absent (c :: stem) (congrArg (c :: ·) found)).1

/-- **The repetition of any character reads what stands before the end.** -/
theorem repeatGreedy_any (only : ∀ cursor : Cursor, cursor.after ≠ finish → rest cursor = none)
    (stem before : List Char) (groups : List (Nat × List Char)) (rounds count : Nat)
    {last : Option Nat} (enough : (stem ++ finish).length ≤ rounds)
    (moved : ∀ length ∈ last, (stem ++ finish).length < length)
    (something : stem ≠ [] ∨ count ≠ 0) (line : '\n' ∉ stem) :
    repeatGreedy readAny 1 none (rounds + 1) count last ⟨before, stem ++ finish, groups⟩ rest =
      rest ⟨stem.reverse ++ before, finish, groups⟩ := by
  induction stem generalizing before rounds count last with
  | nil =>
    obtain ⟨last', further, round⟩ :=
      repeatGreedy_any_succ rest finish before groups rounds count moved
    -- What follows fits here, and nowhere later.
    have stops : (readAny ⟨before, finish, groups⟩ fun cursor =>
        repeatGreedy readAny 1 none rounds (count + 1) last' cursor rest) = none := by
      cases finish with
      | nil => rfl
      | cons c others =>
        obtain ⟨fewer, rfl⟩ : ∃ fewer, rounds = fewer + 1 :=
          Nat.exists_eq_add_one_of_ne_zero
            (Nat.ne_of_gt (Nat.lt_of_lt_of_le (Nat.succ_pos _) enough))
        refine readAny_eq_none (repeatGreedy_any_eq_none only others _ groups fewer (count + 1)
          (Nat.le_of_succ_le_succ enough)
          (fun length member => Nat.lt_of_succ_le (further length member)) fun stem found => ?_)
        have length := congrArg List.length found
        rw [List.length_append, List.length_cons] at length
        omega
    show repeatGreedy readAny 1 none (rounds + 1) count last ⟨before, finish, groups⟩ rest = _
    rw [round, stops, Option.none_or, if_neg (something.resolve_left fun some => some rfl)]
    rfl
  | cons c stem ih =>
    obtain ⟨last', further, round⟩ :=
      repeatGreedy_any_succ rest (c :: (stem ++ finish)) before groups rounds count moved
    rw [List.mem_cons, not_or] at line
    have longer : c :: (stem ++ finish) ≠ finish := by
      intro same
      have length := congrArg List.length same
      rw [List.length_cons, List.length_append] at length
      omega
    obtain ⟨fewer, rfl⟩ : ∃ fewer, rounds = fewer + 1 :=
      Nat.exists_eq_add_one_of_ne_zero (Nat.ne_of_gt (Nat.lt_of_lt_of_le (Nat.succ_pos _) enough))
    rw [List.cons_append, round, readAny_cons (Ne.symm line.1), only _ longer, ite_self,
      Option.or_none, List.reverse_cons, List.append_assoc]
    exact ih (c :: before) fewer (count + 1) (Nat.le_of_succ_le_succ enough)
      (fun length member => Nat.lt_of_succ_le (further length member))
      (Or.inr (Nat.succ_ne_zero count)) line.2

/-- What follows a group that has begun where `text` was still to be read. -/
def remembering (text : List Char) (rest : Continuation) : Continuation := fun moved =>
  rest { moved with groups := (1, text.take (text.length - moved.after.length)) :: moved.groups }

theorem run_capture (text before : List Char) (groups : List (Nat × List Char)) :
    (Expression.group 1 something).run ⟨before, text, groups⟩ rest =
      repeatGreedy readAny 1 none (1 + text.length + 1 + 1) 0 none ⟨before, text, groups⟩
        (remembering text rest) :=
  rfl

theorem remembering_only (only : ∀ cursor : Cursor, cursor.after ≠ finish → rest cursor = none)
    (text : List Char) :
    ∀ cursor : Cursor, cursor.after ≠ finish → remembering text rest cursor = none :=
  fun _ differ => only _ differ

/-- **The group remembers what stands before the end.** -/
theorem run_capture_append (only : ∀ cursor : Cursor, cursor.after ≠ finish → rest cursor = none)
    {stem : List Char} (some : stem ≠ []) (line : '\n' ∉ stem) (before : List Char)
    (groups : List (Nat × List Char)) :
    (Expression.group 1 something).run ⟨before, stem ++ finish, groups⟩ rest =
      rest ⟨stem.reverse ++ before, finish, (1, stem) :: groups⟩ := by
  have fresh : ∀ length ∈ (none : Option Nat), (stem ++ finish).length < length :=
    fun length member => by cases member
  rw [run_capture, repeatGreedy_any (remembering_only only _) stem before groups _ 0 (by omega)
    fresh (Or.inl some) line]
  unfold remembering
  rw [List.length_append, Nat.add_sub_cancel, List.take_left]

/-- The group fails where nothing stands before the end. -/
theorem run_capture_eq_none
    (only : ∀ cursor : Cursor, cursor.after ≠ finish → rest cursor = none) {text : List Char}
    (absent : ∀ stem, text = stem ++ finish → stem = []) (before : List Char)
    (groups : List (Nat × List Char)) :
    (Expression.group 1 something).run ⟨before, text, groups⟩ rest = none := by
  have fresh : ∀ length ∈ (none : Option Nat), text.length < length :=
    fun length member => by cases member
  rw [run_capture]
  exact repeatGreedy_any_eq_none (remembering_only only text) text before groups _ 0 (by omega)
    fresh fun stem found => ⟨absent stem found, rfl⟩

end Repetition

/-! ### Whole texts -/

/-- Accepts the end of a text. -/
def accept : Continuation := fun cursor =>
  if cursor.after.isEmpty then some cursor else none

/-- Behind the group exactly the end is accepted. -/
theorem accept_only {finish : List Char} (cursor : Cursor) (differ : cursor.after ≠ finish) :
    (fun moved => runAll (letters finish) moved accept) cursor = none := by
  by_contra accepted
  obtain ⟨found, fits⟩ := Option.ne_none_iff_exists'.mp accepted
  obtain ⟨before, after, groups⟩ := cursor
  obtain ⟨more, rfl⟩ := prefix_of_runAll_letters fits
  change runAll (letters finish) _ accept = some found at fits
  rw [runAll_letters] at fits
  cases more with
  | nil => exact differ (List.append_nil finish)
  | cons c more => cases fits

theorem run_around (start finish text : List Char) :
    (around start finish).expression.run ⟨[], text, []⟩ accept =
      runAll (letters start) ⟨[], text, []⟩ fun cursor =>
        (Expression.group 1 something).run cursor fun moved =>
          runAll (letters finish) moved accept := by
  have parts : ((finish.map letter).reverse ++
        ⟨.other, .group 1 something⟩ :: (start.map letter).reverse).reverse.map (·.expression) =
      letters start ++ ([.group 1 something] ++ letters finish) := by
    simp [letters, letter, Function.comp_def]
  unfold around
  rw [run_sequenceOf, parts, runAll_append]
  congr 1

/-- **The expression fits exactly the names that have something between the two texts**, and the
group remembers what that is. -/
theorem matchAll?_around_iff {start finish name : List Char} (line : '\n' ∉ name)
    {found : List (List Char)} :
    matchAll? (around start finish) name = some found ↔
      ∃ stem, stem ≠ [] ∧ name = start ++ stem ++ finish ∧ found = [stem] := by
  have matched : matchAll? (around start finish) name =
      (runAll (letters start) ⟨[], name, []⟩ fun cursor =>
        (Expression.group 1 something).run cursor fun moved =>
          runAll (letters finish) moved accept).map fun cursor => [(cursor.group? 1).getD []] := by
    rw [← run_around]
    rfl
  have fits : ∀ stem, stem ≠ [] → name = start ++ stem ++ finish →
      matchAll? (around start finish) name = some [stem] := by
    rintro stem nonempty rfl
    have inner : '\n' ∉ stem := fun member => line (by simp [member])
    rw [matched, List.append_assoc, runAll_letters, run_capture_append accept_only nonempty inner,
      runAll_letters_self]
    rfl
  constructor
  · intro found'
    rw [matched] at found'
    obtain ⟨cursor, ran, -⟩ := Option.map_eq_some_iff.mp found'
    obtain ⟨text, rfl⟩ := prefix_of_runAll_letters ran
    change runAll (letters start) ⟨[], start ++ text, []⟩ _ = some cursor at ran
    rw [runAll_letters] at ran
    obtain ⟨stem, nonempty, rfl⟩ : ∃ stem, stem ≠ [] ∧ text = stem ++ finish := by
      by_contra absent
      rw [run_capture_eq_none accept_only fun stem same => ?_] at ran
      · cases ran
      · by_contra nonempty
        exact absent ⟨stem, nonempty, same⟩
    rw [← matched, fits stem nonempty (List.append_assoc ..).symm] at found'
    exact ⟨stem, nonempty, (List.append_assoc ..).symm, (Option.some.inj found').symm⟩
  · rintro ⟨stem, nonempty, between, rfl⟩
    exact fits stem nonempty between

end BuildSystem.Regex
