/-
**Logical lines of parts of a text.**

* `goesOn` — whether a statement goes on behind lines.
* `linesFrom_append` — if none does, logical lines begin anew behind them.
* `contents`, `contents_linesFrom` — what logical lines hold does not depend on their numbers.
* `one_le_number` — the lines of a text are numbered from one on.
* `goesOn_eq_false` — no statement goes on behind a line that does not end with a backslash.
-/

import BuildSystem.RuleFile.Line

namespace BuildSystem.RuleFile

/-! ### Statements that go on -/

/-- Whether a line belongs to a statement if none goes on before it. -/
def beginsStatement (line : List Char) : Bool :=
  !line.all Chars.isBlank && !line.head?.any isIndentation

/-- Whether a statement goes on behind lines; `inside` tells whether one goes on before them. -/
def goesOn : (inside : Bool) → List (List Char) → Bool
  | inside, [] => inside
  | inside, line :: rest =>
    if inside || beginsStatement line then goesOn (line.getLast? = some '\\') rest
    else goesOn false rest

/-- The logical lines from a line on that ends the text of a statement so far. -/
def linesFromStatement (first : Nat) (text : List Char) (number : Nat)
    (rest : List (List Char)) : List Line :=
  match continued? text, rest with
  | some text, _ :: _ => linesFrom (some ⟨first, text⟩) (number + 1) rest
  | _, _ => ⟨first, .statement text⟩ :: linesFrom none (number + 1) rest

theorem linesFrom_some (pending : Unfinished) (number : Nat) (line : List Char)
    (rest : List (List Char)) : linesFrom (some pending) number (line :: rest) =
      linesFromStatement pending.number (pending.text ++ line) number rest := by
  rw [linesFrom]
  rfl

theorem linesFrom_none (number : Nat) (line : List Char) (rest : List (List Char)) :
    linesFrom none number (line :: rest) =
      if beginsStatement line then linesFromStatement number line number rest
      else
        ⟨number, if line.all Chars.isBlank then .blank
          else .recipe (line.dropWhile isIndentation)⟩ :: linesFrom none (number + 1) rest := by
  rw [linesFrom]
  unfold beginsStatement
  cases line.all Chars.isBlank with
  | true => rfl
  | false =>
    cases line.head?.any isIndentation with
    | true => rfl
    | false => rfl

/-- The text of an unfinished statement ends with the space that joins the next line to it. -/
def Unfinished.Joined (unfinished : Option Unfinished) : Prop :=
  ∀ pending ∈ unfinished, pending.text.getLast? = some ' '

theorem joined_none : Unfinished.Joined none :=
  fun _ member => nomatch member

theorem joined_some (first : Nat) (text : List Char) :
    Unfinished.Joined (some ⟨first, text.dropLast ++ [' ']⟩) := by
  intro pending member
  obtain rfl := Option.some.inj member
  exact List.getLast?_concat

theorem linesFromStatement_ends {text : List Char} (last : text.getLast? ≠ some '\\')
    (first number : Nat) (rest : List (List Char)) : linesFromStatement first text number rest =
      ⟨first, .statement text⟩ :: linesFrom none (number + 1) rest := by
  unfold linesFromStatement continued?
  rw [if_neg last]

theorem linesFromStatement_goesOn {text : List Char} (last : text.getLast? = some '\\')
    (first number : Nat) (next : List Char) (rest : List (List Char)) :
    linesFromStatement first text number (next :: rest) =
      linesFrom (some ⟨first, text.dropLast ++ [' ']⟩) (number + 1) (next :: rest) := by
  unfold linesFromStatement continued?
  rw [if_pos last]

/-- Whether the text of a statement goes on depends on its last line. -/
theorem getLast?_joined {unfinished : Option Unfinished} (joined : Unfinished.Joined unfinished)
    {pending : Unfinished} (member : pending ∈ unfinished) (line : List Char) :
    (pending.text ++ line).getLast? = some '\\' ↔ line.getLast? = some '\\' := by
  rw [List.getLast?_append, joined pending member]
  cases line.getLast? with
  | none => simp
  | some c => simp

/-- **Behind lines with which no statement goes on, logical lines begin anew.** -/
theorem linesFrom_append {unfinished : Option Unfinished} (joined : Unfinished.Joined unfinished)
    {first : List (List Char)} (closed : goesOn unfinished.isSome first = false) (number : Nat)
    (rest : List (List Char)) : linesFrom unfinished number (first ++ rest) =
      linesFrom unfinished number first ++ linesFrom none (number + first.length) rest := by
  induction first generalizing unfinished number with
  | nil =>
    cases unfinished with
    | none => rfl
    | some pending => cases closed
  | cons line others ih =>
    have shifted : number + (line :: others).length = number + 1 + others.length := by
      rw [List.length_cons]
      omega
    rw [shifted]
    -- The statement ends with this line or goes on in the next one.
    have statement : ∀ first text, (text.getLast? = some '\\' ↔ line.getLast? = some '\\') →
        goesOn (line.getLast? = some '\\') others = false →
          linesFromStatement first text number (others ++ rest) =
            linesFromStatement first text number others ++
              linesFrom none (number + 1 + others.length) rest := by
      intro first text last closed
      by_cases further : line.getLast? = some '\\'
      · rw [decide_eq_true further] at closed
        cases others with
        | nil => cases closed
        | cons next others =>
          rw [List.cons_append, linesFromStatement_goesOn (last.mpr further),
            linesFromStatement_goesOn (last.mpr further)]
          exact ih (joined_some first text) closed (number + 1)
      · rw [decide_eq_false further] at closed
        rw [linesFromStatement_ends (mt last.mp further),
          linesFromStatement_ends (mt last.mp further), ih joined_none closed (number + 1)]
        rfl
    cases unfinished with
    | some pending =>
      rw [List.cons_append, linesFrom_some, linesFrom_some]
      exact statement _ _ (getLast?_joined joined rfl line) closed
    | none =>
      rw [List.cons_append, linesFrom_none, linesFrom_none]
      unfold goesOn at closed
      cases begins : beginsStatement line with
      | true =>
        rw [begins] at closed
        exact statement number line Iff.rfl closed
      | false =>
        rw [begins] at closed
        rw [if_neg Bool.false_ne_true, if_neg Bool.false_ne_true, ih joined_none closed (number + 1)]
        rfl

/-! ### What lines hold -/

/-- What lines hold, in order. -/
def contents (lines : List Line) : List Content :=
  lines.map Line.content

/-- **What logical lines hold does not depend on their numbers.** -/
theorem contents_linesFrom {unfinished unfinished' : Option Unfinished}
    (same : unfinished'.map Unfinished.text = unfinished.map Unfinished.text) (number number' : Nat)
    (lines : List (List Char)) :
    contents (linesFrom unfinished' number' lines) = contents (linesFrom unfinished number lines) := by
  induction lines generalizing unfinished unfinished' number number' with
  | nil => rfl
  | cons line rest ih =>
    have anew : contents (linesFrom none (number' + 1) rest) =
        contents (linesFrom none (number + 1) rest) := ih rfl (number + 1) (number' + 1)
    have statement : ∀ first first' text,
        contents (linesFromStatement first' text number' rest) =
          contents (linesFromStatement first text number rest) := by
      intro first first' text
      by_cases further : text.getLast? = some '\\'
      · cases rest with
        | nil =>
          unfold linesFromStatement
          cases continued? text <;> rfl
        | cons next rest =>
          have joined : (some (⟨first', text.dropLast ++ [' ']⟩ : Unfinished)).map
              Unfinished.text = (some ⟨first, text.dropLast ++ [' ']⟩).map Unfinished.text := rfl
          rw [linesFromStatement_goesOn further, linesFromStatement_goesOn further]
          exact ih joined (number + 1) (number' + 1)
      · rw [linesFromStatement_ends further, linesFromStatement_ends further]
        exact congrArg (List.cons _) anew
    cases unfinished with
    | none =>
      obtain rfl := Option.map_eq_none_iff.mp same
      rw [linesFrom_none, linesFrom_none]
      split
      · exact statement number number' line
      · exact congrArg (List.cons _) anew
    | some pending =>
      obtain ⟨pending', rfl, text⟩ := Option.map_eq_some_iff.mp same
      rw [linesFrom_some, linesFrom_some, text]
      exact statement pending.number pending'.number (pending.text ++ line)

/-! ### Numbers of lines -/

/-- No line has a number before that of the first one. -/
theorem le_number {unfinished : Option Unfinished} {first number : Nat} (starts : first ≤ number)
    (begun : ∀ pending ∈ unfinished, first ≤ pending.number) {lines : List (List Char)} {line : Line}
    (member : line ∈ linesFrom unfinished number lines) : first ≤ line.number := by
  induction lines generalizing unfinished number with
  | nil =>
    rw [linesFrom] at member
    cases member
  | cons content rest ih =>
    have later : first ≤ number + 1 := Nat.le_succ_of_le starts
    have none : line ∈ linesFrom none (number + 1) rest → first ≤ line.number :=
      ih later fun _ member => nomatch member
    -- The statement ends with this line or goes on in the next one.
    have statement : ∀ start text, first ≤ start →
        line ∈ linesFromStatement start text number rest → first ≤ line.number := by
      intro start text bound member
      unfold linesFromStatement at member
      split at member
      · exact ih later (fun pending same => Option.some.inj same ▸ bound) member
      · rcases List.mem_cons.mp member with rfl | member
        · exact bound
        · exact none member
    cases unfinished with
    | some pending =>
      rw [linesFrom_some] at member
      exact statement _ _ (begun pending rfl) member
    | none =>
      rw [linesFrom_none] at member
      split at member
      · exact statement _ _ starts member
      · rcases List.mem_cons.mp member with rfl | member
        · exact starts
        · exact none member

/-- The lines of a text are numbered from one on. -/
theorem one_le_number {text : String} {line : Line} (member : line ∈ logicalLines text) :
    1 ≤ line.number :=
  have begun : ∀ pending ∈ (none : Option Unfinished), 1 ≤ pending.number :=
    fun _ member => nomatch member
  le_number (Nat.le_refl 1) begun member
/-! ### The end of a statement -/

/-- No statement goes on behind lines of which the last one does not end with a backslash. -/
theorem goesOn_eq_false {lines : List (List Char)}
    (closed : ∀ line, lines.getLast? = some line → line.getLast? ≠ some '\\') {inside : Bool}
    (some : inside = true → lines ≠ []) : goesOn inside lines = false := by
  induction lines generalizing inside with
  | nil =>
    cases inside with
    | false => rfl
    | true => exact absurd rfl (some rfl)
  | cons line rest ih =>
    have later : rest ≠ [] → ∀ inside, goesOn inside rest = false := by
      intro more inside
      refine ih (fun last found => closed last ?_) fun _ => more
      rw [List.getLast?_cons, found]
      rfl
    unfold goesOn
    cases rest with
    | nil =>
      rw [decide_eq_false (closed line rfl)]
      split <;> rfl
    | cons next rest =>
      split
      · exact later (List.cons_ne_nil _ _) _
      · exact later (List.cons_ne_nil _ _) _

end BuildSystem.RuleFile
