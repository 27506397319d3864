/-
**What one line of a rule file does.**

A line includes a file, or the output of a command, or it includes nothing; then it does the same
wherever it stands, whatever is read around it.

* `Line.Directs`, `Line.IncludesFile`, `Line.IncludesOutput` — include directives.
* `Directive`, `readLine_includesFile`, `readLine_includesOutput` — what they do: an error about the
  named file as a whole is moved to the line of the directive.
* `Reader.Step`, `Reader.Invariant` — what a line can do that includes nothing, and what every such
  step keeps.
* `Line.Idle`, `ends_idle` — such a line takes a step, or its error stands at this very line, at the
  header of the rule that it ends, or comes from a command.
* `Line.cases` — every line is of one of these kinds.
-/

import BuildSystem.Proofs.RuleFile.Headers

namespace BuildSystem.RuleFile

variable {σ : Type} {source : Source σ} {nested : Nested σ} {active : List String} {file : String}
  {reader closed : Reader} {line : Line} {state after : σ}

/-! ### Include directives -/

/-- **A line is an include directive**: it ends the rule before it, and behind its first character
stands what is to be included. -/
structure Line.Directs (line : Line) (reader closed : Reader) (included : List Char) : Prop where
  statement : ∃ written body, line.content = .statement written ∧
    Chars.stripComment written = .ok body ∧ Chars.strip body = '<' :: included
  closes : reader.close = .ok closed

/-- **A line includes a file**, whose name its directive gives under the current values. -/
def Line.IncludesFile (line : Line) (source : Source σ) (reader : Reader) (state : σ)
    (path : String) (closed : Reader) (after : σ) : Prop :=
  ∃ written, line.Directs reader closed written ∧ written.head? ≠ some '|' ∧
    (closed.expander source).text (String.ofList written) state = .ok path after ∧
    path.isEmpty = false

/-- **A line includes the output of a command**, which its directive gives under the current
values. -/
def Line.IncludesOutput (line : Line) (source : Source σ) (reader : Reader) (state : σ)
    (command : String) (closed : Reader) (after : σ) : Prop :=
  ∃ written, line.Directs reader closed ('|' :: written) ∧
    (closed.expander source).text (String.ofList written) state = .ok command after

/-- Whether a line is an include directive for the output of a command. -/
def Line.pipes (line : Line) : Bool :=
  match line.content with
  | .statement written =>
    match Chars.stripComment written with
    | .ok body => ['<', '|'].isPrefixOf (Chars.strip body)
    | .error _ => false
  | .blank | .recipe _ => false

theorem Line.IncludesOutput.pipes {command : String}
    (includes : line.IncludesOutput source reader state command closed after) :
    line.pipes = true := by
  obtain ⟨written, ⟨⟨text, body, content, stripped, begins⟩, -⟩, -⟩ := includes
  unfold Line.pipes
  rw [content]
  dsimp only
  rw [stripped]
  dsimp only
  rw [begins]
  rfl

/-- An include directive for a file: where it stands, and how it names the file. -/
structure Directive where
  location : Location
  path : String
deriving DecidableEq, Repr

namespace Directive

/-- A failure in the file, seen from the directive: an error about the file as a whole, if it names
the file as the directive does, is moved to the line of the directive. -/
def moved (directive : Directive) : Failure → Failure
  | .build (.malformedRuleFile message file line) =>
    if file = directive.path ∧ line = 0 then malformed message directive.location
    else .build (.malformedRuleFile message file line)
  | failure => failure

/-- A failure other than an error of a rule file stays as it is. -/
theorem moved_other (directive : Directive) {failure : Failure}
    (other : ∀ message file line, failure ≠ .build (.malformedRuleFile message file line)) :
    directive.moved failure = failure := by
  unfold moved
  split
  · exact absurd rfl (other _ _ _)
  · rfl

/-- How reading the file ends, seen from the directive. -/
def outcome {α : Type} (directive : Directive) :
    EStateM.Result Failure σ α → EStateM.Result Failure σ α
  | .ok value after => .ok value after
  | .error failure after => .error (directive.moved failure) after

end Directive

/-- A statement other than an include directive, without its comment. -/
def readDeclaration (source : Source σ) (location : Location) (body : List Char)
    (reader : Reader) : Action σ Reader := do
  match Chars.splitAssignment? body with
  | some (name, value) =>
    let words ← located location ((reader.expander source).words (String.ofList value))
    let (_, bindings) := reader.bindings.assign (String.ofList name) words
    return { reader with bindings }
  | none =>
    let header ← readHeader (reader.expander source) location body
    return { reader with header := some header }

section Statements

variable {written body : List Char} {location : Location}

/-- An error is given its place, and nothing else is changed. -/
theorem located_eq_ok_iff {α : Type} {action : Action σ α} {value : α} :
    located location action state = .ok value after ↔ action state = .ok value after := by
  show EStateM.tryCatch _ _ state = _ ↔ _
  unfold EStateM.tryCatch
  cases action state with
  | ok found world => exact Iff.rfl
  | error failure world =>
    cases failure with
    | expansion error => exact ⟨nofun, nofun⟩
    | _ => exact ⟨nofun, nofun⟩

theorem located_stripComment (stripped : Chars.stripComment written = .ok body) :
    located location (expanded (Chars.stripComment written)) state = .ok body state := by
  rw [stripped]
  exact located_eq_ok_iff.mpr rfl

/-- A statement that is an include directive. -/
theorem readStatement_directs {included : List Char}
    (stripped : Chars.stripComment written = .ok body)
    (begins : Chars.strip body = '<' :: included) (closes : reader.close = .ok closed) :
    readStatement nested source active location written reader state =
      readInclude nested source active location included closed state := by
  unfold readStatement
  rw [bind_eq_of_ok (located_stripComment stripped)]
  dsimp only
  rw [begins, if_neg (by simp), bind_eq_of_ok (accepted_eq_of_ok closes)]
  rfl

/-- A statement that is none. -/
theorem readStatement_declares (stripped : Chars.stripComment written = .ok body)
    (holds : Chars.strip body ≠ []) (plain : (Chars.strip body).head? ≠ some '<')
    (closes : reader.close = .ok closed) :
    readStatement nested source active location written reader state =
      readDeclaration source location (Chars.strip body) closed state := by
  unfold readStatement
  rw [bind_eq_of_ok (located_stripComment stripped)]
  generalize Chars.strip body = body at holds plain
  dsimp only
  rw [if_neg (by simpa using holds), bind_eq_of_ok (accepted_eq_of_ok closes)]
  split
  · exact absurd rfl plain
  · rfl

theorem readLine_directs (directs : line.Directs reader closed written) :
    readLine nested source active file reader line state =
      readInclude nested source active ⟨file, line.number⟩ written closed state := by
  obtain ⟨⟨text, body, content, stripped, begins⟩, closes⟩ := directs
  have statement : readLine nested source active file reader line =
      readStatement nested source active ⟨file, line.number⟩ text reader := by
    rw [readLine, content]
  rw [statement]
  exact readStatement_directs stripped begins closes

end Statements

/-- Reads the file that a directive names. -/
def readNamed (nested : Nested σ) (source : Source σ) (active : List String)
    (directive : Directive) (reader : Reader) : Action σ Reader :=
  if directive.path.isEmpty then refuse "include directive without a file name" directive.location
  else fun state =>
    directive.outcome (readFileWith nested source active directive.path reader state)

theorem readNamed_of_isEmpty {directive : Directive} (unnamed : directive.path.isEmpty = true) :
    readNamed nested source active directive reader =
      refuse "include directive without a file name" directive.location :=
  if_pos unnamed

theorem readNamed_apply {directive : Directive} (named : directive.path.isEmpty = false) :
    readNamed nested source active directive reader state =
      directive.outcome (readFileWith nested source active directive.path reader state) :=
  congrFun (if_neg (by rw [named]; exact Bool.false_ne_true)) state

theorem Directive.tryCatch_moved (directive : Directive) (action : Action σ Reader) :
    (tryCatch action fun
      | .build (.malformedRuleFile message file line) =>
        if file = directive.path ∧ line = 0 then refuse message directive.location
        else throw (.build (.malformedRuleFile message file line))
      | failure => throw failure) = fun state => directive.outcome (action state) := by
  funext state
  show EStateM.tryCatch _ _ state = _
  unfold EStateM.tryCatch
  cases action state with
  | ok later world => rfl
  | error failure world =>
    cases failure with
    | build error =>
      cases error with
      | malformedRuleFile message name number =>
        unfold Directive.outcome Directive.moved
        dsimp only
        split
        · rfl
        · rfl
      | _ => rfl
    | _ => rfl

/-- An include directive without a bar includes a file. -/
theorem readInclude_file {written : List Char} (isFile : written.head? ≠ some '|')
    (location : Location) : readInclude nested source active location written reader =
      (located location ((reader.expander source).text (String.ofList written)) >>= fun path =>
        readNamed nested source active ⟨location, path⟩ reader) := by
  unfold readInclude
  split
  · exact absurd rfl isFile
  · refine bind_congr fun path => ?_
    have seen := Directive.tryCatch_moved ⟨location, path⟩
      (readFileWith nested source active path reader)
    exact ite_congr rfl (fun _ => rfl) fun _ => seen

/-- **A line that includes a file reads the file**, and its errors are seen from the line. -/
theorem readLine_includesFile {path : String}
    (includes : line.IncludesFile source reader state path closed after) :
    readLine nested source active file reader line state =
      Directive.outcome ⟨⟨file, line.number⟩, path⟩
        (readFileWith nested source active path closed after) := by
  obtain ⟨written, directs, isFile, expands, some⟩ := includes
  rw [readLine_directs directs, readInclude_file isFile,
    bind_eq_of_ok (located_eq_ok_iff.mpr expands)]
  exact readNamed_apply some

/-- **A line that includes the output of a command reads that text.** -/
theorem readLine_includesOutput {command : String}
    (includes : line.IncludesOutput source reader state command closed after) :
    readLine nested source active file reader line state =
      (source.included closed.bindings.values command >>= fun text =>
        nested active ("<|" ++ command) text closed) after := by
  obtain ⟨written, directs, expands⟩ := includes
  rw [readLine_directs directs]
  exact bind_eq_of_ok (located_eq_ok_iff.mpr expands)

/-! ### Lines that include nothing -/

/-- A rule that cannot be declared is that of the current header. -/
theorem Reader.exists_of_close_eq_error {failure : Failure}
    (fails : reader.close = .error failure) :
    ∃ header, reader.header = some header ∧ header.rules = .error failure := by
  unfold close at fails
  split at fails
  · cases fails
  · next header current =>
    split at fails
    · cases fails
    · next declares => exact ⟨header, current, Except.error.inj fails ▸ declares⟩

/-- **What a line can do that includes nothing.** -/
inductive Reader.Step (location : Location) (reader : Reader) : Reader → Prop
  /-- There is nothing on the line but a comment. -/
  | stays : Step location reader reader
  /-- A line of the current recipe. -/
  | recipe {header : Header} (text : String) (current : reader.header = some header) :
      Step location reader
        { reader with header := some { header with recipe := header.recipe ++ [text] } }
  /-- The end of the current rule. -/
  | closes {closed : Reader} (closes : reader.close = .ok closed) : Step location reader closed
  /-- An assignment. -/
  | assigns {closed : Reader} (closes : reader.close = .ok closed) (name : String)
      (words : List String) :
      Step location reader { closed with bindings := (closed.bindings.assign name words).2 }
  /-- A header. -/
  | opens {closed : Reader} (closes : reader.close = .ok closed) {header : Header}
      (read : header.ReadAt location) : Step location reader { closed with header := some header }

/-- **A property of what has been read that every step keeps.** -/
def Reader.Invariant (holds : Reader → Prop) : Prop :=
  ∀ {location : Location} {reader later : Reader}, 1 ≤ location.line → holds reader →
    reader.Step location later → holds later

/-- **A line includes nothing**: it comes to the same, whatever is read around it. -/
def Line.Idle (line : Line) (source : Source σ) (file : String) (reader : Reader) (state : σ)
    (result : EStateM.Result Failure σ Reader) : Prop :=
  ∀ nested active, readLine nested source active file reader line state = result

/-- How a line ends that includes nothing. -/
abbrev EndsStep (usual : σ → Prop) (raised : Failure → Prop) (location : Location)
    (reader : Reader) : EStateM.Result Failure σ Reader → Prop :=
  Ends (fun later after => reader.Step location later ∧ usual after)
    (fun failure _ => failure.OfLine raised location ∨ reader.close = .error failure)

/-- **Commands keep the state usual, and their failures are of a known kind.** -/
def Source.Answers (source : Source σ) (usual : σ → Prop) (raised : Failure → Prop) : Prop :=
  ∀ values command state, usual state →
    Ends (fun _ after => usual after) (fun failure _ => raised failure)
      (source.output values command state)

section Endings

variable {usual : σ → Prop} {raised : Failure → Prop} {location : Location}

theorem Source.Answers.expander (answers : source.Answers usual raised) (reader : Reader) :
    (reader.expander source).Answers usual raised :=
  answers reader.bindings.values

/-- An include directive is expanded in usual states. -/
theorem Line.IncludesFile.kept (answers : source.Answers usual raised) {path : String}
    (includes : line.IncludesFile source reader state path closed after) (start : usual state) :
    usual after := by
  obtain ⟨written, -, -, expands, -⟩ := includes
  have ends := Expander.ends_text (answers.expander closed) (String.ofList written) start
  exact (expands ▸ ends).of_ok

theorem Line.IncludesOutput.kept (answers : source.Answers usual raised) {command : String}
    (includes : line.IncludesOutput source reader state command closed after)
    (start : usual state) : usual after := by
  obtain ⟨written, -, expands⟩ := includes
  have ends := Expander.ends_text (answers.expander closed) (String.ofList written) start
  exact (expands ▸ ends).of_ok

theorem ends_readDeclaration (answers : source.Answers usual raised)
    (closes : reader.close = .ok closed) (body : List Char) (start : usual state) :
    EndsStep usual raised location reader
      (readDeclaration source location body closed state) := by
  unfold readDeclaration
  cases Chars.splitAssignment? body with
  | some sides =>
    exact Ends.bind ((endsAt_located location
      (Expander.ends_words (answers.expander closed) _ start)).mono
        (fun words _ kept => .ok ⟨.assigns closes _ words, kept⟩) fun _ _ fails => .inl fails)
  | none =>
    exact Ends.bind ((ends_readHeader (answers.expander closed) location body start).mono
      (fun header _ read => .ok ⟨.opens closes read.1, read.2⟩) fun _ _ fails => .inl fails)

theorem ends_close (reader : Reader) (start : usual state) :
    EndsStep usual raised location reader ((accepted reader.close : Action σ Reader) state) := by
  cases closes : reader.close with
  | ok closed => exact .ok ⟨.closes closes, start⟩
  | error failure => exact .error (.inr closes)

theorem ends_addRecipeLine (reader : Reader) (text : List Char) (start : usual state) :
    EndsStep usual raised location reader
      ((accepted (reader.addRecipeLine location text) : Action σ Reader) state) := by
  unfold Reader.addRecipeLine
  cases current : reader.header with
  | none => exact .error (.inl (.inl ⟨_, rfl⟩))
  | some header => exact .ok ⟨.recipe _ current, start⟩

/-- **What a line comes to**: it includes a file, or the output of a command, or nothing. -/
inductive Line.Course (line : Line) (source : Source σ) (usual : σ → Prop)
    (raised : Failure → Prop) (file : String) (reader : Reader) (state : σ) : Prop
  | file {path : String} {closed : Reader} {after : σ}
      (includes : line.IncludesFile source reader state path closed after)
  | output {command : String} {closed : Reader} {after : σ}
      (includes : line.IncludesOutput source reader state command closed after)
  | idle {result : EStateM.Result Failure σ Reader}
      (idle : line.Idle source file reader state result)
      (ends : EndsStep usual raised ⟨file, line.number⟩ reader result)

/-- An include directive names something to include, or it is an error. -/
theorem Line.Directs.course (answers : source.Answers usual raised) {written : List Char}
    (directs : line.Directs reader closed written) (start : usual state) :
    line.Course source usual raised file reader state := by
  have ends := fun text => endsAt_located ⟨file, line.number⟩
    (Expander.ends_text (answers.expander closed) text start)
  by_cases piped : written.head? = some '|'
  · obtain ⟨command, rfl⟩ := List.head?_eq_some_iff.mp piped
    have ends := ends (String.ofList command)
    cases expands : located ⟨file, line.number⟩
      ((closed.expander source).text (String.ofList command)) state with
    | ok name after =>
      exact .output ⟨command, directs, located_eq_ok_iff.mp expands⟩
    | error failure after =>
      have idle : line.Idle source file reader state (.error failure after) := by
        intro nested active
        rw [readLine_directs directs]
        exact bind_eq_of_error expands
      exact .idle idle (.error (.inl (expands ▸ ends).of_error))
  · have ends := ends (String.ofList written)
    cases expands : located ⟨file, line.number⟩
      ((closed.expander source).text (String.ofList written)) state with
    | ok path after =>
      cases named : path.isEmpty with
      | false =>
        exact .file ⟨written, directs, piped, located_eq_ok_iff.mp expands, named⟩
      | true =>
        have idle : line.Idle source file reader state
            (refuse "include directive without a file name" ⟨file, line.number⟩ after) := by
          intro nested active
          rw [readLine_directs directs, readInclude_file piped, bind_eq_of_ok expands,
            readNamed_of_isEmpty named]
        exact .idle idle (.error (.inl (.inl ⟨_, rfl⟩)))
    | error failure after =>
      have idle : line.Idle source file reader state (.error failure after) := by
        intro nested active
        rw [readLine_directs directs, readInclude_file piped]
        exact bind_eq_of_error expands
      exact .idle idle (.error (.inl (expands ▸ ends).of_error))

/-- **Every line includes a file, or the output of a command, or nothing.** -/
theorem Line.course (answers : source.Answers usual raised) (line : Line) (file : String)
    (reader : Reader) (start : usual state) :
    line.Course source usual raised file reader state := by
  cases content : line.content with
  | blank =>
    refine .idle (fun nested active => ?_) (ends_close reader start)
    rw [readLine, content]
  | recipe text =>
    refine .idle (fun nested active => ?_) (ends_addRecipeLine reader text start)
    rw [readLine, content]
  | statement written =>
    have reads : ∀ nested active, readLine nested source active file reader line =
        readStatement nested source active ⟨file, line.number⟩ written reader := by
      intro nested active
      rw [readLine, content]
    cases stripped : Chars.stripComment written with
    | error error =>
      have idle : line.Idle source file reader state
          (refuse error.message ⟨file, line.number⟩ state) := by
        intro nested active
        rw [reads, readStatement, stripped]
        rfl
      exact .idle idle (.error (.inl (.inl ⟨_, rfl⟩)))
    | ok body =>
      cases begins : Chars.strip body with
      | nil =>
        have idle : line.Idle source file reader state (.ok reader state) := by
          intro nested active
          rw [reads, readStatement, bind_eq_of_ok (located_stripComment stripped), begins]
          rfl
        exact .idle idle (.ok ⟨.stays, start⟩)
      | cons c rest =>
        cases closes : reader.close with
        | error failure =>
          have idle : line.Idle source file reader state (.error failure state) := by
            intro nested active
            rw [reads, readStatement, bind_eq_of_ok (located_stripComment stripped), begins, closes]
            rfl
          exact .idle idle (.error (.inr closes))
        | ok closed =>
          by_cases first : c = '<'
          · subst first
            exact Line.Directs.course answers
              ⟨⟨written, body, content, stripped, begins⟩, closes⟩ start
          · refine .idle (fun nested active => ?_)
              (ends_readDeclaration answers closes (Chars.strip body) start)
            rw [reads]
            exact readStatement_declares stripped (by simp [begins]) (by simp [begins, first])
              closes

end Endings

end BuildSystem.RuleFile
