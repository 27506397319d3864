/-
**An included file is read as if it stood in the place of the directive.**

* `Source.Quiet`, `Expander.Quiet.ends_text` — texts are expanded without effects outside.
* `IncludesAt`, `NamesFile` — a text with an include directive, and the file that it names.
* `ends_readStatement_include`, `follows_spliced` — an include directive reads the text of its file,
  and that text is read like its lines in the text around it.
* `ofText_include` — the same rules are read from the text that has the lines of the file between two
  empty lines in the place of the directive.
-/

import BuildSystem.Proofs.RuleFile.Places
import BuildSystem.Proofs.Text.Pieces
import BuildSystem.Proofs.Variable.Effects

namespace BuildSystem

/-! ### Expansions without effects -/

namespace Expander

variable {σ : Type} {expander : Expander σ}

/-- Commands leave the outside as it is. -/
def Quiet (expander : Expander σ) : Prop :=
  ∀ command state, Ends (fun _ after => after = state) (fun _ _ => True)
    (expander.output command state)

theorem Quiet.answers (quiet : expander.Quiet) (state : σ) :
    expander.Answers (fun after => after = state) fun _ => True := by
  rintro command _ rfl
  exact quiet command _

/-- **Texts are expanded without effects outside**, if commands have none. -/
theorem Quiet.ends_text (quiet : expander.Quiet) (text : String) (state : σ) :
    Ends (fun _ after => after = state) (fun _ _ => True) (expander.text text state) :=
  (Expander.ends_text (quiet.answers state) text rfl).mono (fun _ _ same => same)
    fun _ _ _ => trivial

end Expander

namespace RuleFile

/-! ### Inclusions -/

section Inclusion

variable {σ : Type} {source : Source σ} {bindings : Bindings} {file text flat content : String}
  {before own after : List (List Char)} {path : List Char} {state : σ}

/-- Commands between backquoted braces leave the outside as it is. -/
def Source.Quiet (source : Source σ) : Prop :=
  ∀ values command state, Ends (fun _ after => after = state) (fun _ _ => True)
    (source.output values command state)

theorem Source.Quiet.expander (quiet : source.Quiet) (reader : Reader) :
    (reader.expander source).Quiet :=
  quiet reader.bindings.values

/-- **A text with an include directive for a file** at the start of a logical line, with its own
lines, those before it and those after it. -/
structure IncludesAt (text : String) (before own after : List (List Char)) (path : List Char) :
    Prop where
  lines : Chars.lines text.toList = before ++ own ++ after
  /-- No statement goes on behind the lines before it. -/
  starts : goesOn false before = false
  /-- Its own lines are one statement. -/
  directive : ∃ written body, contents (linesFrom none 1 own) = [.statement written] ∧
    Chars.stripComment written = .ok body ∧ Chars.strip body = '<' :: path
  ends : after = [] ∨ goesOn false own = false
  isFile : path.head? ≠ some '|'

/-- **A path names a file with a given content** when the lines before it have been read. -/
def NamesFile (source : Source σ) (bindings : Bindings) (file : String)
    (before : List (List Char)) (path : List Char) (content : String) (state : σ) : Prop :=
  ∃ reader middle name late,
    (linesFrom none 1 before).foldlM
      (readLine (readText source (source.nestingLimit state)) source [] file) { bindings } state =
        .ok reader middle ∧
    (reader.expander source).text (String.ofList path) middle = .ok name late ∧
    source.text name late = .ok content

/-- The logical lines of a text with an include directive. -/
theorem IncludesAt.logicalLines (includes : IncludesAt text before own after path) :
    ∃ number written body, logicalLines text = linesFrom none 1 before ++
        ⟨number, .statement written⟩ :: linesFrom none (1 + before.length + own.length) after ∧
      Chars.stripComment written = .ok body ∧ Chars.strip body = '<' :: path := by
  obtain ⟨written, body, one, stripped, begins⟩ := includes.directive
  have single : contents (linesFrom none (1 + before.length) own) = [.statement written] :=
    (contents_linesFrom rfl 1 _ own).trans one
  obtain ⟨line, lines, content⟩ := List.map_eq_singleton_iff.mp single
  refine ⟨line.number, written, body, ?_, stripped, begins⟩
  have apart : linesFrom none (1 + before.length) (own ++ after) =
      line :: linesFrom none (1 + before.length + own.length) after := by
    rcases includes.ends with none | closed
    · rw [none, List.append_nil, lines]
      rfl
    · rw [linesFrom_append joined_none closed, lines]
      rfl
  unfold RuleFile.logicalLines
  rw [includes.lines, List.append_assoc, linesFrom_append joined_none includes.starts, apart,
    ← content]

/-- The logical lines of a text with lines between two empty ones. -/
theorem logicalLines_spliced {inner : List (List Char)} (starts : goesOn false before = false)
    (closed : goesOn false inner = false)
    (spliced : Chars.lines flat.toList = before ++ [[]] ++ inner ++ [[]] ++ after) :
    ∃ one two three four, logicalLines flat = linesFrom none 1 before ++ ⟨one, .blank⟩ ::
      (linesFrom none two inner ++ ⟨three, .blank⟩ :: linesFrom none four after) := by
  refine ⟨1 + before.length, 1 + before.length + 1, 1 + before.length + 1 + inner.length,
    1 + before.length + 1 + inner.length + 1, ?_⟩
  unfold RuleFile.logicalLines
  rw [spliced, List.append_assoc, List.append_assoc, List.append_assoc,
    linesFrom_append joined_none starts]
  congr 1
  show ⟨_, .blank⟩ :: linesFrom none (1 + before.length + 1) (inner ++ [] :: after) = _
  rw [linesFrom_append joined_none closed]
  rfl

section Directive

variable {nested : Nested σ} {active : List String} {location : Location} {reader : Reader}
  {name : String} {late : σ} {good : Reader → σ → Prop}

theorem ends_readFileWith (found : source.text name state = .ok content)
    (reads : ∀ key, source.resolve name state = .ok key → Ends good (fun _ _ => True)
      (nested (active ++ [key]) (FileName.shown name) (Text.unifyLineEnds content) reader state)) :
    Ends good (fun _ _ => True) (readFileWith nested source active name reader state) := by
  unfold readFileWith
  refine Ends.get (Ends.bind ?_)
  cases resolved : source.resolve name state with
  | error failure => exact .error trivial
  | ok key =>
    refine .ok ?_
    dsimp only
    split
    · exact .error trivial
    · refine Ends.get ?_
      rw [found]
      exact reads key resolved

/-- An include directive for a file reads the text of the file. -/
theorem ends_readInclude (isFile : path.head? ≠ some '|')
    (expands : (reader.expander source).text (String.ofList path) state = .ok name late)
    (found : source.text name late = .ok content)
    (reads : ∀ key, source.resolve name late = .ok key → Ends good (fun _ _ => True)
      (nested (active ++ [key]) (FileName.shown name) (Text.unifyLineEnds content) reader late)) :
    Ends good (fun _ _ => True)
      (readInclude nested source active location path reader state) := by
  have located : located location ((reader.expander source).text (String.ofList path)) state =
      .ok name late := by
    show EStateM.tryCatch _ _ state = _
    unfold EStateM.tryCatch
    rw [expands]
  unfold readInclude
  split
  · exact absurd rfl isFile
  · rw [bind_eq_of_ok located]
    split
    · exact .error trivial
    · refine Ends.tryCatch ((ends_readFileWith found reads).mono (fun _ _ holds => holds) ?_)
      intro failure world _
      split
      · split
        · exact .error trivial
        · exact .error trivial
      · exact .error trivial

theorem Reader.bindings_close {closed : Reader} (made : reader.close = .ok closed) :
    closed.bindings = reader.bindings := by
  unfold close at made
  split at made
  · exact Except.ok.inj made ▸ rfl
  · split at made
    · exact Except.ok.inj made ▸ rfl
    · cases made

/-- The statement of an include directive ends the rule before it. -/
theorem ends_readStatement_include {written body : List Char}
    (stripped : Chars.stripComment written = .ok body) (begins : Chars.strip body = '<' :: path)
    (isFile : path.head? ≠ some '|')
    (expands : (reader.expander source).text (String.ofList path) state = .ok name late)
    (found : source.text name late = .ok content)
    (reads : ∀ closed key, reader.close = .ok closed → Ends good (fun _ _ => True)
      (nested (active ++ [key]) (FileName.shown name) (Text.unifyLineEnds content) closed late)) :
    Ends good (fun _ _ => True)
      (readStatement nested source active location written reader state) := by
  unfold readStatement
  rw [stripped]
  refine Ends.bind (.ok ?_)
  dsimp only
  rw [begins, if_neg (by simp)]
  refine Ends.bind ?_
  cases declared : reader.close with
  | error error => exact .error trivial
  | ok closed =>
    have same : closed.expander source = reader.expander source := by
      unfold Reader.expander
      rw [Reader.bindings_close declared]
    exact .ok (ends_readInclude isFile (same ▸ expands) found fun key _ =>
      reads closed key declared)

end Directive

/-- A nested text is read like its lines in a text around it. -/
theorem follows_spliced (source : Source σ) (depth : Nat) (active : List String) (name file : String)
    (content : String) (number : Nat) (closed : Reader) :
    Follows Reader.Alike (readText source depth active name (Text.unifyLineEnds content) closed)
      ((linesFrom none number (Chars.lines content.toList)).foldlM
        (readLine (readText source depth) source [] file) closed >>=
          fun reader => accepted reader.close) := by
  have same : contents (linesFrom none number (Chars.lines content.toList)) =
      contents (logicalLines (Text.unifyLineEnds content)) := by
    unfold logicalLines Text.unifyLineEnds
    rw [String.toList_ofList, Chars.lines_unifyLineEnds]
    exact contents_linesFrom rfl 1 number _
  cases depth with
  | zero => exact fun _ => .error trivial
  | succ depth =>
    exact follows_readLines source (Nat.le_succ depth) (List.nil_subset active) (.refl closed) same
      name file

/-- The text with the directive and the text with the lines of the file are read alike. -/
theorem ends_readText_include (quiet : source.Quiet)
    (includes : IncludesAt text before own after path)
    (names : NamesFile source bindings file before path content state)
    (closed : goesOn false (Chars.lines content.toList) = false)
    (spliced : Chars.lines flat.toList =
      before ++ [[]] ++ Chars.lines content.toList ++ [[]] ++ after) :
    Ends (fun one late => ∃ two, readText source (source.nestingLimit state + 1) [] file flat
        { bindings } state = .ok two late ∧ one.Alike two) (fun _ _ => True)
      (readText source (source.nestingLimit state + 1) [] file text { bindings } state) := by
  obtain ⟨number, written, body, lines, stripped, begins⟩ := includes.logicalLines
  obtain ⟨one, two, three, four, flatLines⟩ := logicalLines_spliced includes.starts closed spliced
  obtain ⟨reader, middle, name, world, readBefore, expands, found⟩ := names
  obtain rfl : world = middle := by
    have kept := (quiet.expander reader).ends_text (String.ofList path) middle
    exact (expands ▸ kept).of_ok
  unfold readText
  simp only [lines, flatLines, List.foldlM_append, List.foldlM_cons, bind_assoc]
  rw [bind_eq_of_ok readBefore, bind_eq_of_ok readBefore]
  -- The lines of the file are read after the rule before them has been closed, in both texts.
  refine Ends.bind (ends_readStatement_include stripped begins includes.isFile expands found
    fun closed key declared => ?_)
  refine (follows_spliced source _ _ _ file content two closed world).imp ?_
  rintro here late ⟨there, made, alike⟩
  refine (follows_readLines source (Nat.le_refl _) (List.Subset.refl []) alike
    (contents_linesFrom rfl _ four after) file file late).imp ?_
  rintro last later ⟨other, ends, alike⟩
  refine ⟨other, ?_, alike⟩
  have blank : readLine (readText source (source.nestingLimit state)) source [] file reader
      ⟨one, .blank⟩ world = .ok closed world := by
    show accepted reader.close world = _
    rw [declared]
    rfl
  rw [bind_eq_of_ok blank, ← bind_assoc]
  exact (bind_eq_of_ok made).trans ends

/-- **An included file is read as if it stood in the place of the directive**: where a text with an
include directive is read, the text that has the lines of the file between two empty ones in its
place declares the same rules, apart from their places, and gives the variables the same values. -/
theorem ofText_include (quiet : source.Quiet) (includes : IncludesAt text before own after path)
    (names : NamesFile source bindings file before path content state)
    (closed : ∀ line, (Chars.lines content.toList).getLast? = some line →
      line.getLast? ≠ some '\\')
    (spliced : Chars.lines flat.toList =
      before ++ [[]] ++ Chars.lines content.toList ++ [[]] ++ after)
    {ruleSet : RuleSet} {late : σ}
    (read : ofText source bindings file text state = .ok ruleSet late) :
    ∃ result, ofText source bindings file flat state = .ok result late ∧ ruleSet.Alike result := by
  have texts := ends_readText_include quiet includes names (goesOn_eq_false closed (by simp)) spliced
  have ends : Ends (fun ruleSet late => ∃ result, ofText source bindings file flat state =
      .ok result late ∧ ruleSet.Alike result) (fun _ _ => True)
      (ofText source bindings file text state) := by
    refine Ends.get (Ends.bind (texts.imp ?_))
    rintro one late ⟨two, made, alike⟩
    refine .ok ⟨two.ruleSet, ?_, .of_rules alike.rules (congrArg Bindings.values alike.bindings)⟩
    exact bind_eq_of_ok made
  exact (read ▸ ends).of_ok

end Inclusion

/-! ### A file with definitions -/

/-- There is one file, and every command prints its own text. -/
def definitionsSource : Source Unit where
  text name _ :=
    if name = "defs.mk" then .ok "CC=cc -O\nall: main.o\n"
    else .error (.refused "No such file or directory")
  resolve path _ := .ok path
  nestingLimit _ := 10
  output _ command := pure command
  included _ _ := throw (.programMissing "no such program")

theorem includesAt_definitions :
    IncludesAt "D=defs\n<$D.mk # definitions\nmain.o: main.c\n\t$CC -c main.c\n"
      ["D=defs".toList] ["<$D.mk # definitions".toList]
      ["main.o: main.c".toList, "\t$CC -c main.c".toList] "$D.mk".toList where
  lines := by decide +kernel
  starts := by decide
  directive := ⟨"<$D.mk # definitions".toList, "<$D.mk ".toList, by decide, rfl, by decide⟩
  ends := Or.inr (by decide)
  isFile := by decide

theorem namesFile_definitions : NamesFile definitionsSource ⟨[], []⟩ "mkfile" ["D=defs".toList]
    "$D.mk".toList "CC=cc -O\nall: main.o\n" () :=
  ⟨_, (), "defs.mk", (), rfl, rfl, rfl⟩

/-- The rules of the file and those behind it are read, and the file sets a variable. -/
theorem ofText_definitions : ∃ ruleSet, ofText definitionsSource ⟨[], []⟩ "mkfile"
      "D=defs\n<$D.mk # definitions\nmain.o: main.c\n\t$CC -c main.c\n" () = .ok ruleSet () ∧
    ruleSet.explicitTargets = ["all", "main.o"] ∧
    ruleSet.values = [("D", ["defs"]), ("CC", ["cc", "-O"])] :=
  ⟨_, rfl, by decide, by decide⟩

theorem ofText_include_definitions : ∃ ruleSet result,
    ofText definitionsSource ⟨[], []⟩ "mkfile"
      "D=defs\n<$D.mk # definitions\nmain.o: main.c\n\t$CC -c main.c\n" () = .ok ruleSet () ∧
    (ruleSet.explicitTargets = ["all", "main.o"] ∧
      ruleSet.values = [("D", ["defs"]), ("CC", ["cc", "-O"])]) ∧
    ofText definitionsSource ⟨[], []⟩ "mkfile"
      "D=defs\n\nCC=cc -O\nall: main.o\n\nmain.o: main.c\n\t$CC -c main.c\n" () =
        .ok result () ∧
    ruleSet.Alike result := by
  obtain ⟨ruleSet, read, contents⟩ := ofText_definitions
  have quiet : definitionsSource.Quiet := fun _ command state =>
    (.ok rfl : Ends (fun _ after => after = state) (fun _ _ => True) (.ok command state))
  have closed : ∀ line, (Chars.lines "CC=cc -O\nall: main.o\n".toList).getLast? = some line →
      line.getLast? ≠ some '\\' := by
    rintro _ ⟨⟩
    decide
  have spliced : Chars.lines
      "D=defs\n\nCC=cc -O\nall: main.o\n\nmain.o: main.c\n\t$CC -c main.c\n".toList =
        ["D=defs".toList] ++ [[]] ++ Chars.lines "CC=cc -O\nall: main.o\n".toList ++ [[]] ++
          ["main.o: main.c".toList, "\t$CC -c main.c".toList] := by
    decide +kernel
  obtain ⟨result, flat, alike⟩ :=
    ofText_include quiet includesAt_definitions namesFile_definitions closed spliced read
  exact ⟨ruleSet, result, read, contents, flat, alike⟩

end RuleFile

end BuildSystem
