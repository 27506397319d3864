/-
**What a rule file assigns to an overridden variable does not matter.**

* `Bindings.Keeps` — the overridden variables and their values stay as they are.
* `Expander.ends_words_of_free` — a text without commands is expanded without effects outside.
* `ends_readText_keeps` — overridden variables keep their values while a text is read, with all
  texts that it includes.
* `Line.overridden?`, `Line.visible` — the assignment of a line to an overridden variable, and what
  a line says, apart from the value of such an assignment.
* `ends_readLine_overridden` — such a line does no more than end the rule before it.
* `ofText_overridden` — texts that say the same apart from such values are read alike, places
  included.
-/

import BuildSystem.Proofs.RuleFile.Inclusion
import BuildSystem.Proofs.RuleFile.Steps
import BuildSystem.Proofs.Variable.Lexemes

namespace BuildSystem

/-! ### Overridden variables keep their values -/

/-- **The variables that are overridden stay overridden and keep their values.** -/
structure Bindings.Keeps (first later : Bindings) : Prop where
  locked : later.locked = first.locked
  values : ∀ name ∈ first.locked, later.values.get? name = first.values.get? name

namespace Bindings.Keeps

theorem refl (bindings : Bindings) : bindings.Keeps bindings :=
  ⟨rfl, fun _ _ => rfl⟩

theorem trans {first middle last : Bindings} (one : first.Keeps middle)
    (two : middle.Keeps last) : first.Keeps last where
  locked := two.locked.trans one.locked
  values name known := (two.values name (one.locked ▸ known)).trans (one.values name known)

theorem assign (name : String) (words : List String) (bindings : Bindings) :
    bindings.Keeps (bindings.assign name words).2 := by
  unfold Bindings.assign
  split
  · exact refl bindings
  · next free =>
    refine ⟨rfl, fun other known => Table.get?_set_of_ne ?_ words bindings.values⟩
    rintro rfl
    exact free (List.contains_iff_mem.mpr known)

end Bindings.Keeps

/-- The value of a variable that is overridden. -/
theorem Bindings.get?_ofEnvironment (environ : Environment) {overrides : Environment}
    (distinct : overrides.keys.Nodup) {name value : String}
    (given : overrides.get? name = some value) :
    (ofEnvironment environ overrides).values.get? name = some (Text.words value) := by
  have keys : (Values.ofEnvironment overrides).keys = overrides.keys := by
    simp [Values.ofEnvironment, Table.keys]
  have found : (Values.ofEnvironment overrides).get? name = some (Text.words value) := by
    rw [show Values.ofEnvironment overrides = overrides.mapValues Text.words from rfl,
      Table.get?_mapValues, given]
    rfl
  show (Table.update _ (Values.ofEnvironment overrides)).get? name = _
  rw [Table.get?_update (keys ▸ distinct), found]
  rfl

/-! ### Expansions without commands -/

/-- Whether an element is a command. -/
def Lexeme.isCommand : Lexeme → Bool
  | .command _ => true
  | _ => false

/-- **A text without commands is expanded without effects outside.** -/
theorem Expander.ends_words_of_free {σ : Type} (expander : Expander σ) {text : String}
    (free : ∀ lexeme ∈ (lexemes text.toList).1, lexeme.isCommand = false) (state : σ) :
    Ends (fun _ after => after = state) (fun _ _ => True) (expander.words text state) := by
  rw [words_eq, interpret]
  refine Ends.bind ((Ends.foldlM_along (fun _ _ after => after = state)
    (fun before lexeme rest words world split same => ?_) state rfl).imp fun words _ same => ?_)
  · have member : lexeme ∈ (lexemes text.toList).1 := by simp [split]
    cases lexeme with
    | reference body =>
      have ends : EndsUsual (fun after => after = state) (fun _ => True) _ :=
        expander.ends_addReference body words same
      exact ends.mono (fun _ _ same => same) fun _ _ _ => trivial
    | command body => cases free _ member
    | _ => exact .ok same
  · cases (lexemes text.toList).2 with
    | none => exact .ok same
    | some error => exact .error trivial

namespace RuleFile

/-! ### Reading keeps overridden variables -/

section Keeping

variable {σ : Type} {source : Source σ} {nested : Nested σ}

/-- Reading nested texts keeps the overridden variables. -/
def NestedKeeps (nested : Nested σ) : Prop :=
  ∀ active file text reader state,
    Ends (fun (later : Reader) _ => reader.bindings.Keeps later.bindings) (fun _ _ => True)
      (nested active file text reader state)

theorem ends_close_keeps (reader : Reader) (state : σ) :
    Ends (fun (later : Reader) _ => reader.bindings.Keeps later.bindings) (fun _ _ => True)
      ((accepted reader.close : Action σ Reader) state) := by
  cases made : reader.close with
  | error error => exact .error trivial
  | ok closed => exact .ok (Reader.bindings_close made ▸ .refl _)

theorem ends_readFileWith_keeps (keeps : NestedKeeps nested) (active : List String)
    (path : String) (reader : Reader) (state : σ) :
    Ends (fun (later : Reader) _ => reader.bindings.Keeps later.bindings) (fun _ _ => True)
      (readFileWith nested source active path reader state) := by
  unfold readFileWith
  refine Ends.get (Ends.bind ?_)
  cases source.resolve path state with
  | error failure => exact .error trivial
  | ok name =>
    refine .ok ?_
    dsimp only
    split
    · exact .error trivial
    · refine Ends.get ?_
      rcases source.text path state with (_ | _) | text
      · exact .error trivial
      · exact .error trivial
      · exact keeps _ _ _ reader state

/-- What a line does that includes nothing keeps the overridden variables. -/
theorem Reader.Step.keeps {location : Location} {reader later : Reader}
    (step : reader.Step location later) : reader.bindings.Keeps later.bindings := by
  cases step with
  | stays => exact .refl _
  | recipe => exact .refl _
  | closes closes => exact Reader.bindings_close closes ▸ .refl _
  | assigns closes name words => exact Reader.bindings_close closes ▸ .assign name words _
  | opens closes => exact Reader.bindings_close closes ▸ .refl _

/-- **Reading a line keeps the overridden variables**, if reading nested texts does. -/
theorem ends_readLine_keeps (keeps : NestedKeeps nested) (active : List String) (file : String)
    (reader : Reader) (line : Line) (state : σ) :
    Ends (fun (later : Reader) _ => reader.bindings.Keeps later.bindings) (fun _ _ => True)
      (readLine nested source active file reader line state) := by
  have answers : source.Answers (fun _ => True) fun _ => True := fun _ _ _ _ => Ends.somehow _
  have course : line.Course source (fun _ => True) (fun _ => True) file reader state :=
    line.course answers file reader trivial
  cases course with
  | @file path closed after includes =>
    have same : closed.bindings = reader.bindings :=
      let ⟨_, directs, _⟩ := includes
      Reader.bindings_close directs.closes
    have ends : Ends _ _ (readFileWith nested source active path closed after) :=
      ends_readFileWith_keeps keeps active path closed after
    rw [readLine_includesFile includes, ← same]
    cases result : readFileWith nested source active path closed after with
    | ok later world => exact .ok (result ▸ ends).of_ok
    | error failure world => exact .error trivial
  | @output command closed after includes =>
    have same : closed.bindings = reader.bindings :=
      let ⟨_, directs, _⟩ := includes
      Reader.bindings_close directs.closes
    rw [readLine_includesOutput includes, ← same]
    exact Ends.andThen _ fun text _ => keeps _ _ _ closed _
  | idle idle ends =>
    rw [idle]
    exact ends.mono (fun _ _ step => step.1.keeps) fun _ _ _ => trivial

/-- **Reading a text keeps the overridden variables**, whatever it includes. -/
theorem ends_readText_keeps (source : Source σ) (depth : Nat) :
    NestedKeeps (readText source depth) := by
  induction depth with
  | zero => exact fun _ _ _ _ _ => .error trivial
  | succ depth ih =>
    intro active file text reader state
    refine Ends.bind ((Ends.foldlM_along
      (fun _ later _ => reader.bindings.Keeps later.bindings)
      (fun _ line _ found world _ kept => ?_) state (.refl _)).imp fun last after kept => ?_)
    · exact (ends_readLine_keeps ih active file found line world).imp
        fun _ _ later => kept.trans later
    · exact (ends_close_keeps last after).imp fun _ _ later => kept.trans later

end Keeping

/-! ### Assignments to overridden variables -/

/-- The two sides of a line, without its comment, that assigns a value to one of the given
variables. -/
def Line.overridden? (names : List String) (line : Line) : Option (List Char × List Char) :=
  match line.content with
  | .statement text =>
    match Chars.stripComment text with
    | .ok body =>
      (Chars.splitAssignment? (Chars.strip body)).filter fun sides =>
        names.contains (String.ofList sides.1)
    | .error _ => none
  | .blank | .recipe _ => none

/-- **What a line says**, apart from a value that it assigns to one of the given variables, and
where it stands. -/
def Line.visible (names : List String) (line : Line) : Nat × (List Char ⊕ Content) :=
  (line.number, match line.overridden? names with
    | some (name, _) => .inl name
    | none => .inr line.content)

/-- **The value that a line assigns to one of the given variables asks for no command.** -/
def Line.Free (names : List String) (line : Line) : Prop :=
  ∀ sides ∈ line.overridden? names, ∀ lexeme ∈ (lexemes sides.2).1, lexeme.isCommand = false

instance (names : List String) (line : Line) : Decidable (line.Free names) :=
  inferInstanceAs (Decidable (∀ sides ∈ line.overridden? names, _))

/-- A line that assigns a value to one of the given variables is a statement. -/
theorem Line.statement_of_overridden {names : List String} {line : Line} {name value : List Char}
    (assigns : line.overridden? names = some (name, value)) :
    ∃ text body, line.content = .statement text ∧ Chars.stripComment text = .ok body ∧
      Chars.splitAssignment? (Chars.strip body) = some (name, value) ∧
      names.contains (String.ofList name) = true := by
  unfold overridden? at assigns
  split at assigns
  · next text content =>
    split at assigns
    · next body stripped =>
      obtain ⟨sides, known⟩ := Option.filter_eq_some_iff.mp assigns
      exact ⟨text, body, content, stripped, sides, known⟩
    · cases assigns
  · cases assigns
  · cases assigns

section Overriding

variable {σ : Type} {source : Source σ} {nested : Nested σ} {names : List String}

/-- An assignment to an overridden variable whose value asks for no command does no more than end
the rule before it. -/
theorem ends_readStatement_overridden {reader : Reader} {text body name value : List Char}
    (stripped : Chars.stripComment text = .ok body)
    (sides : Chars.splitAssignment? (Chars.strip body) = some (name, value))
    (locked : reader.bindings.locked.contains (String.ofList name) = true)
    (free : ∀ lexeme ∈ (lexemes value).1, lexeme.isCommand = false)
    (active : List String) (location : Location) (state : σ) :
    Ends (fun later after => reader.close = .ok later ∧ after = state) (fun _ _ => True)
      (readStatement nested source active location text reader state) := by
  unfold readStatement
  rw [stripped]
  refine Ends.bind (.ok ?_)
  generalize Chars.strip body = body at sides
  dsimp only
  split
  · next none =>
    rw [List.isEmpty_iff.mp none] at sides
    cases sides
  · cases made : reader.close with
    | error error => exact Ends.bind (.error trivial)
    | ok closed =>
      refine Ends.bind (.ok ?_)
      split
      · cases sides
      · rw [sides]
        rw [← String.toList_ofList (l := value)] at free
        have expands := (closed.expander source).ends_words_of_free free state
        refine Ends.bind ((Ends.tryCatch (expands.mono (fun _ _ same => same)
          fun failure after _ => ?_)).imp ?_)
        · cases failure with
          | expansion error => exact .error trivial
          | _ => exact .error trivial
        · rintro words _ rfl
          have kept : closed.bindings.assign (String.ofList name) words =
              (false, closed.bindings) := by
            rw [Bindings.assign, Reader.bindings_close made, if_pos locked]
          exact .ok ⟨by rw [kept], rfl⟩

/-- **A line that assigns a value to an overridden variable does no more than end the rule before
it.** -/
theorem ends_readLine_overridden {reader : Reader} (locked : reader.bindings.locked = names)
    {line : Line} {name value : List Char}
    (assigns : line.overridden? names = some (name, value)) (free : line.Free names)
    (active : List String) (file : String) (state : σ) :
    Ends (fun later after => reader.close = .ok later ∧ after = state) (fun _ _ => True)
      (readLine nested source active file reader line state) := by
  obtain ⟨text, body, content, stripped, sides, known⟩ := line.statement_of_overridden assigns
  have statement : readLine nested source active file reader line =
      readStatement nested source active ⟨file, line.number⟩ text reader := by
    rw [readLine, content]
  rw [statement]
  exact ends_readStatement_overridden stripped sides (locked ▸ known) (free _ assigns) active _ state

/-! ### Texts that say the same -/

/-- Lines that say the same are equal, or both assign a value to an overridden variable. -/
theorem Line.visible_cases {line line' : Line} (same : line'.visible names = line.visible names) :
    line' = line ∨ ∃ sides sides', line.overridden? names = some sides ∧
      line'.overridden? names = some sides' := by
  obtain ⟨number, shown⟩ := Prod.mk.inj same
  cases assigns : line.overridden? names with
  | some sides =>
    cases assigns' : line'.overridden? names with
    | some sides' => exact .inr ⟨sides, sides', rfl, rfl⟩
    | none =>
      rw [assigns, assigns'] at shown
      cases shown
  | none =>
    cases assigns' : line'.overridden? names with
    | some sides' =>
      rw [assigns, assigns'] at shown
      cases shown
    | none =>
      rw [assigns, assigns'] at shown
      obtain ⟨number₁, content₁⟩ := line
      obtain ⟨number₂, content₂⟩ := line'
      exact .inl (congr (congrArg Line.mk number) (Sum.inr.inj shown))

/-- **Lines that say the same are read alike**, apart from what they assign to overridden
variables, if both texts can be read. -/
theorem readLines_agree (keeps : NestedKeeps nested) {active : List String} {file : String}
    {lines lines' : List Line}
    (same : lines'.map (Line.visible names) = lines.map (Line.visible names))
    (free : ∀ line ∈ lines, line.Free names) (free' : ∀ line ∈ lines', line.Free names)
    {reader : Reader} (locked : reader.bindings.locked = names) {state after after' : σ}
    {one two : Reader}
    (read : lines.foldlM (readLine nested source active file) reader state = .ok one after)
    (read' : lines'.foldlM (readLine nested source active file) reader state = .ok two after') :
    two = one ∧ after' = after := by
  induction lines generalizing lines' reader state with
  | nil =>
    obtain rfl := List.map_eq_nil_iff.mp same
    cases read
    cases read'
    exact ⟨rfl, rfl⟩
  | cons line rest ih =>
    obtain ⟨line', rest', rfl, first, others⟩ := List.map_eq_cons_iff.mp same
    rw [List.foldlM_cons] at read read'
    obtain ⟨middle, world, begun, read⟩ := exists_of_bind_eq_ok read
    obtain ⟨middle', world', begun', read'⟩ := exists_of_bind_eq_ok read'
    have agree : middle' = middle ∧ world' = world := by
      obtain rfl | ⟨sides, sides', assigns, assigns'⟩ := Line.visible_cases first
      · cases begun.symm.trans begun'
        exact ⟨rfl, rfl⟩
      · have closes : Ends _ _ (readLine nested source active file reader line state) :=
          ends_readLine_overridden locked assigns (free line (.head _)) active file state
        have closes' : Ends _ _ (readLine nested source active file reader line' state) :=
          ends_readLine_overridden locked assigns' (free' line' (.head _)) active file state
        obtain ⟨closed, still⟩ := (begun ▸ closes).of_ok
        obtain ⟨closed', still'⟩ := (begun' ▸ closes').of_ok
        exact ⟨Except.ok.inj (closed'.symm.trans closed), still'.trans still.symm⟩
    obtain ⟨rfl, rfl⟩ := agree
    have keeping : Ends _ _ (readLine nested source active file reader line state) :=
      ends_readLine_keeps keeps active file reader line state
    have kept := (begun ▸ keeping).of_ok
    exact ih others (fun line member => free line (.tail _ member))
      (fun line member => free' line (.tail _ member)) (kept.locked.trans locked) read read'

theorem exists_readText {bindings : Bindings} {file text : String} {state after : σ}
    {ruleSet : RuleSet} (read : ofText source bindings file text state = .ok ruleSet after) :
    ∃ reader, readText source (source.nestingLimit state + 1) [] file text { bindings } state =
      .ok reader after ∧ ruleSet = reader.ruleSet := by
  have made : (readText source (source.nestingLimit state + 1) [] file text { bindings } >>=
      fun reader => pure reader.ruleSet) state = .ok ruleSet after := read
  obtain ⟨reader, world, lines, last⟩ := exists_of_bind_eq_ok made
  cases last
  exact ⟨reader, lines, rfl⟩

/-- A text has been read when all of its lines have been read and the last rule has ended. -/
theorem exists_readLines {depth : Nat} {active : List String} {file text : String}
    {reader closed : Reader} {state after : σ}
    (read : readText source (depth + 1) active file text reader state = .ok closed after) :
    ∃ last, (logicalLines text).foldlM (readLine (readText source depth) source active file) reader
        state = .ok last after ∧ last.close = .ok closed := by
  obtain ⟨last, world, lines, closes⟩ := exists_of_bind_eq_ok read
  cases made : last.close with
  | error error =>
    rw [made] at closes
    cases closes
  | ok found =>
    rw [made] at closes
    cases closes
    exact ⟨last, lines, made⟩

/-- **What a rule file assigns to overridden variables does not matter**: if two texts say the same
in the same lines, apart from values that they assign to such variables and that ask for no
commands, and both can be read, then they declare the same rules at the same places, give the
variables the same values, and leave the same state behind; and every overridden variable has the
words of its override. -/
theorem ofText_overridden {environ overrides : Environment} (distinct : overrides.keys.Nodup)
    {file text text' : String}
    (same : (logicalLines text').map (Line.visible overrides.keys) =
      (logicalLines text).map (Line.visible overrides.keys))
    (free : ∀ line ∈ logicalLines text, line.Free overrides.keys)
    (free' : ∀ line ∈ logicalLines text', line.Free overrides.keys)
    {state after after' : σ} {one two : RuleSet}
    (read : ofText source (.ofEnvironment environ overrides) file text state = .ok one after)
    (read' : ofText source (.ofEnvironment environ overrides) file text' state =
      .ok two after') :
    two = one ∧ after' = after ∧ ∀ name value, overrides.get? name = some value →
      one.values.get? name = some (Text.words value) := by
  obtain ⟨closed, whole, rfl⟩ := exists_readText read
  obtain ⟨closed', whole', rfl⟩ := exists_readText read'
  obtain ⟨last, lines, closes⟩ := exists_readLines whole
  obtain ⟨last', lines', closes'⟩ := exists_readLines whole'
  have keeps := ends_readText_keeps source (source.nestingLimit state)
  obtain ⟨rfl, rfl⟩ := readLines_agree keeps same free free' rfl lines lines'
  obtain rfl := Except.ok.inj (closes'.symm.trans closes)
  refine ⟨rfl, rfl, fun name value given => ?_⟩
  have keeping : Ends _ _ (readText source (source.nestingLimit state + 1) [] file text
      { bindings := .ofEnvironment environ overrides } state) :=
    ends_readText_keeps source _ [] file text _ state
  have kept := (whole ▸ keeping).of_ok
  have known : name ∈ overrides.keys := Table.contains_iff.mp (by rw [Table.contains, given]; rfl)
  exact (kept.values name known).trans (Bindings.get?_ofEnvironment environ distinct given)

end Overriding

/-- A rule file that begins with a given line, and includes one that sets the compiler. -/
def compilerFile (line : String) : String :=
  line ++ "\n<defs.mk\nF=$CC -c\nmain.o: $F.c\n\t$CC main.c\n"

/-- Two texts give the compiler different values, which the command line overrides; the file that
both include gives it a third one. -/
theorem ofText_overridden_definitions : ∃ one two,
    ofText definitionsSource (.ofEnvironment [("CC", "tcc")] [("CC", "gcc -g")]) "mkfile"
      (compilerFile "CC=cc # default") () = .ok one () ∧
    ofText definitionsSource (.ofEnvironment [("CC", "tcc")] [("CC", "gcc -g")]) "mkfile"
      (compilerFile "CC='clang#' $F") () = .ok two () ∧
    two = one ∧ one.values.get? "CC" = some ["gcc", "-g"] := by
  have distinct : (Table.keys [("CC", "gcc -g")]).Nodup := by decide
  have same : (logicalLines (compilerFile "CC='clang#' $F")).map
        (Line.visible (Table.keys [("CC", "gcc -g")])) =
      (logicalLines (compilerFile "CC=cc # default")).map
        (Line.visible (Table.keys [("CC", "gcc -g")])) := by
    decide +kernel
  have free : ∀ line ∈ logicalLines (compilerFile "CC=cc # default"),
      line.Free (Table.keys [("CC", "gcc -g")]) := by
    decide +kernel
  have free' : ∀ line ∈ logicalLines (compilerFile "CC='clang#' $F"),
      line.Free (Table.keys [("CC", "gcc -g")]) := by
    decide +kernel
  obtain ⟨one, read⟩ : ∃ one, ofText definitionsSource
      (.ofEnvironment [("CC", "tcc")] [("CC", "gcc -g")]) "mkfile"
      (compilerFile "CC=cc # default") () = .ok one () := ⟨_, rfl⟩
  obtain ⟨two, read'⟩ : ∃ two, ofText definitionsSource
      (.ofEnvironment [("CC", "tcc")] [("CC", "gcc -g")]) "mkfile"
      (compilerFile "CC='clang#' $F") () = .ok two () := ⟨_, rfl⟩
  obtain ⟨agree, -, given⟩ := ofText_overridden distinct same free free' read read'
  exact ⟨one, two, read, read', agree, given "CC" "gcc -g" rfl⟩

end RuleFile

end BuildSystem
