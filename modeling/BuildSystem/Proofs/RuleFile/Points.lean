/-
**The points that reading a text comes to.**

Reading comes to a line when the lines before it have been read; where a line includes something, it
comes to the lines of that text.

* `Point`, `Point.read` — a point in the reading of a text, and what is read from it on.
* `Source.Finds`, `Source.Refuses`, `Source.Fails` — a file that can be read where it is included,
  one that is refused, and one that is not found or not read for another reason.
* `Point.Opens` — the text that is read in the place of a line.
* `Point.induct` — induction on the room for nested texts and on the lines that are left.
* `Point.Reaches` — the points that reading comes to, with the include directives around them.
* `Point.Reaches.read_eq_error` — a failure at such a point ends all reading, seen from the
  directives around it.
* `Point.Stops`, `Point.Arises` — why reading fails at a point, and a failure that arises so at one
  that reading comes to.
* `Point.ends_read`, `Point.Reaches.meets` — what every step keeps holds at the end and at all points
  on the way, and every failure arises at such a point.
-/

import BuildSystem.Proofs.RuleFile.Steps

namespace BuildSystem.RuleFile

variable {σ : Type} {source : Source σ}

/-! ### Files -/

section Files

variable {nested : Nested σ} {active : List String} {path name message text : String}
  {reader : Reader} {state : σ} {failure : Failure}

/-- A path leads to a file that is not being read, with an absolute name. -/
structure Source.Finds (source : Source σ) (active : List String) (path : String) (state : σ)
    (name : String) : Prop where
  resolved : source.resolve path state = .ok name
  idle : name ∉ active

/-- **A file is refused**: it is being read already, or the system does not give its text. -/
inductive Source.Refuses (source : Source σ) (active : List String) (path : String) (state : σ) :
    String → Prop
  | busy {name : String} (resolved : source.resolve path state = .ok name) (again : name ∈ active) :
      Refuses source active path state
        ("recursive include: " ++ Text.join " -> " (active ++ [name]))
  | unreadable {name reason : String} (finds : source.Finds active path state name)
      (missing : source.text path state = .error (.refused reason)) :
      Refuses source active path state ("cannot read rule file: " ++ reason)

/-- **A file is not found, or not read, for a reason that is no error of a rule file**: its name
cannot be resolved, or it holds no text. -/
inductive Source.Fails (source : Source σ) (active : List String) (path : String) (state : σ) :
    Failure → Prop
  | unresolved {failure : Failure} (fails : source.resolve path state = .error failure) :
      Fails source active path state failure
  | undecoded {name : String} {failure : Failure} (finds : source.Finds active path state name)
      (fails : source.text path state = .error (.failed failure)) :
      Fails source active path state failure

/-- **A file can be read where it is included, or it is refused, or finding or reading it fails.** -/
theorem Source.cases (source : Source σ) (active : List String) (path : String) (state : σ) :
    (∃ name text, source.Finds active path state name ∧ source.text path state = .ok text) ∨
      (∃ message, source.Refuses active path state message) ∨
      ∃ failure, source.Fails active path state failure := by
  cases resolved : source.resolve path state with
  | error failure => exact .inr (.inr ⟨failure, .unresolved resolved⟩)
  | ok name =>
    by_cases again : name ∈ active
    · exact .inr (.inl ⟨_, .busy resolved again⟩)
    · have finds : source.Finds active path state name := ⟨resolved, again⟩
      rcases found : source.text path state with (reason | failure) | text
      · exact .inr (.inl ⟨_, .unreadable finds found⟩)
      · exact .inr (.inr ⟨failure, .undecoded finds found⟩)
      · exact .inl ⟨name, text, finds, rfl⟩

/-- A file that is found is read with its name among those that are being read. -/
theorem readFileWith_of_finds (finds : source.Finds active path state name) :
    readFileWith nested source active path reader state =
      match source.text path state with
      | .error (.refused reason) => .error
          (.build (.malformedRuleFile ("cannot read rule file: " ++ reason) (FileName.shown path) 0))
          state
      | .error (.failed failure) => .error failure state
      | .ok text => nested (active ++ [name]) (FileName.shown path) (Text.unifyLineEnds text) reader
          state := by
  refine (bind_eq_of_ok rfl).trans ?_
  refine (bind_eq_of_ok (accepted_eq_of_ok finds.resolved)).trans ?_
  refine (congrFun (if_neg fun busy => finds.idle (List.contains_iff_mem.mp busy)) state).trans ?_
  refine (bind_eq_of_ok rfl).trans ?_
  dsimp only
  rcases source.text path state with (_ | _) | _
  · rfl
  · rfl
  · rfl

/-- A file that is refused is an error about the file as a whole. -/
theorem readFileWith_of_refuses (refuses : source.Refuses active path state message) :
    readFileWith nested source active path reader state =
      .error (.build (.malformedRuleFile message (FileName.shown path) 0)) state := by
  cases refuses with
  | busy resolved again =>
    refine (bind_eq_of_ok rfl).trans ?_
    refine (bind_eq_of_ok (accepted_eq_of_ok resolved)).trans ?_
    exact congrFun (if_pos (List.contains_iff_mem.mpr again)) state
  | unreadable finds missing => rw [readFileWith_of_finds finds, missing]

/-- Other failures of a file end its reading as they are. -/
theorem readFileWith_of_fails (fails : source.Fails active path state failure) :
    readFileWith nested source active path reader state = .error failure state := by
  cases fails with
  | unresolved fails =>
    refine (bind_eq_of_ok rfl).trans ?_
    exact bind_eq_of_error (accepted_eq_of_error fails)
  | undecoded finds fails => rw [readFileWith_of_finds finds, fails]

/-- A file that is found and has a text is read. -/
theorem readFileWith_of_text (finds : source.Finds active path state name)
    (readable : source.text path state = .ok text) :
    readFileWith nested source active path reader state =
      nested (active ++ [name]) (FileName.shown path) (Text.unifyLineEnds text) reader state := by
  rw [readFileWith_of_finds finds, readable]

end Files

/-! ### Points -/

/-- **A point in the reading of a text**: how many texts may still be nested there, the absolute
names of the files that are being read, the name of the text, what has been read, the lines that are
left, and the state of the outside. -/
structure Point (σ : Type) where
  depth : Nat
  active : List String
  file : String
  reader : Reader
  rest : List Line
  state : σ

namespace Point

/-- Where the reading of a text begins. -/
def start (source : Source σ) (bindings : Bindings) (file text : String) (state : σ) : Point σ where
  depth := source.nestingLimit state
  active := []
  file := file
  reader := { bindings }
  rest := logicalLines text
  state := state

/-- What is read from a point on. -/
def read (source : Source σ) (point : Point σ) : EStateM.Result Failure σ Reader :=
  (point.rest.foldlM (readLine (readText source point.depth) source point.active point.file)
    point.reader >>= fun reader => accepted reader.close) point.state

/-- What a line does at a point. -/
def line (source : Source σ) (point : Point σ) (line : Line) : EStateM.Result Failure σ Reader :=
  readLine (readText source point.depth) source point.active point.file point.reader line
    point.state

/-- The point at which a text begins that is read inside. -/
def nested (point : Point σ) (active : List String) (file text : String) (reader : Reader)
    (state : σ) : Point σ :=
  { depth := point.depth - 1, active, file, reader, rest := logicalLines text, state }

/-- The same point with room for a given number of nested texts. -/
def roomy (point : Point σ) (depth : Nat) : Point σ :=
  { point with depth }

/-- The point behind a line. -/
def behind (point : Point σ) (rest : List Line) (reader : Reader) (state : σ) : Point σ :=
  { point with rest, reader, state }

variable {point inner last : Point σ} {line : Line} {rest : List Line} {reader : Reader}
  {failure : Failure} {state after : σ} {directives more : List Directive}

/-- A text that is read inside begins with its first line. -/
theorem nested_rest (point : Point σ) (active : List String) (file text : String)
    (reader : Reader) (state : σ) :
    (point.nested active file text reader state).rest = logicalLines text :=
  rfl

/-- Where there is room, a nested text is read from its first line on. -/
theorem readText_eq_read (room : 0 < point.depth) (source : Source σ) (active : List String)
    (file text : String) (reader : Reader) (state : σ) :
    readText source point.depth active file text reader state =
      (point.nested active file text reader state).read source := by
  obtain ⟨depth, deep⟩ : ∃ depth, point.depth = depth + 1 := ⟨point.depth - 1, by omega⟩
  unfold nested
  rw [deep]
  rfl

/-- The rule set of a text is what is read from its start on. -/
theorem ofText_eq (source : Source σ) (bindings : Bindings) (file text : String) (state : σ) :
    ofText source bindings file text state =
      match (start source bindings file text state).read source with
      | .ok reader after => .ok reader.ruleSet after
      | .error failure after => .error failure after := by
  show ((fun reader : Reader => reader.ruleSet) <$>
    readText source (source.nestingLimit state + 1) [] file text { bindings }) state = _
  rw [map_eq_pure_bind]
  cases result : (start source bindings file text state).read source with
  | ok reader after => exact bind_eq_of_ok result
  | error failure after => exact bind_eq_of_error result

/-- What a text gives is what has been read at its end. -/
theorem exists_read {bindings : Bindings} {file text : String} {ruleSet : RuleSet}
    (read : ofText source bindings file text state = .ok ruleSet after) :
    ∃ reader, (start source bindings file text state).read source = .ok reader after ∧
      ruleSet = reader.ruleSet := by
  rw [ofText_eq] at read
  split at read
  · next reader after whole =>
    cases read
    exact ⟨reader, whole, rfl⟩
  · cases read

/-- A text fails as reading it from its start on does. -/
theorem ofText_eq_error_iff {bindings : Bindings} {file text : String} :
    ofText source bindings file text state = .error failure after ↔
      (start source bindings file text state).read source = .error failure after := by
  rw [ofText_eq]
  cases (start source bindings file text state).read source with
  | ok reader world => exact ⟨nofun, nofun⟩
  | error found world =>
    constructor
    · rintro ⟨⟩
      rfl
    · rintro ⟨⟩
      rfl

theorem read_nil (done : point.rest = []) :
    point.read source = (accepted point.reader.close : Action σ Reader) point.state := by
  unfold read
  rw [done]
  rfl

/-- Where a line has been read, reading goes on behind it. -/
theorem read_of_line (begins : point.rest = line :: rest)
    (reads : point.line source line = .ok reader state) :
    point.read source = (point.behind rest reader state).read source := by
  unfold read
  rw [begins, List.foldlM_cons, bind_assoc]
  exact bind_eq_of_ok reads

theorem read_of_line_eq_error (begins : point.rest = line :: rest)
    (fails : point.line source line = .error failure after) :
    point.read source = .error failure after := by
  unfold read
  rw [begins, List.foldlM_cons, bind_assoc]
  exact bind_eq_of_error fails

/-! ### Texts that are read in the place of a line -/

/-- **The next line of a point includes a file**, whose name is given in a state. -/
def IncludesFile (source : Source σ) (point : Point σ) (path : String) (after : σ) : Prop :=
  ∃ line rest closed, point.rest = line :: rest ∧
    line.IncludesFile source point.reader point.state path closed after

/-- **The next line has another text read in its place**: that of a file, or the output of a
command. -/
inductive Opens (source : Source σ) (point : Point σ) : List Directive → Point σ → Prop
  | file {line : Line} {rest : List Line} {path name text : String} {closed : Reader} {after : σ}
      (begins : point.rest = line :: rest)
      (includes : line.IncludesFile source point.reader point.state path closed after)
      (finds : source.Finds point.active path after name)
      (readable : source.text path after = .ok text) :
      Opens source point [⟨⟨point.file, line.number⟩, path⟩]
        (point.nested (point.active ++ [name]) (FileName.shown path) (Text.unifyLineEnds text) closed
          after)
  | output {line : Line} {rest : List Line} {command text : String} {closed : Reader}
      {middle after : σ} (begins : point.rest = line :: rest)
      (includes : line.IncludesOutput source point.reader point.state command closed middle)
      (answers : source.included closed.bindings.values command middle = .ok text after) :
      Opens source point [] (point.nested point.active ("<|" ++ command) text closed after)

theorem Opens.depth_eq (opens : point.Opens source directives inner) :
    inner.depth = point.depth - 1 := by
  cases opens with
  | file => rfl
  | output => rfl

/-- **Induction along reading**: on the room for nested texts, and then on the lines that are left.
What is said of a point may be used of the text in the place of its next line, and of the point behind
that line. -/
@[elab_as_elim]
theorem induct (source : Source σ) {motive : Point σ → Prop}
    (done : ∀ point, point.rest = [] → motive point)
    (next : ∀ (point : Point σ) (line : Line) (rest : List Line), point.rest = line :: rest →
      (∀ {directives inner}, point.Opens source directives inner → 0 < point.depth →
        motive inner) →
      (∀ {reader state}, point.line source line = .ok reader state →
        motive (point.behind rest reader state)) → motive point)
    (point : Point σ) : motive point := by
  obtain ⟨depth, deep⟩ : ∃ depth, point.depth = depth := ⟨_, rfl⟩
  obtain ⟨lines, left⟩ : ∃ lines, point.rest = lines := ⟨_, rfl⟩
  induction depth using Nat.strongRecOn generalizing point lines with
  | ind depth inside =>
    induction lines generalizing point with
    | nil => exact done point left
    | cons line rest ih =>
      refine next point line rest left (fun opens room => ?_) fun reads => ih _ deep rfl
      have less := opens.depth_eq
      exact inside _ (by omega) _ rfl _ rfl

/-- A failure, seen from the include directives around it. -/
def seen (directives : List Directive) (failure : Failure) : Failure :=
  directives.foldr Directive.moved failure

/-- How reading ends, seen from the include directives around it. -/
def outcome (directives : List Directive) (result : EStateM.Result Failure σ Reader) :
    EStateM.Result Failure σ Reader :=
  directives.foldr Directive.outcome result

theorem outcome_nil (result : EStateM.Result Failure σ Reader) : outcome [] result = result :=
  rfl

theorem outcome_cons (directive : Directive) (others : List Directive)
    (result : EStateM.Result Failure σ Reader) :
    outcome (directive :: others) result = directive.outcome (outcome others result) :=
  rfl

theorem outcome_ok (directives : List Directive) (reader : Reader) (state : σ) :
    outcome directives (.ok reader state) = .ok reader state := by
  induction directives with
  | nil => rfl
  | cons directive others ih =>
    rw [outcome_cons, ih]
    rfl

theorem outcome_error (directives : List Directive) (failure : Failure) (state : σ) :
    outcome directives (.error failure state) = .error (seen directives failure) state := by
  induction directives with
  | nil => rfl
  | cons directive others ih =>
    rw [outcome_cons, ih]
    rfl

theorem seen_append (directives more : List Directive) (failure : Failure) :
    seen (directives ++ more) failure = seen directives (seen more failure) :=
  List.foldr_append

/-- **A line with a text in its place does what reading that text does**, if there is room for a
nested text. -/
theorem Opens.line_eq (opens : point.Opens source directives inner) (room : 0 < point.depth) :
    ∃ line rest, point.rest = line :: rest ∧
      point.line source line = outcome directives (inner.read source) := by
  cases opens with
  | @file line rest path name text closed after begins includes finds readable =>
    refine ⟨line, rest, begins, ?_⟩
    unfold Point.line
    rw [readLine_includesFile includes, readFileWith_of_text finds readable,
      readText_eq_read room, outcome_cons, outcome_nil]
  | @output line rest command text closed middle after begins includes answers =>
    refine ⟨line, rest, begins, ?_⟩
    unfold Point.line
    rw [readLine_includesOutput includes, bind_eq_of_ok answers, readText_eq_read room,
      outcome_nil]

/-- Without room for a nested text there is none. -/
theorem Opens.line_eq_error (opens : point.Opens source directives inner)
    (full : point.depth = 0) : ∃ line rest, point.rest = line :: rest ∧
      point.line source line = .error .nestedTooDeeply inner.state := by
  cases opens with
  | @file line rest path name text closed after begins includes finds readable =>
    refine ⟨line, rest, begins, ?_⟩
    unfold Point.line
    rw [readLine_includesFile includes, readFileWith_of_text finds readable, full]
    rfl
  | @output line rest command text closed middle after begins includes answers =>
    refine ⟨line, rest, begins, ?_⟩
    unfold Point.line
    rw [readLine_includesOutput includes, bind_eq_of_ok answers, full]
    rfl

/-! ### Where reading comes to -/

/-- **Reading from one point comes to another**: behind lines that have been read, and into texts
that are read in the place of a line.  The include directives around the second point are listed,
those further out first. -/
inductive Reaches (source : Source σ) : Point σ → List Directive → Point σ → Prop
  | here (point : Point σ) : Reaches source point [] point
  | behind {point last : Point σ} {line : Line} {rest : List Line} {reader : Reader} {state : σ}
      {directives : List Directive} (begins : point.rest = line :: rest)
      (reads : point.line source line = .ok reader state)
      (further : Reaches source (point.behind rest reader state) directives last) :
      Reaches source point directives last
  | inside {point inner last : Point σ} {directives more : List Directive}
      (room : 0 < point.depth) (opens : point.Opens source directives inner)
      (further : Reaches source inner more last) : Reaches source point (directives ++ more) last

/-- **A failure at a point ends all reading**, seen from the directives around it. -/
theorem Reaches.read_eq_error (reaches : Reaches source point directives last)
    (fails : last.read source = .error failure after) :
    point.read source = .error (seen directives failure) after := by
  induction reaches with
  | here => exact fails
  | behind begins reads further ih => rw [read_of_line begins reads, ih fails]
  | @inside point inner last directives more room opens further ih =>
    obtain ⟨line, rest, begins, reads⟩ := opens.line_eq room
    rw [ih fails, outcome_error, ← seen_append] at reads
    exact read_of_line_eq_error begins reads

/-- **Why reading stops at a point**, without another text in the place of its next line. -/
inductive Stops (source : Source σ) (raised : Failure → Prop) (point : Point σ) :
    Failure → σ → Prop
  /-- The last rule of the text cannot be declared. -/
  | undeclared {failure : Failure} (done : point.rest = [])
      (fails : point.reader.close = .error failure) : Stops source raised point failure point.state
  /-- The next line includes nothing, and it cannot be read. -/
  | unread {line : Line} {rest : List Line} {failure : Failure} {after : σ}
      (begins : point.rest = line :: rest)
      (idle : line.Idle source point.file point.reader point.state (.error failure after))
      (fails : failure.OfLine raised ⟨point.file, line.number⟩ ∨
        point.reader.close = .error failure) :
      Stops source raised point failure after
  /-- The next line includes a file, which is refused. -/
  | refused {line : Line} {rest : List Line} {path message : String} {closed : Reader} {after : σ}
      (begins : point.rest = line :: rest)
      (includes : line.IncludesFile source point.reader point.state path closed after)
      (refuses : source.Refuses point.active path after message) :
      Stops source raised point (Directive.moved ⟨⟨point.file, line.number⟩, path⟩
        (.build (.malformedRuleFile message (FileName.shown path) 0))) after
  /-- The next line includes a file, which is not found or not read for another reason. -/
  | lost {line : Line} {rest : List Line} {path : String} {closed : Reader} {failure : Failure}
      {after : σ} (begins : point.rest = line :: rest)
      (includes : line.IncludesFile source point.reader point.state path closed after)
      (fails : source.Fails point.active path after failure) :
      Stops source raised point (Directive.moved ⟨⟨point.file, line.number⟩, path⟩ failure) after
  /-- The next line includes the output of a command, which fails. -/
  | failed {line : Line} {rest : List Line} {command : String} {closed : Reader} {failure : Failure}
      {middle after : σ} (begins : point.rest = line :: rest)
      (includes : line.IncludesOutput source point.reader point.state command closed middle)
      (fails : source.included closed.bindings.values command middle = .error failure after) :
      Stops source raised point failure after
  /-- There is no room for the text in the place of the next line. -/
  | tooDeep {directives : List Directive} {inner : Point σ} (full : point.depth = 0)
      (opens : point.Opens source directives inner) :
      Stops source raised point .nestedTooDeeply inner.state

variable {usual : σ → Prop} {raised : Failure → Prop} {holds : Reader → Prop}

/-- A line that includes a file that is refused. -/
theorem line_refused {path message : String} {closed : Reader}
    (includes : line.IncludesFile source point.reader point.state path closed after)
    (refuses : source.Refuses point.active path after message) (depth : Nat) :
    (point.roomy depth).line source line = .error (Directive.moved ⟨⟨point.file, line.number⟩, path⟩
      (.build (.malformedRuleFile message (FileName.shown path) 0))) after := by
  have reads : (point.roomy depth).line source line = _ := readLine_includesFile includes
  rw [reads]
  exact congrArg (Directive.outcome _) (readFileWith_of_refuses refuses)

/-- A line that includes a file that is not found or not read. -/
theorem line_lost {path : String} {closed : Reader}
    (includes : line.IncludesFile source point.reader point.state path closed after)
    (fails : source.Fails point.active path after failure) (depth : Nat) :
    (point.roomy depth).line source line =
      .error (Directive.moved ⟨⟨point.file, line.number⟩, path⟩ failure) after := by
  have reads : (point.roomy depth).line source line = _ := readLine_includesFile includes
  rw [reads]
  exact congrArg (Directive.outcome _) (readFileWith_of_fails fails)

/-- A line that includes the output of a command that fails. -/
theorem line_failed {command : String} {closed : Reader} {middle : σ}
    (includes : line.IncludesOutput source point.reader point.state command closed middle)
    (fails : source.included closed.bindings.values command middle = .error failure after)
    (depth : Nat) : (point.roomy depth).line source line = .error failure after := by
  have reads : (point.roomy depth).line source line = _ := readLine_includesOutput includes
  rw [reads]
  exact bind_eq_of_error fails

/-- Where reading stops there is nothing else to be read. -/
theorem Stops.read_eq_error (stops : point.Stops source raised failure after) :
    point.read source = .error failure after := by
  cases stops with
  | undeclared done fails =>
    rw [read_nil done, fails]
    rfl
  | unread begins idle => exact read_of_line_eq_error begins (idle _ _)
  | refused begins includes refuses =>
    exact read_of_line_eq_error begins (line_refused includes refuses point.depth)
  | lost begins includes fails =>
    exact read_of_line_eq_error begins (line_lost includes fails point.depth)
  | failed begins includes fails =>
    exact read_of_line_eq_error begins (line_failed includes fails point.depth)
  | tooDeep full opens =>
    obtain ⟨line, rest, begins, fails⟩ := opens.line_eq_error full
    exact read_of_line_eq_error begins fails

/-- How a line ends that has no other text in its place: in a step, or with a failure, for a reason
that is found there. -/
abbrev EndsHere (source : Source σ) (usual : σ → Prop) (raised : Failure → Prop) (point : Point σ)
    (line : Line) : EStateM.Result Failure σ Reader → Prop :=
  Ends (fun later after => point.reader.Step ⟨point.file, line.number⟩ later ∧ usual after)
    (point.Stops source raised)

/-- **The next line has another text in its place, or it comes to something without one**, however
much room there is for nested texts. -/
theorem course (answers : source.Answers usual raised) (begins : point.rest = line :: rest)
    (start : usual point.state) : (∃ directives inner, point.Opens source directives inner) ∨
      ∃ result, (∀ depth, (point.roomy depth).line source line = result) ∧
        point.EndsHere source usual raised line result := by
  cases line.course answers point.file point.reader start with
  | @file path closed after includes =>
    rcases source.cases point.active path after with
      ⟨name, text, finds, readable⟩ | ⟨message, refuses⟩ | ⟨failure, fails⟩
    · exact .inl ⟨_, _, .file begins includes finds readable⟩
    · exact .inr ⟨_, line_refused includes refuses, .error (.refused begins includes refuses)⟩
    · exact .inr ⟨_, line_lost includes fails, .error (.lost begins includes fails)⟩
  | @output command closed middle includes =>
    cases answers : source.included closed.bindings.values command middle with
    | error failure after =>
      exact .inr ⟨_, line_failed includes answers, .error (.failed begins includes answers)⟩
    | ok text after => exact .inl ⟨_, _, .output begins includes answers⟩
  | @idle result idle ends =>
    refine .inr ⟨result, fun depth => idle _ _, ?_⟩
    cases ends with
    | ok step => exact .ok step
    | error fails => exact .error (.unread begins idle fails)

/-! ### What reading keeps -/

/-- **The states stay usual from a point on**: commands keep them so, with failures of a known kind,
and so do those commands whose outputs are included where reading comes to. -/
structure Calm (source : Source σ) (usual : σ → Prop) (raised : Failure → Prop)
    (point : Point σ) : Prop where
  output : source.Answers usual raised
  included : ∀ {directives last line rest command closed middle text after},
    Reaches source point directives last → last.rest = line :: rest →
    line.IncludesOutput source last.reader last.state command closed middle → usual middle →
    source.included closed.bindings.values command middle = .ok text after → usual after

theorem Calm.behind (calm : point.Calm source usual raised) (begins : point.rest = line :: rest)
    (reads : point.line source line = .ok reader state) :
    (point.behind rest reader state).Calm source usual raised :=
  ⟨calm.output, fun further => calm.included (.behind begins reads further)⟩

theorem Calm.inside (calm : point.Calm source usual raised) (room : 0 < point.depth)
    (opens : point.Opens source directives inner) : inner.Calm source usual raised :=
  ⟨calm.output, fun further => calm.included (.inside room opens further)⟩

/-- Of states that may be anything, and of failures that may be anything, nothing is asked. -/
theorem calm_somehow (source : Source σ) (point : Point σ) :
    point.Calm source (fun _ => True) fun _ => True where
  output _ _ _ _ := Ends.somehow _
  included _ _ _ _ _ := trivial

/-- A point has a property of what has been read, in a usual state, and its lines are numbered from
one on. -/
structure Meets (holds : Reader → Prop) (usual : σ → Prop) (point : Point σ) : Prop where
  reader : holds point.reader
  state : usual point.state
  numbered : ∀ line ∈ point.rest, 1 ≤ line.number

theorem meets_start (source : Source σ) {bindings : Bindings} (nothing : holds { bindings })
    (usually : usual state) (file text : String) :
    (start source bindings file text state).Meets holds usual where
  reader := nothing
  state := usually
  numbered _ member := one_le_number member

theorem Meets.behind (meets : point.Meets holds usual) (begins : point.rest = line :: rest)
    (kept : holds reader ∧ usual state) : (point.behind rest reader state).Meets holds usual where
  reader := kept.1
  state := kept.2
  numbered other member := meets.numbered other (begins ▸ List.mem_cons_of_mem line member)

/-- The rule before an include directive ends, and then the included text begins. -/
theorem Meets.inside (invariant : Reader.Invariant holds)
    (calm : point.Calm source usual raised) (meets : point.Meets holds usual)
    (opens : point.Opens source directives inner) : inner.Meets holds usual := by
  have closes : ∀ {line rest closed written}, point.rest = line :: rest →
      line.Directs point.reader closed written → holds closed := by
    intro line rest closed written begins directs
    have number : 1 ≤ line.number := meets.numbered line (begins ▸ List.mem_cons_self)
    have step : point.reader.Step ⟨point.file, line.number⟩ closed := .closes directs.closes
    exact invariant number meets.reader step
  cases opens with
  | file begins includes =>
    have kept := includes.kept calm.output meets.state
    obtain ⟨written, directs, -⟩ := includes
    exact ⟨closes begins directs, kept, fun _ member => one_le_number member⟩
  | output begins includes answers =>
    have kept := includes.kept calm.output meets.state
    have kept := calm.included (.here point) begins includes kept answers
    obtain ⟨written, directs, -⟩ := includes
    exact ⟨closes begins directs, kept, fun _ member => one_le_number member⟩

/-- **A failure arises at a point that reading comes to**, for a reason that is found there, and it
is seen from the directives around that point. -/
def Arises (source : Source σ) (raised : Failure → Prop) (point : Point σ) (failure : Failure)
    (after : σ) : Prop :=
  ∃ directives last cause, Reaches source point directives last ∧
    last.Stops source raised cause after ∧ failure = seen directives cause

theorem Arises.here (stops : point.Stops source raised failure after) :
    point.Arises source raised failure after :=
  ⟨[], point, failure, .here point, stops, rfl⟩

theorem Arises.behind (begins : point.rest = line :: rest)
    (reads : point.line source line = .ok reader state)
    (arises : (point.behind rest reader state).Arises source raised failure after) :
    point.Arises source raised failure after := by
  obtain ⟨directives, last, cause, reaches, stops, rfl⟩ := arises
  exact ⟨directives, last, cause, .behind begins reads reaches, stops, rfl⟩

theorem Arises.inside (room : 0 < point.depth) (opens : point.Opens source directives inner)
    (arises : inner.Arises source raised failure after) :
    point.Arises source raised (seen directives failure) after := by
  obtain ⟨more, last, cause, reaches, stops, rfl⟩ := arises
  exact ⟨directives ++ more, last, cause, .inside room opens reaches, stops,
    (seen_append directives more cause).symm⟩

/-- How reading ends: what has been read has a property, in a usual state, or there is a failure,
which arises at a point that reading comes to. -/
abbrev EndsKept (source : Source σ) (holds : Reader → Prop) (usual : σ → Prop)
    (raised : Failure → Prop) (point : Point σ) : EStateM.Result Failure σ Reader → Prop :=
  Ends (fun later after => holds later ∧ usual after) (point.Arises source raised)

theorem Opens.ends_line (opens : point.Opens source directives inner)
    (begins : point.rest = line :: rest)
    (inside : 0 < point.depth → EndsKept source holds usual raised inner (inner.read source)) :
    EndsKept source holds usual raised point (point.line source line) := by
  rcases Nat.eq_zero_or_pos point.depth with full | room
  · obtain ⟨line', rest', begins', fails⟩ := opens.line_eq_error full
    cases begins.symm.trans begins'
    rw [fails]
    exact .error (.here (.tooDeep full opens))
  · obtain ⟨line', rest', begins', reads⟩ := opens.line_eq room
    cases begins.symm.trans begins'
    rw [reads]
    have ends := inside room
    cases read : inner.read source with
    | ok later after =>
      rw [outcome_ok]
      exact .ok (read ▸ ends).of_ok
    | error failure after =>
      rw [outcome_error]
      exact .error (.inside room opens (read ▸ ends).of_error)

/-- **What a line keeps at a point**, if the texts that are read in its place keep it. -/
theorem ends_line (invariant : Reader.Invariant holds) (calm : point.Calm source usual raised)
    (meets : point.Meets holds usual) (begins : point.rest = line :: rest)
    (inside : ∀ {directives inner}, point.Opens source directives inner → 0 < point.depth →
      EndsKept source holds usual raised inner (inner.read source)) :
    EndsKept source holds usual raised point (point.line source line) := by
  rcases course calm.output begins meets.state with
    ⟨directives, inner, opens⟩ | ⟨result, same, ends⟩
  · exact opens.ends_line begins (inside opens)
  · have number : 1 ≤ line.number := meets.numbered line (begins ▸ List.mem_cons_self)
    rw [show point.line source line = result from same point.depth]
    exact ends.mono (fun _ _ step => ⟨invariant number meets.reader step.1, step.2⟩)
      fun _ _ stops => .here stops

/-- **What every step keeps, reading keeps**; and where reading fails, the failure arises at a point
that it comes to. -/
theorem ends_read (invariant : Reader.Invariant holds) (calm : point.Calm source usual raised)
    (meets : point.Meets holds usual) :
    EndsKept source holds usual raised point (point.read source) := by
  induction point using induct source with
  | done point left =>
    rw [read_nil left]
    cases closes : point.reader.close with
    | ok closed =>
      have step : point.reader.Step ⟨point.file, 1⟩ closed := .closes closes
      exact .ok ⟨invariant (Nat.le_refl 1) meets.reader step, meets.state⟩
    | error failure => exact .error (.here (.undeclared left closes))
  | next point line rest left inside behind =>
    have ends : EndsKept source holds usual raised point (point.line source line) :=
      ends_line invariant calm meets left fun opens room =>
        inside opens room (calm.inside room opens) (meets.inside invariant calm opens)
    cases reads : point.line source line with
    | ok reader after =>
      rw [reads] at ends
      rw [read_of_line left reads]
      exact (behind reads (calm.behind left reads) (meets.behind left ends.of_ok)).mono
        (fun _ _ kept => kept) fun _ _ arises => arises.behind left reads
    | error failure after =>
      rw [reads] at ends
      rw [read_of_line_eq_error left reads]
      exact .error ends.of_error

/-- **What every step keeps holds of what a text gives.** -/
theorem ofText_holds (invariant : Reader.Invariant holds) {bindings : Bindings}
    (nothing : holds { bindings }) {file text : String} {ruleSet : RuleSet}
    (read : ofText source bindings file text state = .ok ruleSet after) :
    ∃ reader, holds reader ∧ ruleSet = reader.ruleSet := by
  obtain ⟨reader, whole, rfl⟩ := exists_read read
  have meets : (start source bindings file text state).Meets holds fun _ => True :=
    meets_start source nothing trivial file text
  have ends := ends_read invariant (calm_somehow source _) meets
  rw [whole] at ends
  exact ⟨reader, ends.of_ok.1, rfl⟩

theorem Opens.one_le_line (opens : point.Opens source directives inner)
    (meets : point.Meets holds usual) : ∀ directive ∈ directives, 1 ≤ directive.location.line := by
  cases opens with
  | file begins =>
    intro directive member
    rw [List.mem_singleton.mp member]
    exact meets.numbered _ (begins ▸ List.mem_cons_self)
  | output => exact fun _ member => nomatch member

/-- **What every step keeps holds at all points that reading comes to**, and the directives around
such a point stand at lines that are numbered from one on. -/
theorem Reaches.meets (reaches : Reaches source point directives last)
    (invariant : Reader.Invariant holds) (calm : point.Calm source usual raised)
    (meets : point.Meets holds usual) :
    last.Meets holds usual ∧ last.Calm source usual raised ∧
      ∀ directive ∈ directives, 1 ≤ directive.location.line := by
  induction reaches with
  | here => exact ⟨meets, calm, fun _ member => nomatch member⟩
  | @behind point last line rest reader state directives begins reads further ih =>
    have ends : EndsKept source holds usual raised point (point.line source line) :=
      ends_line invariant calm meets begins fun opens room =>
        ends_read invariant (calm.inside room opens) (meets.inside invariant calm opens)
    rw [reads] at ends
    exact ih (calm.behind begins reads) (meets.behind begins ends.of_ok)
  | inside room opens further ih =>
    obtain ⟨there, quiet, placed⟩ :=
      ih (calm.inside room opens) (meets.inside invariant calm opens)
    refine ⟨there, quiet, fun directive member => ?_⟩
    rcases List.mem_append.mp member with outer | inner
    · exact opens.one_le_line meets directive outer
    · exact placed directive inner

end Point

end BuildSystem.RuleFile
