/-
**Rule files include each other only so deep.**

* `Source.FilesAmong` — finitely many files can be read; `Point.Silent` — no output of a command is
  included.
* `Point.seen_malformed`, `Point.seen_other` — what include directives around a failure change.
* `Point.Full`, `Point.read_roomy` — more room for nested texts changes nothing, unless reading comes
  to a text for which there was none.
* `Point.Within`, `Point.Reaches.within` — the files that are being read are different ones among
  those that can be read, and there is room for the others.
* `Point.Breaks` — what ends reading without an error of a rule file: a regular expression that is
  too large, or a file that is not found or holds no text.
* `ofText_nests` — reading ends, with a rule set, an error of a rule file, or for such a reason; the
  files that are being read are different ones; and a directive that leads back to one of them is an
  error.
* `filesAmong_world`, `length_le_nestingLimit_world`, `answers_world` — a world in memory has
  finitely many files and leaves room for all of them, and its commands return.
-/

import BuildSystem.Proofs.FileNames
import BuildSystem.Proofs.Files
import BuildSystem.Proofs.RuleFile.Points
import Mathlib.Data.List.Nodup
import Mathlib.Data.List.Perm.Subperm

namespace BuildSystem.RuleFile

variable {σ : Type} {source : Source σ}

/-- **Finitely many files can be read**: in usual states, each of them has one of the given absolute
names. -/
def Source.FilesAmong (source : Source σ) (usual : σ → Prop) (files : List String) : Prop :=
  ∀ path state name text, usual state → source.resolve path state = .ok name →
    source.text path state = .ok text → name ∈ files

namespace Point

variable {point inner last : Point σ} {line : Line} {rest : List Line} {reader : Reader}
  {failure : Failure} {state after : σ} {directives more : List Directive} {files : List String}
  {usual : σ → Prop} {raised : Failure → Prop}

/-! ### What include directives change -/

/-- An error of a rule file keeps its message. -/
theorem seen_malformed (directives : List Directive) (message file : String) (line : Int) :
    ∃ file' line', seen directives (.build (.malformedRuleFile message file line)) =
      .build (.malformedRuleFile message file' line') := by
  induction directives with
  | nil => exact ⟨file, line, rfl⟩
  | cons directive others ih =>
    obtain ⟨file', line', same⟩ := ih
    show ∃ file line, directive.moved (seen others _) = _
    rw [same, Directive.moved]
    split
    · exact ⟨_, _, rfl⟩
    · exact ⟨file', line', rfl⟩

/-- Other failures stay as they are. -/
theorem seen_other (directives : List Directive)
    (other : ∀ message file line, failure ≠ .build (.malformedRuleFile message file line)) :
    seen directives failure = failure := by
  induction directives with
  | nil => rfl
  | cons directive others ih =>
    show directive.moved (seen others failure) = failure
    rw [ih, directive.moved_other other]

/-! ### Room for nested texts -/

/-- Room around a nested text is room in it. -/
theorem nested_roomy (point : Point σ) (depth : Nat) (active : List String) (file text : String)
    (reader : Reader) (state : σ) :
    (point.nested active file text reader state).roomy (depth - 1) =
      (point.roomy depth).nested active file text reader state :=
  rfl

theorem Opens.roomy (opens : point.Opens source directives inner) (depth : Nat) :
    (point.roomy depth).Opens source directives (inner.roomy (depth - 1)) := by
  cases opens with
  | @file line rest path name text closed after begins includes finds readable =>
    have same : (point.roomy depth).rest = line :: rest := begins
    rw [nested_roomy]
    exact .file same includes finds readable
  | @output line rest command text closed middle after begins includes answers =>
    have same : (point.roomy depth).rest = line :: rest := begins
    rw [nested_roomy]
    exact .output same includes answers

/-- **Reading comes to a text for which there is no room.** -/
def Full (source : Source σ) (point : Point σ) : Prop :=
  ∃ directives last more inner, Reaches source point directives last ∧ last.depth = 0 ∧
    last.Opens source more inner

theorem Full.behind (begins : point.rest = line :: rest)
    (reads : point.line source line = .ok reader state)
    (full : (point.behind rest reader state).Full source) : point.Full source := by
  obtain ⟨directives, last, more, inner, reaches, none, opens⟩ := full
  exact ⟨directives, last, more, inner, .behind begins reads reaches, none, opens⟩

theorem Full.inside (room : 0 < point.depth) (opens : point.Opens source directives inner)
    (full : inner.Full source) : point.Full source := by
  obtain ⟨others, last, more, text, reaches, none, further⟩ := full
  exact ⟨directives ++ others, last, more, text, .inside room opens reaches, none, further⟩

/-- More room changes nothing, if there has been enough. -/
def Enough (source : Source σ) (point : Point σ) (depth : Nat) : Prop :=
  (point.roomy depth).read source = point.read source ∨ point.Full source

theorem line_roomy {depth : Nat} (room : point.depth ≤ depth) (begins : point.rest = line :: rest)
    (inside : ∀ {directives inner}, point.Opens source directives inner → 0 < point.depth →
      inner.Enough source (depth - 1)) :
    (point.roomy depth).line source line = point.line source line ∨ point.Full source := by
  rcases course (calm_somehow source point).output begins trivial with
    ⟨directives, inner, opens⟩ | ⟨result, same, -⟩
  · rcases Nat.eq_zero_or_pos point.depth with none | some
    · exact .inr ⟨[], point, directives, inner, .here point, none, opens⟩
    · obtain ⟨line', rest', begins', reads⟩ := opens.line_eq some
      cases begins.symm.trans begins'
      have deeper : 0 < (point.roomy depth).depth := Nat.lt_of_lt_of_le some room
      obtain ⟨line', rest', begins', reads'⟩ := (opens.roomy depth).line_eq deeper
      cases begins.symm.trans begins'
      rw [reads, reads']
      rcases inside opens some with same | full
      · exact .inl (congrArg (outcome directives) same)
      · exact .inr (full.inside some opens)
  · exact .inl ((same depth).trans (same point.depth).symm)

/-- **More room for nested texts changes nothing**, where there has been enough. -/
theorem read_roomy {depth : Nat} (room : point.depth ≤ depth) : point.Enough source depth := by
  induction point using induct source generalizing depth with
  | done point left =>
    have left' : (point.roomy depth).rest = [] := left
    refine .inl ?_
    rw [read_nil left, read_nil left']
    rfl
  | next point line rest left inside behind =>
    have left' : (point.roomy depth).rest = line :: rest := left
    have lines : (point.roomy depth).line source line = point.line source line ∨
        point.Full source := by
      refine line_roomy room left fun opens some => inside opens some ?_
      rw [opens.depth_eq]
      exact Nat.sub_le_sub_right room 1
    rcases lines with same | full
    · cases reads : point.line source line with
      | ok reader after =>
        have further : (point.behind rest reader after).Enough source depth := behind reads room
        rcases further with further | full
        · refine .inl ?_
          rw [read_of_line left reads, read_of_line left' (same.trans reads)]
          exact further
        · exact .inr (full.behind left reads)
      | error failure after =>
        refine .inl ?_
        rw [read_of_line_eq_error left reads, read_of_line_eq_error left' (same.trans reads)]
    · exact .inr full

/-! ### Files that are being read -/

/-- The next line does not include the output of a command. -/
def Mute (source : Source σ) (point : Point σ) : Prop :=
  ∀ {line rest command closed after}, point.rest = line :: rest →
    ¬ line.IncludesOutput source point.reader point.state command closed after

/-- **No output of a command is included** where reading comes to. -/
def Silent (source : Source σ) (point : Point σ) : Prop :=
  ∀ {directives last}, Reaches source point directives last → last.Mute source

theorem Silent.behind (silent : point.Silent source) (begins : point.rest = line :: rest)
    (reads : point.line source line = .ok reader state) :
    (point.behind rest reader state).Silent source :=
  fun further => silent (.behind begins reads further)

theorem Silent.inside (silent : point.Silent source) (room : 0 < point.depth)
    (opens : point.Opens source directives inner) : inner.Silent source :=
  fun further => silent (.inside room opens further)

/-- If no outputs are included, it is enough that the other commands keep the states usual. -/
theorem Silent.calm (silent : point.Silent source) (answers : source.Answers usual raised) :
    point.Calm source usual raised :=
  ⟨answers, fun reaches begins includes _ _ => absurd includes (silent reaches begins)⟩

/-- **No output is included if no text that can be read has a directive for one.** -/
theorem silent_of_texts (calm : point.Calm source usual raised)
    (meets : point.Meets (fun _ => True) usual)
    (texts : ∀ path state content, usual state → source.text path state = .ok content →
      ∀ line ∈ logicalLines (Text.unifyLineEnds content), line.pipes = false)
    (here : ∀ line ∈ point.rest, line.pipes = false) : point.Silent source := by
  have invariant : Reader.Invariant fun _ => True := fun _ _ _ => trivial
  have mute : ∀ {point : Point σ}, (∀ line ∈ point.rest, line.pipes = false) →
      point.Mute source := by
    intro point here line rest command closed after begins includes
    have none := here line (begins ▸ List.mem_cons_self)
    rw [includes.pipes] at none
    cases none
  intro directives last reaches
  refine mute ?_
  induction reaches with
  | here => exact here
  | @behind point last line rest reader state directives begins reads further ih =>
    obtain ⟨there, -, -⟩ := (Reaches.behind begins reads (.here _)).meets invariant calm meets
    exact ih (calm.behind begins reads) there fun line member =>
      here line (begins ▸ List.mem_cons_of_mem _ member)
  | @inside point inner last directives more room opens further ih =>
    refine ih (calm.inside room opens) (meets.inside invariant calm opens) ?_
    cases opens with
    | file begins includes finds readable =>
      rw [nested_rest]
      exact texts _ _ _ (includes.kept calm.output meets.state) readable
    | output begins includes answers => exact absurd includes (mute here begins)

/-- **The files that are being read are different ones among the given ones**, and there is room for
reading all others inside. -/
structure Within (files : List String) (point : Point σ) : Prop where
  nodup : point.active.Nodup
  among : point.active ⊆ files
  room : files.length ≤ point.depth + point.active.length

/-- No more files are being read than there are. -/
theorem Within.length_le (within : point.Within files) : point.active.length ≤ files.length :=
  (within.nodup.subperm within.among).length_le

/-- **An included file is another one**, and one more file is being read. -/
theorem Within.inside (within : point.Within files) (answers : source.Answers usual raised)
    (among : source.FilesAmong usual files) (mute : point.Mute source)
    (usually : usual point.state) (opens : point.Opens source directives inner) :
    inner.Within files ∧ inner.active.length = point.active.length + directives.length ∧
      0 < point.depth := by
  cases opens with
  | @output line rest command text closed middle after begins includes =>
    exact absurd includes (mute begins)
  | @file line rest path name text closed after begins includes finds readable =>
    have kept := includes.kept answers usually
    have nodup : (point.active ++ [name]).Nodup :=
      List.nodup_append.mpr ⟨within.nodup, List.nodup_singleton _, by
        rintro other busy _ single rfl
        exact finds.idle (List.mem_singleton.mp single ▸ busy)⟩
    have known : name ∈ files := among path after name text kept finds.resolved readable
    have subset : point.active ++ [name] ⊆ files :=
      List.append_subset.mpr ⟨within.among, List.cons_subset.mpr ⟨known, List.nil_subset files⟩⟩
    have bound := (nodup.subperm subset).length_le
    have room := within.room
    rw [List.length_append, List.length_singleton] at bound
    have longer : files.length ≤
        point.depth - 1 + (point.active ++ [name]).length := by
      rw [List.length_append, List.length_singleton]
      omega
    exact ⟨⟨nodup, subset, longer⟩, List.length_append, by omega⟩

/-- **Wherever reading comes to, the files that are being read are different ones**, one for each
include directive around. -/
theorem Reaches.within (reaches : Reaches source point directives last)
    (answers : source.Answers usual raised) (among : source.FilesAmong usual files)
    (silent : point.Silent source) (meets : point.Meets (fun _ => True) usual)
    (within : point.Within files) :
    last.Within files ∧ last.active.length = point.active.length + directives.length := by
  have invariant : Reader.Invariant fun _ => True := fun _ _ _ => trivial
  induction reaches with
  | here => exact ⟨within, rfl⟩
  | @behind point last line rest reader state directives begins reads further ih =>
    obtain ⟨there, -, -⟩ := (Reaches.behind begins reads (.here _)).meets invariant
      (silent.calm answers) meets
    exact ih (silent.behind begins reads) there ⟨within.nodup, within.among, within.room⟩
  | @inside point inner last directives more room opens further ih =>
    obtain ⟨inside, longer, -⟩ :=
      within.inside answers among (silent (.here point)) meets.state opens
    obtain ⟨deep, length⟩ := ih (silent.inside room opens)
      (meets.inside invariant (silent.calm answers) opens) inside
    refine ⟨deep, ?_⟩
    rw [length, longer, List.length_append, Nat.add_assoc]

/-- **What ends reading at a point without an error of a rule file**, if commands return and outputs
are not included. -/
inductive Breaks (source : Source σ) (point : Point σ) : Failure → σ → Prop
  /-- A regular expression of the header above is too large. -/
  | tooLarge {header : Header} {failure : Failure} {after : σ}
      (current : point.reader.header = some header) (large : header.TooLarge failure) :
      Breaks source point failure after
  /-- The next line includes a file, and its name cannot be resolved, or it holds no text. -/
  | lost {path : String} {failure : Failure} {after : σ}
      (includes : point.IncludesFile source path after)
      (fails : source.Fails point.active path after failure) : Breaks source point failure after

/-- **Where reading stops with a failure that is no error of a rule file**, there is such a reason. -/
theorem Stops.breaks (within : point.Within files)
    (answers : source.Answers usual fun _ => False) (among : source.FilesAmong usual files)
    (mute : point.Mute source) (usually : usual point.state)
    (stops : point.Stops source (fun _ => False) failure after)
    (other : ∀ message file line, failure ≠ .build (.malformedRuleFile message file line)) :
    point.Breaks source failure after := by
  have undeclared : point.reader.close = .error failure → point.Breaks source failure after := by
    intro fails
    obtain ⟨header, current, declares⟩ := point.reader.exists_of_close_eq_error fails
    rcases Header.rules_eq_error declares with ⟨message, rfl⟩ | large
    · exact absurd rfl (other message _ _)
    · exact .tooLarge current large
  cases stops with
  | undeclared done fails => exact undeclared fails
  | unread begins idle fails =>
    rcases fails with (⟨message, rfl⟩ | impossible) | closes
    · exact absurd rfl (other message _ _)
    · exact impossible.elim
    · exact undeclared closes
  | @refused line rest path message closed after begins includes refuses =>
    obtain ⟨file, line', same⟩ :=
      seen_malformed [⟨⟨point.file, line.number⟩, path⟩] message (FileName.shown path) 0
    exact absurd same (other message file line')
  | @lost line rest path closed cause after begins includes fails =>
    have plain : ∀ message file line, cause ≠ .build (.malformedRuleFile message file line) := by
      rintro message file number rfl
      obtain ⟨file', number', same⟩ :=
        seen_malformed [⟨⟨point.file, line.number⟩, path⟩] message file number
      exact other message file' number' same
    rw [Directive.moved_other _ plain]
    exact .lost ⟨line, rest, closed, begins, includes⟩ fails
  | failed begins includes => exact absurd includes (mute begins)
  | tooDeep full opens =>
    obtain ⟨-, -, room⟩ := within.inside answers among mute usually opens
    omega

/-- How reading ends if commands return and outputs are not included. -/
abbrev EndsWell (source : Source σ) (point : Point σ) : EStateM.Result Failure σ Reader → Prop :=
  Ends (fun _ _ => True) fun failure after =>
    (∃ message file line, failure = .build (.malformedRuleFile message file line)) ∨
      ∃ directives last, Reaches source point directives last ∧ last.Breaks source failure after

theorem ends_well (answers : source.Answers usual fun _ => False)
    (among : source.FilesAmong usual files) (silent : point.Silent source)
    (meets : point.Meets (fun _ => True) usual) (within : point.Within files) :
    point.EndsWell source (point.read source) := by
  have invariant : Reader.Invariant fun _ => True := fun _ _ _ => trivial
  refine (ends_read invariant (silent.calm answers) meets).mono (fun _ _ _ => trivial) ?_
  rintro _ after ⟨directives, last, cause, reaches, stops, rfl⟩
  obtain ⟨there, -, -⟩ := reaches.meets invariant (silent.calm answers) meets
  have inside := (reaches.within answers among silent meets within).1
  by_cases malformed : ∃ message file line, cause = .build (.malformedRuleFile message file line)
  · obtain ⟨message, file, line, rfl⟩ := malformed
    obtain ⟨file', line', same⟩ := seen_malformed directives message file line
    exact .inl ⟨message, file', line', same⟩
  · have other : ∀ message file line, cause ≠ .build (.malformedRuleFile message file line) :=
      fun message file line same => malformed ⟨message, file, line, same⟩
    rw [seen_other directives other]
    exact .inr ⟨directives, last, reaches,
      stops.breaks inside answers among (silent reaches) there.state other⟩

end Point

/-! ### Texts -/

section Texts

variable {bindings : Bindings} {file text : String} {state : σ} {files : List String}
  {usual : σ → Prop}

/-- **Reading a text ends, and rule files include each other only so deep.** -/
structure Nests (source : Source σ) (bindings : Bindings) (file text : String) (state : σ)
    (files : List String) : Prop where
  /-- There is a rule set, or an error of a rule file, or reading comes to a header that is too large
  or to a file that is not found or holds no text. -/
  ends : (∃ ruleSet after, ofText source bindings file text state = .ok ruleSet after) ∨
    (∃ message name line after, ofText source bindings file text state =
      .error (.build (.malformedRuleFile message name line)) after) ∨
    ∃ directives point failure after,
      (Point.start source bindings file text state).Reaches source directives point ∧
      point.Breaks source failure after ∧
      ofText source bindings file text state = .error failure after
  /-- More room for nested texts would change nothing. -/
  roomy : ∀ depth, source.nestingLimit state ≤ depth →
    readText source (depth + 1) [] file text { bindings } state =
      readText source (source.nestingLimit state + 1) [] file text { bindings } state
  /-- The files that are being read are different ones, one for each directive around. -/
  distinct : ∀ directives point,
    (Point.start source bindings file text state).Reaches source directives point →
    point.active.Nodup ∧ point.active ⊆ files ∧ point.active.length = directives.length ∧
      directives.length ≤ files.length
  /-- A directive that leads back to one of them is an error. -/
  recursive : ∀ directives point path name after,
    (Point.start source bindings file text state).Reaches source directives point →
    point.IncludesFile source path after → source.resolve path after = .ok name →
    name ∈ point.active →
    ∃ shown number, ofText source bindings file text state =
      .error (.build (.malformedRuleFile ("recursive include: " ++
        Text.join " -> " (point.active ++ [name])) shown number)) after

/-- **File inclusion ends**: if finitely many files can be read, commands return, and no output of a
command is included, then reading a text ends, with a rule set, with an error of a rule file, with
a header that is too large, or with the failure of finding an included file or decoding its text;
the files that are being read are different ones, so that there are never more than can be read, and
a directive that leads back to one of them is an error. -/
theorem ofText_nests (answers : source.Answers usual fun _ => False)
    (among : source.FilesAmong usual files) (usually : usual state)
    (room : files.length ≤ source.nestingLimit state)
    (silent : (Point.start source bindings file text state).Silent source) :
    Nests source bindings file text state files := by
  have invariant : Reader.Invariant fun _ => True := fun _ _ _ => trivial
  have calm := silent.calm answers
  have meets : (Point.start source bindings file text state).Meets (fun _ => True) usual :=
    Point.meets_start source trivial usually file text
  have within : (Point.start source bindings file text state).Within files :=
    ⟨List.nodup_nil, List.nil_subset files, room⟩
  have ends := Point.ends_well answers among silent meets within
  refine ⟨?_, fun depth more => ?_, fun directives point reaches => ?_, ?_⟩
  · cases result : ofText source bindings file text state with
    | ok ruleSet after => exact .inl ⟨ruleSet, after, rfl⟩
    | error failure after =>
      rw [Point.ofText_eq_error_iff.mp result] at ends
      rcases ends.of_error with ⟨message, name, line, rfl⟩ | ⟨directives, point, reaches, breaks⟩
      · exact .inr (.inl ⟨message, name, line, after, rfl⟩)
      · exact .inr (.inr ⟨directives, point, failure, after, reaches, breaks, rfl⟩)
  · have enough : (Point.start source bindings file text state).Enough source depth :=
      Point.read_roomy more
    rcases enough with same | ⟨directives, last, more, inner, reaches, none, opens⟩
    · exact same
    · obtain ⟨there, -, -⟩ := reaches.meets invariant calm meets
      have inside := (reaches.within answers among silent meets within).1
      obtain ⟨-, -, room⟩ := inside.inside answers among (silent reaches) there.state opens
      omega
  · obtain ⟨there, length⟩ := reaches.within answers among silent meets within
    have length : point.active.length = directives.length := length.trans (Nat.zero_add _)
    exact ⟨there.nodup, there.among, length, length ▸ there.length_le⟩
  · rintro directives point path name after reaches ⟨line, rest, closed, begins, includes⟩ resolved
      again
    have stops : point.Stops source (fun _ => True) _ after :=
      .refused begins includes (.busy resolved again)
    have fails := Point.ofText_eq_error_iff.mpr (reaches.read_eq_error stops.read_eq_error)
    obtain ⟨shown, number, same⟩ := Point.seen_malformed
      (directives ++ [⟨⟨point.file, line.number⟩, path⟩])
      ("recursive include: " ++ Text.join " -> " (point.active ++ [name])) (FileName.shown path) 0
    rw [Point.seen_append] at same
    exact ⟨shown, number, fails.trans (congrArg (EStateM.Result.error · after) same)⟩

end Texts

/-! ### Worlds in memory -/

section Worlds

variable {world : World} {shell : List String}

/-- A later world has the same files, and its commands do the same. -/
def SameFiles (world later : World) : Prop :=
  later.files = world.files ∧ later.programs = world.programs ∧ later.script = world.script

/-- What can be read is the text of a file of the world. -/
theorem SameFiles.exists_file {later : World} (same : SameFiles world later) {path content : String}
    (readable : later.readText path = .ok content) :
    ∃ file, (FileName.canonical path, file) ∈ world.files ∧ file.text = content := by
  unfold World.readText World.file? at readable
  rw [same.1] at readable
  cases named : world.files.get? (FileName.canonical path) with
  | none =>
    rw [named] at readable
    cases readable
  | some file =>
    rw [named] at readable
    refine ⟨file, Table.mem_of_get? named, ?_⟩
    dsimp only at readable
    split at readable
    · cases readable
    · cases readable
    · exact Except.ok.inj readable

/-- **The files of a world that can be read are those that it has.** -/
theorem filesAmong_world (world : World) (shell : List String) :
    (Source.ofHost World.host shell).FilesAmong (SameFiles world)
      (world.files.keys.map (FileName.resolved ["work"])) := by
  intro path later name text same resolved readable
  obtain ⟨file, member, -⟩ := same.exists_file readable
  obtain rfl : FileName.resolved ["work"] path = name := Except.ok.inj resolved
  rw [← FileName.resolved_canonical]
  exact List.mem_map_of_mem (List.mem_map_of_mem member)

/-- A world leaves room for reading all of its files inside each other. -/
theorem length_le_nestingLimit_world (world : World) (shell : List String) :
    (world.files.keys.map (FileName.resolved ["work"])).length ≤
      (Source.ofHost World.host shell).nestingLimit world := by
  rw [List.length_map, Table.keys, List.length_map]
  exact Nat.le_add_right _ _

section Commands

variable (there : world.programs.contains (shell.headD "") = true) (named : shell ≠ [])
  (idle : world.script.Idle)

include there named idle

/-- Where the shell exists and no command changes files or fails, commands return and leave the
files as they are. -/
theorem ends_run_idle (command : String) (environment : Environment) {later : World}
    (same : SameFiles world later) : Ends (fun _ after => SameFiles world after)
      (fun _ _ => False) (World.run (shell ++ ["-c", command]) environment later) := by
  obtain ⟨first, others, rfl⟩ := List.exists_cons_of_ne_nil named
  have program : later.programs.contains ((first :: others ++ ["-c", command]).headD "") =
      true := by
    rw [same.2.1]
    exact there
  rw [World.run_eq _ program, World.perform_idle (same.2.2 ▸ idle.effect _)]
  exact .ok same

/-- **Commands return**, and their outputs are given to the text. -/
theorem answers_world :
    (Source.ofHost World.host shell).Answers (SameFiles world) fun _ => False := by
  intro values command later same
  refine Ends.get (Ends.bind ?_)
  exact (ends_run_idle there named idle command _ same).mono (fun _ _ kept => .ok kept)
    fun _ _ impossible => impossible.elim

theorem calm_world (point : Point World) :
    point.Calm (Source.ofHost World.host shell) (SameFiles world) fun _ => False where
  output := answers_world there named idle
  included := by
    intro directives last line rest command closed middle text after _ _ _ same answers
    have ends : Ends (fun _ after => SameFiles world after) (fun _ _ => False)
        ((Source.ofHost World.host shell).included closed.bindings.values command middle) :=
      Ends.bind ((ends_run_idle there named idle command _ same).mono
        (fun _ _ kept => .ok kept) fun _ _ impossible => impossible)
    rw [answers] at ends
    exact ends.of_ok

/-- **No output is included if no file of the world has a directive for one.** -/
theorem silent_world {bindings : Bindings} {file text : String}
    (plain : ∀ line ∈ logicalLines text, line.pipes = false)
    (others : ∀ entry ∈ world.files,
      ∀ line ∈ logicalLines (Text.unifyLineEnds entry.2.text), line.pipes = false) :
    (Point.start (Source.ofHost World.host shell) bindings file text world).Silent
      (Source.ofHost World.host shell) := by
  have same : SameFiles world world := ⟨rfl, rfl, rfl⟩
  have meets : (Point.start (Source.ofHost World.host shell) bindings file text world).Meets
      (fun _ => True) (SameFiles world) := Point.meets_start _ trivial same file text
  have calm := calm_world there named idle
    (Point.start (Source.ofHost World.host shell) bindings file text world)
  have texts : ∀ path later content, SameFiles world later →
      (Source.ofHost World.host shell).text path later = .ok content →
      ∀ line ∈ logicalLines (Text.unifyLineEnds content), line.pipes = false := by
    intro path later content same readable
    obtain ⟨found, member, rfl⟩ := same.exists_file readable
    exact others (FileName.canonical path, found) member
  exact @Point.silent_of_texts _ _ _ _ _ calm meets texts plain

end Commands

end Worlds

/-! ### Files that include each other -/

/-- There are two files; the second one leads back to the first one, under another name, by a
variable that the first one sets. -/
def mutualWorld : World where
  files := [("rules.mk", { text := "D=.\n<defs.mk\n" }),
    ("defs.mk", { text := "all: main.o\n<$D/rules.mk\n" })]

theorem idle_mutual : mutualWorld.script.Idle :=
  ⟨nofun, nofun, rfl, rfl, rfl, rfl⟩

/-- Neither file includes the output of a command. -/
theorem silent_mutual {text : String} (plain : ∀ line ∈ logicalLines text, line.pipes = false) :
    (Point.start (Source.ofHost World.host ["sh"]) ⟨[], []⟩ "mkfile" text mutualWorld).Silent
      (Source.ofHost World.host ["sh"]) :=
  silent_world (by decide) (by decide) idle_mutual plain (by decide +kernel)

theorem ofText_nests_mutual :
    Nests (Source.ofHost World.host ["sh"]) ⟨[], []⟩ "mkfile" "<rules.mk\n" mutualWorld
      (mutualWorld.files.keys.map (FileName.resolved ["work"])) ∧
    ofText (Source.ofHost World.host ["sh"]) ⟨[], []⟩ "mkfile" "<rules.mk\n" mutualWorld =
      .error (.build (.malformedRuleFile
        "recursive include: /work/rules.mk -> /work/defs.mk -> /work/rules.mk" "mkfile" 1))
        mutualWorld :=
  ⟨ofText_nests (answers_world (by decide) (by decide) idle_mutual) (filesAmong_world _ _)
    ⟨rfl, rfl, rfl⟩ (length_le_nestingLimit_world _ _) (silent_mutual (by decide +kernel)), rfl⟩

/-- The failure with which a computation ends, if it fails. -/
def failure? {α : Type} : EStateM.Result Failure σ α → Option Failure
  | .ok _ _ => none
  | .error failure _ => some failure

/-- A file that holds no text ends reading with a failure of its own. -/
example : failure? (ofText (Source.ofHost World.host ["sh"]) ⟨[], []⟩ "mkfile" "<rules.mk\n"
      { files := [("rules.mk", { undecodable := some "invalid start byte" })] }) =
    some (.raised "UnicodeDecodeError" "invalid start byte") := rfl

/-- **Reading ends with a rule set or an error of a rule file.** -/
def EndsInRulesOrError (source : Source σ) (bindings : Bindings) (file text : String)
    (state : σ) : Prop :=
  (∃ ruleSet after, ofText source bindings file text state = .ok ruleSet after) ∨
    ∃ message name line after, ofText source bindings file text state =
      .error (.build (.malformedRuleFile message name line)) after

/-- A regular expression with a bound that is too large ends reading in another way, where no file
is included at all. -/
theorem not_endsInRulesOrError :
    (Source.ofHost World.host ["sh"]).Answers (SameFiles mutualWorld) (fun _ => False) ∧
    (Point.start (Source.ofHost World.host ["sh"]) ⟨[], []⟩ "mkfile"
      "a\x7b4294967295\x7d:R: b\n" mutualWorld).Silent (Source.ofHost World.host ["sh"]) ∧
    ¬ EndsInRulesOrError (Source.ofHost World.host ["sh"]) ⟨[], []⟩ "mkfile"
      "a\x7b4294967295\x7d:R: b\n" mutualWorld := by
  have fails : failure? (ofText (Source.ofHost World.host ["sh"]) ⟨[], []⟩ "mkfile"
      "a\x7b4294967295\x7d:R: b\n" mutualWorld) =
        some (.raised "OverflowError" "the repetition number is too large") := by
    decide +kernel
  refine ⟨answers_world (by decide) (by decide) idle_mutual, silent_mutual (by decide +kernel), ?_⟩
  rintro (⟨ruleSet, after, read⟩ | ⟨message, name, line, after, read⟩)
  · rw [read] at fails
    cases fails
  · rw [read] at fails
    cases fails

end BuildSystem.RuleFile
