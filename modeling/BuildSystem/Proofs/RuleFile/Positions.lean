/-
**Where the errors of a rule file stand.**

* `Failure.Unplaced` — an error of a rule file that names no line.
* `Reader.Placed` — headers stand at lines; every step keeps this.
* `Directive.unplaced_moved_iff`, `Point.unplaced_seen_iff` — an error without a line is given one
  by the include directives around it that spell the name of the file as the error does.
* `ofText_unplaced_iff` — an error without a line is that of a file that is refused where it is
  included, and that no directive on the way spells as the error does.
-/

import BuildSystem.Proofs.RuleFile.Inclusion
import BuildSystem.Proofs.RuleFile.Points

namespace BuildSystem

/-- **An error of a rule file that names no line.** -/
def Failure.Unplaced (failure : Failure) : Prop :=
  ∃ message file line, failure = .build (.malformedRuleFile message file line) ∧ line < 1

namespace RuleFile

/-- An error at a line names it. -/
theorem placed_malformed {location : Location} (numbered : 1 ≤ location.line) (message : String) :
    ¬ (malformed message location).Unplaced := by
  rintro ⟨_, _, _, same, before⟩
  cases same
  omega

/-! ### Directives -/

variable {directive : Directive} {directives : List Directive} {failure : Failure}

/-- Seen from a directive, only an error without a line has none. -/
theorem Directive.unplaced_of_moved (numbered : 1 ≤ directive.location.line)
    (unplaced : (directive.moved failure).Unplaced) : failure.Unplaced := by
  unfold moved at unplaced
  split at unplaced
  · split at unplaced
    · exact absurd unplaced (placed_malformed numbered _)
    · exact unplaced
  · exact unplaced

theorem Point.unplaced_of_seen (numbered : ∀ directive ∈ directives, 1 ≤ directive.location.line)
    (unplaced : (seen directives failure).Unplaced) : failure.Unplaced := by
  induction directives with
  | nil => exact unplaced
  | cons directive others ih =>
    rw [List.forall_mem_cons] at numbered
    exact ih numbered.2 (directive.unplaced_of_moved numbered.1 unplaced)

/-- An error about a file as a whole. -/
def fileError (message file : String) : Failure :=
  .build (.malformedRuleFile message file 0)

theorem unplaced_fileError (message file : String) : (fileError message file).Unplaced :=
  ⟨message, file, 0, rfl, by decide⟩

theorem Directive.moved_fileError_of_ne {message file : String} (other : directive.path ≠ file) :
    directive.moved (fileError message file) = fileError message file :=
  if_neg fun same => other same.1.symm

/-- **An error about a file as a whole** is seen without a line exactly from a directive that spells
the file's name in another way. -/
theorem Directive.unplaced_moved_iff (numbered : 1 ≤ directive.location.line)
    {message file : String} :
    (directive.moved (fileError message file)).Unplaced ↔ directive.path ≠ file := by
  constructor
  · rintro unplaced rfl
    have moved : directive.moved (fileError message directive.path) =
        malformed message directive.location := if_pos ⟨rfl, rfl⟩
    rw [moved] at unplaced
    exact placed_malformed numbered message unplaced
  · intro other
    rw [directive.moved_fileError_of_ne other]
    exact unplaced_fileError message file

/-- Directives that spell the file's name in another way leave the error as it is. -/
theorem Point.seen_fileError {message file : String}
    (others : ∀ directive ∈ directives, directive.path ≠ file) :
    seen directives (fileError message file) = fileError message file := by
  induction directives with
  | nil => rfl
  | cons directive rest ih =>
    rw [List.forall_mem_cons] at others
    show directive.moved (seen rest (fileError message file)) = _
    rw [ih others.2, directive.moved_fileError_of_ne others.1]

theorem Point.unplaced_seen_iff (numbered : ∀ directive ∈ directives, 1 ≤ directive.location.line)
    {message file : String} :
    (seen directives (fileError message file)).Unplaced ↔
      ∀ directive ∈ directives, directive.path ≠ file := by
  constructor
  · intro unplaced
    induction directives with
    | nil => exact fun _ member => nomatch member
    | cons directive rest ih =>
      rw [List.forall_mem_cons] at numbered ⊢
      have others := ih numbered.2 (directive.unplaced_of_moved numbered.1 unplaced)
      have unplaced : (directive.moved (seen rest (fileError message file))).Unplaced := unplaced
      rw [seen_fileError others, directive.unplaced_moved_iff numbered.1] at unplaced
      exact ⟨unplaced, others⟩
  · intro others
    rw [seen_fileError others]
    exact unplaced_fileError message file

/-! ### Headers -/

/-- The current header stands at a line that is numbered from one on. -/
def Reader.Placed (reader : Reader) : Prop :=
  ∀ header, reader.header = some header → 1 ≤ header.location.line

theorem Reader.Placed.of_close {reader closed : Reader} (placed : reader.Placed)
    (closes : reader.close = .ok closed) : closed.Placed := by
  unfold Reader.close at closes
  split at closes
  · exact Except.ok.inj closes ▸ placed
  · split at closes
    · obtain rfl := Except.ok.inj closes
      exact fun _ none => nomatch none
    · cases closes

/-- **Every step keeps it that headers stand at lines.** -/
theorem Reader.Placed.invariant : Reader.Invariant Placed := by
  intro location reader later numbered placed step
  cases step with
  | stays => exact placed
  | @recipe header text current =>
    rintro _ ⟨⟩
    exact placed header current
  | closes closes => exact placed.of_close closes
  | assigns closes name words => exact fun header current => placed.of_close closes header current
  | opens closes read =>
    rintro _ ⟨⟩
    rw [read.location]
    exact numbered

/-- A rule that cannot be declared is an error at a line, or a failure of another kind. -/
theorem Reader.Placed.close_eq_error {reader : Reader} (placed : reader.Placed)
    (fails : reader.close = .error failure) : ¬ failure.Unplaced := by
  obtain ⟨header, current, declares⟩ := reader.exists_of_close_eq_error fails
  rcases Header.rules_eq_error declares with ⟨message, rfl⟩ | ⟨_, _, kind, message, _, _, rfl⟩
  · exact placed_malformed (placed header current) message
  · rintro ⟨_, _, _, same, _⟩
    cases same

/-! ### Texts -/

section Texts

variable {σ : Type} {source : Source σ} {bindings : Bindings} {file text : String}
  {state after : σ} {failure : Failure}

/-- What commands raise is no error without a line, and neither is what finding a file or reading its
text raises, other than a refusal. -/
structure Source.RaisesPlaced (source : Source σ) : Prop where
  output : ∀ values command state, Ends (fun _ _ => True) (fun failure _ => ¬ failure.Unplaced)
    (source.output values command state)
  included : ∀ values command state, Ends (fun _ _ => True) (fun failure _ => ¬ failure.Unplaced)
    (source.included values command state)
  lost : ∀ active path state failure, source.Fails active path state failure → ¬ failure.Unplaced

theorem Source.RaisesPlaced.calm (raises : source.RaisesPlaced) (point : Point σ) :
    point.Calm source (fun _ => True) fun failure => ¬ failure.Unplaced where
  output values command state _ := raises.output values command state
  included _ _ _ _ _ := trivial

/-- **An error without a line is that of a file that is refused where it is included**, and it names
the file; the directive spells the name in another way. -/
theorem Point.Stops.unplaced {point : Point σ} (raises : source.RaisesPlaced)
    (meets : point.Meets Reader.Placed fun _ => True)
    (stops : point.Stops source (fun failure => ¬ failure.Unplaced) failure after)
    (unplaced : failure.Unplaced) : ∃ path message,
      point.IncludesFile source path after ∧ source.Refuses point.active path after message ∧
      FileName.shown path ≠ path ∧ failure = fileError message (FileName.shown path) := by
  have numbered : ∀ {line rest}, point.rest = line :: rest → 1 ≤ line.number :=
    fun begins => meets.numbered _ (begins ▸ List.mem_cons_self)
  cases stops with
  | undeclared done fails => exact absurd unplaced (meets.reader.close_eq_error fails)
  | unread begins idle fails =>
    rcases fails with (⟨message, rfl⟩ | raised) | closes
    · exact absurd unplaced (placed_malformed (numbered begins) message)
    · exact absurd unplaced raised
    · exact absurd unplaced (meets.reader.close_eq_error closes)
  | @refused line rest path message closed after begins includes refuses =>
    have other : path ≠ FileName.shown path :=
      (Directive.unplaced_moved_iff (numbered begins)).mp unplaced
    exact ⟨path, message, ⟨line, rest, closed, begins, includes⟩, refuses, other.symm,
      Directive.moved_fileError_of_ne other⟩
  | lost begins includes fails =>
    exact absurd (Directive.unplaced_of_moved (numbered begins) unplaced)
      (raises.lost _ _ _ _ fails)
  | @failed line rest command closed failure middle after begins includes fails =>
    have ends := raises.included closed.bindings.values command middle
    rw [fails] at ends
    exact absurd unplaced ends.of_error
  | tooDeep =>
    obtain ⟨_, _, _, same, _⟩ := unplaced
    cases same

/-- **Exactly such an error of a rule file has no line**: it is about a file that is refused where
it is included, because it is being read already or the system does not give it, and neither the
directive that includes it nor any directive around spells the name of the file as the error does,
with no empty components and no dots, apart from two leading slashes.  All other errors of rule
files have lines, which are numbered from one on; a file whose name cannot be resolved, or that
holds no text, ends reading with a failure that is no error of a rule file. -/
theorem ofText_unplaced_iff (raises : source.RaisesPlaced) :
    ofText source bindings file text state = .error failure after ∧ failure.Unplaced ↔
      ∃ directives point path message,
        (Point.start source bindings file text state).Reaches source directives point ∧
        point.IncludesFile source path after ∧ source.Refuses point.active path after message ∧
        FileName.shown path ≠ path ∧
        (∀ directive ∈ directives, directive.path ≠ FileName.shown path) ∧
        failure = fileError message (FileName.shown path) := by
  have meets : (Point.start source bindings file text state).Meets Reader.Placed fun _ => True :=
    Point.meets_start source (fun _ none => nomatch none) trivial file text
  constructor
  · rintro ⟨fails, unplaced⟩
    have ends := Point.ends_read Reader.Placed.invariant (raises.calm _) meets
    rw [Point.ofText_eq_error_iff.mp fails] at ends
    obtain ⟨directives, point, cause, reaches, stops, rfl⟩ := ends.of_error
    obtain ⟨there, -, numbered⟩ := reaches.meets Reader.Placed.invariant (raises.calm _) meets
    obtain ⟨path, message, includes, refuses, other, rfl⟩ :=
      stops.unplaced raises there (Point.unplaced_of_seen numbered unplaced)
    have others := (Point.unplaced_seen_iff numbered).mp unplaced
    exact ⟨directives, point, path, message, reaches, includes, refuses, other, others,
      Point.seen_fileError others⟩
  · rintro ⟨directives, point, path, message, reaches, ⟨line, rest, closed, begins, includes⟩,
      refuses, other, others, rfl⟩
    have other' : (⟨⟨point.file, line.number⟩, path⟩ : Directive).path ≠ FileName.shown path :=
      other.symm
    have stops : point.Stops source (fun _ => True) _ after := .refused begins includes refuses
    have fails := reaches.read_eq_error stops.read_eq_error
    rw [← fileError, Directive.moved_fileError_of_ne other', Point.seen_fileError others] at fails
    exact ⟨Point.ofText_eq_error_iff.mpr fails, unplaced_fileError _ _⟩

end Texts

theorem raisesPlaced_definitions : definitionsSource.RaisesPlaced where
  output _ _ _ := .ok trivial
  included _ _ _ := .error (by rintro ⟨_, _, _, same, _⟩; cases same)
  lost active path state failure fails := by
    cases fails with
    | unresolved fails => cases fails
    | undecoded finds fails =>
      unfold definitionsSource at fails
      dsimp only at fails
      split at fails
      · cases fails
      · cases fails

/-- A missing file in the directory itself, which the directive gives with a dot. -/
theorem ofText_unplaced_iff_missing :
    ofText definitionsSource ⟨[], []⟩ "mkfile" "<./missing.mk\n" () =
      .error (fileError "cannot read rule file: No such file or directory" "missing.mk") () ∧
    (fileError "cannot read rule file: No such file or directory" "missing.mk").Unplaced := by
  have includes : Line.IncludesFile ⟨1, .statement "<./missing.mk".toList⟩ definitionsSource
      { bindings := ⟨[], []⟩ } () "./missing.mk" { bindings := ⟨[], []⟩ } () :=
    ⟨"./missing.mk".toList,
      ⟨⟨"<./missing.mk".toList, "<./missing.mk".toList, rfl, rfl, by decide⟩, rfl⟩,
      by decide, rfl, by decide⟩
  have refuses : definitionsSource.Refuses [] "./missing.mk" ()
      ("cannot read rule file: " ++ "No such file or directory") :=
    .unreadable ⟨rfl, by decide⟩ rfl
  exact (ofText_unplaced_iff raisesPlaced_definitions).mpr
    ⟨[], _, "./missing.mk", _, .here _, ⟨_, [], _, rfl, includes⟩, refuses, by decide,
      (fun _ member => nomatch member), rfl⟩

/-- Two leading slashes are shown as they are written, so that the directive gives the error its
line; three of them mean the same as one. -/
example : ofText definitionsSource ⟨[], []⟩ "mkfile" "<//missing.mk\n" () =
      .error (malformed "cannot read rule file: No such file or directory" ⟨"mkfile", 1⟩) () ∧
    ofText definitionsSource ⟨[], []⟩ "mkfile" "<///missing.mk\n" () =
      .error (fileError "cannot read rule file: No such file or directory" "/missing.mk") () :=
  ⟨rfl, rfl⟩

/-- **Errors have places**: no error of a rule file is without a line. -/
def ErrorsPlaced {σ : Type} (source : Source σ) : Prop :=
  ∀ bindings file text state failure after,
    ofText source bindings file text state = .error failure after → ¬ failure.Unplaced

/-- The error about the missing file has no line. -/
theorem not_errorsPlaced : definitionsSource.RaisesPlaced ∧ ¬ ErrorsPlaced definitionsSource := by
  refine ⟨raisesPlaced_definitions, fun placed => ?_⟩
  have fails : ofText definitionsSource ⟨[], []⟩ "mkfile" "<./missing.mk\n" () =
      .error (fileError "cannot read rule file: No such file or directory" "missing.mk") () := rfl
  exact placed _ _ _ _ _ _ fails (unplaced_fileError _ _)

end RuleFile

end BuildSystem
