/-
**What headers declare.**

* `Header.regexRule_eq_ok`, `Header.stemRule?_eq_some`, `Header.rules_cases` — the rule of one
  target, and the kinds of rules that a header can declare.
* `Header.body_of_mem_rules` — all rules of a header have its prerequisites, its recipe, its
  attributes and its place.
* `Header.rules_eq_error` — why a header may declare no rules.
* `Header.ReadAt`, `ends_readHeader` — what is known of a header when its line has been read, and
  why it may not be read.
-/

import BuildSystem.Proofs.RuleFile.Places
import BuildSystem.Proofs.Variable.Effects
import Mathlib.Data.List.TakeDrop

namespace BuildSystem

/-- What a rule has in common with all others. -/
def Rule.body : Rule → RuleBody
  | .explicit rule => rule.toRuleBody
  | .pattern rule => rule.body

/-- A failure is an error of a line, or it is of a kind that commands raise. -/
def Failure.OfLine (raised : Failure → Prop) (location : Location) (failure : Failure) : Prop :=
  (∃ message, failure = RuleFile.malformed message location) ∨ raised failure

namespace RuleFile

/-! ### The rules of a header -/

/-- What is made from the members of a list is made from one of them. -/
theorem exists_of_mem_mapM {ε α β : Type} {make : α → Except ε β} {items : List α}
    {results : List β} (made : items.mapM make = .ok results) {result : β}
    (member : result ∈ results) : ∃ item ∈ items, make item = .ok result := by
  induction items generalizing results with
  | nil =>
    obtain rfl := Except.ok.inj made
    cases member
  | cons item rest ih =>
    rw [List.mapM_cons] at made
    cases first : make item with
    | error error =>
      rw [first] at made
      cases made
    | ok one =>
      rw [first] at made
      cases others : rest.mapM make with
      | error error =>
        rw [others] at made
        cases made
      | ok more =>
        rw [others] at made
        obtain rfl := Except.ok.inj made
        rcases List.mem_cons.mp member with rfl | later
        · exact ⟨item, List.mem_cons_self, first⟩
        · obtain ⟨other, among, makes⟩ := ih others later
          exact ⟨other, List.mem_cons_of_mem item among, makes⟩

/-- What fails for a list fails for one of its members. -/
theorem exists_of_mapM_eq_error {ε α β : Type} {make : α → Except ε β} {items : List α} {error : ε}
    (failed : items.mapM make = .error error) : ∃ item ∈ items, make item = .error error := by
  induction items with
  | nil => cases failed
  | cons item rest ih =>
    rw [List.mapM_cons] at failed
    cases first : make item with
    | error found =>
      rw [first] at failed
      cases failed
      exact ⟨item, List.mem_cons_self, first⟩
    | ok one =>
      rw [first] at failed
      cases others : rest.mapM make with
      | error found =>
        rw [others] at failed
        cases failed
        obtain ⟨other, among, fails⟩ := ih others
        exact ⟨other, List.mem_cons_of_mem item among, fails⟩
      | ok more =>
        rw [others] at failed
        cases failed

namespace Header

variable {header : Header} {rules : List Rule} {target : String} {rule : Rule}

/-- The rule of a target that is a regular expression. -/
theorem regexRule_eq_ok (made : header.regexRule target = .ok rule) :
    ∃ regex, rule = .pattern (.regex
      { header.body with target := target, regex := regex, allTargets := header.targets }) := by
  unfold regexRule at made
  split at made
  · next regex read => exact ⟨regex, (Except.ok.inj made).symm⟩
  · cases made
  · cases made

/-- **The rule of a target with a marker**: the first marker stands for the stem. -/
theorem stemRule?_eq_some (made : header.stemRule? target = some rule) :
    ∃ start marker finish, target.toList = start ++ marker :: finish ∧
      (∀ c ∈ start, isMarker c = false) ∧ isMarker marker = true ∧
      rule = .pattern (.stem
        { header.body with
          target := target
          start := String.ofList start
          finish := String.ofList finish
          marker := marker
          allowEmptyStem := header.traits.allowEmptyStem
          allTargets := header.targets }) := by
  unfold stemRule? at made
  rw [List.span_eq_takeWhile_dropWhile] at made
  have joined : target.toList.takeWhile (fun c => !isMarker c) ++
      target.toList.dropWhile (fun c => !isMarker c) = target.toList :=
    List.takeWhile_append_dropWhile
  cases behind : target.toList.dropWhile fun c => !isMarker c with
  | nil =>
    rw [behind] at made
    cases made
  | cons marker finish =>
    rw [behind] at made joined
    refine ⟨_, marker, finish, joined.symm, fun c member => ?_, ?_, (Option.some.inj made).symm⟩
    · simpa using List.all_eq_true.mp List.all_takeWhile c member
    · have first := List.head?_dropWhile_not (fun c => !isMarker c) target.toList
      rw [behind] at first
      simpa using first

/-- The rules of a header are of one kind. -/
theorem rules_cases (made : header.rules = .ok rules) (member : rule ∈ rules) :
    (∃ target ∈ header.targets, header.traits.regex = true ∧
      header.regexRule target = .ok rule) ∨
    (∃ target ∈ header.targets, header.stemRule? target = some rule) ∨
    rule = .explicit { header.body with targets := header.targets } := by
  unfold Header.rules at made
  split at made
  · next regex =>
    obtain ⟨target, among, makes⟩ := exists_of_mem_mapM made member
    exact .inl ⟨target, among, regex, makes⟩
  · split at made
    · split at made
      · obtain rfl := Except.ok.inj made
        exact .inr (.inl (List.mem_filterMap.mp member))
      · cases made
    · obtain rfl := Except.ok.inj made
      exact .inr (.inr (List.mem_singleton.mp member))

/-- **All rules of a header have its prerequisites, its recipe, its attributes and its place.** -/
theorem body_of_mem_rules (made : header.rules = .ok rules) (member : rule ∈ rules) :
    rule.body = header.body := by
  rcases rules_cases made member with ⟨target, -, -, makes⟩ | ⟨target, -, makes⟩ | rfl
  · obtain ⟨regex, rfl⟩ := regexRule_eq_ok makes
    rfl
  · obtain ⟨start, marker, finish, -, -, -, rfl⟩ := stemRule?_eq_some makes
    rfl
  · rfl

/-- **A header is too large**: it has a regular expression whose bounds exceed what can be
represented. -/
def TooLarge (header : Header) (failure : Failure) : Prop :=
  ∃ target ∈ header.targets, ∃ kind message, header.traits.regex = true ∧
    Regex.read target = .error (.excessive kind message) ∧ failure = .raised kind message

/-- **Why a header declares no rules**: it is malformed, or too large. -/
theorem rules_eq_error {failure : Failure} (failed : header.rules = .error failure) :
    (∃ message, failure = malformed message header.location) ∨ header.TooLarge failure := by
  unfold Header.rules at failed
  split at failed
  · next regex =>
    obtain ⟨target, among, fails⟩ := exists_of_mapM_eq_error failed
    unfold regexRule at fails
    split at fails
    · cases fails
    · exact .inl ⟨_, (Except.error.inj fails).symm⟩
    · next kind message read =>
      exact .inr ⟨target, among, kind, message, regex, read, (Except.error.inj fails).symm⟩
  · split at failed
    · split at failed
      · cases failed
      · exact .inl ⟨_, (Except.error.inj failed).symm⟩
    · cases failed

/-- **What is known of a header when its line has been read.** -/
structure ReadAt (location : Location) (header : Header) : Prop where
  targets : header.targets ≠ []
  traits : ∃ letters, readTraits location {} letters = .ok header.traits
  location : header.location = location
  recipe : header.recipe = []

end Header

/-! ### Reading headers -/

/-- Attributes that cannot be read are an error of their line. -/
theorem readTraits_eq_error {location : Location} {traits : Traits} {letters : List Char}
    {failure : Failure} (failed : readTraits location traits letters = .error failure) :
    ∃ message, failure = malformed message location := by
  fun_induction readTraits location traits letters with
  | case1 => cases failed
  | case2 => exact ⟨_, (Except.error.inj failed).symm⟩
  | case3 => cases failed
  | case11 => exact ⟨_, (Except.error.inj failed).symm⟩
  -- Every other letter sets a trait, and the next one is read.
  | _ => exact ‹_ = Except.error failure → _› failed

section Reading

variable {σ : Type} {usual : σ → Prop} {raised : Failure → Prop}

/-- How a part of a line is read: in a usual state, or with a failure of a known kind. -/
abbrev EndsAt {α : Type} (usual : σ → Prop) (raised : Failure → Prop) (location : Location) :
    EStateM.Result Failure σ α → Prop :=
  Ends (fun _ after => usual after) (fun failure _ => failure.OfLine raised location)

theorem endsAt_refuse {α : Type} (message : String) (location : Location) (state : σ)
    (good : α → σ → Prop) : Ends good (fun failure _ => failure.OfLine raised location)
      (refuse message location state) :=
  .error (.inl ⟨message, rfl⟩)

/-- Errors of an expansion are errors of the line in which they arise. -/
theorem endsAt_located {α : Type} {action : Action σ α} {state : σ} (location : Location)
    (ends : Expander.EndsUsual usual raised (action state)) :
    EndsAt usual raised location (located location action state) := by
  refine Ends.tryCatch (ends.mono (fun _ _ kept => kept) fun failure after fails => ?_)
  rcases fails with ⟨error, rfl⟩ | fails
  · exact endsAt_refuse error.message location after _
  · split
    · next error => exact endsAt_refuse error.message location after _
    · exact .error (.inr fails)

theorem endsAt_expanded {α : Type} (location : Location) (result : Except ExpansionError α)
    {state : σ} (start : usual state) :
    EndsAt usual raised location (located location (expanded result) state) := by
  refine endsAt_located location ?_
  cases result with
  | ok value => exact .ok start
  | error error => exact .error (.inl ⟨error, rfl⟩)

/-- How a header is read: it has targets, and its attributes have been read. -/
abbrev EndsHeader (usual : σ → Prop) (raised : Failure → Prop) (location : Location) :
    EStateM.Result Failure σ Header → Prop :=
  Ends (fun header after => header.ReadAt location ∧ usual after)
    (fun failure _ => failure.OfLine raised location)

theorem ends_readParts {expander : Expander σ} (answers : expander.Answers usual raised)
    (location : Location) (targetPart traitPart prereqPart : List Char) {state : σ}
    (start : usual state) : EndsHeader usual raised location
      (readParts expander location targetPart traitPart prereqPart state) := by
  unfold readParts
  refine Ends.bind ((endsAt_located location (Expander.ends_words answers _ start)).imp
    fun targets after kept => ?_)
  dsimp only
  split
  · exact Ends.bind (endsAt_refuse _ _ _ _)
  · next some =>
    refine Ends.bind ?_
    cases read : readTraits location {} (Chars.strip traitPart) with
    | error failure => exact .error (.inl (readTraits_eq_error read))
    | ok traits =>
      refine .ok ?_
      -- The names that the expansion keeps do not matter for its commands.
      have keeps : ∀ keep, ({ expander with keep } : Expander σ).Answers usual raised :=
        fun _ => answers
      refine Ends.bind ((endsAt_located location (Expander.ends_words (keeps _) _ kept)).imp
        fun prereqs late kept => .ok ⟨⟨fun none => some ?_, ⟨_, read⟩, rfl, rfl⟩, kept⟩)
      exact List.isEmpty_iff.mpr none

/-- **A header that has been read has targets, and its attributes have been read.** -/
theorem ends_readHeader {expander : Expander σ} (answers : expander.Answers usual raised)
    (location : Location) (body : List Char) {state : σ} (start : usual state) :
    EndsHeader usual raised location (readHeader expander location body state) := by
  unfold readHeader
  refine Ends.bind ((endsAt_expanded location _ start).imp fun parts after kept => ?_)
  rcases parts with _ | ⟨first, _ | ⟨second, _ | ⟨third, _ | ⟨fourth, rest⟩⟩⟩⟩
  · exact Ends.bind (endsAt_refuse _ _ _ _)
  · exact Ends.bind (endsAt_refuse _ _ _ _)
  · exact ends_readParts answers location first [] second kept
  · exact ends_readParts answers location first second third kept
  · exact Ends.bind (endsAt_refuse _ _ _ _)

end Reading

end RuleFile

end BuildSystem
