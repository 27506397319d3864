/-
**What a text says does not depend on where it stands.**

* `Rule.moved`, `Header.moved` — a rule and a header in another place.
* `Reader.Alike`, `RuleSet.Alike` — what has been read, apart from the places.
* `Location.Beside`, `Failure.Renumbered` — two lines of one file, and a failure in another line.
* `Header.rules_moved`, `agree_readHeader`, `Comparable.agree_close` — headers and rules are read alike
  in all places, and they are refused for the same reason in all lines of a file.
* `agree_readLine`, `agree_readLines` — so are lines, if nested texts are.
* `agree_readText`, `follows_readLines` — and so are texts: under any name, while fewer files are being
  read, and with more room for nested texts.
-/

import BuildSystem.Proofs.Following
import BuildSystem.Proofs.RuleFile.LogicalLines
import BuildSystem.RuleFile.Reader

namespace BuildSystem

/-! ### Places -/

/-- A rule in another place. -/
def Rule.moved (place : Location) : Rule → Rule
  | .explicit rule => .explicit { rule with location := place }
  | .pattern (.stem rule) => .pattern (.stem { rule with location := place })
  | .pattern (.regex rule) => .pattern (.regex { rule with location := place })

theorem Rule.moved_moved (place other : Location) (rule : Rule) :
    (rule.moved other).moved place = rule.moved place := by
  rcases rule with rule | rule | rule <;> rfl

/-- Two lists of rules are the same, apart from the places of the rules. -/
def AlikeRules (one two : List Rule) : Prop :=
  ∀ place, two.map (Rule.moved place) = one.map (Rule.moved place)

theorem AlikeRules.append {one two more more' : List Rule} (alike : AlikeRules one two)
    (others : AlikeRules more more') : AlikeRules (one ++ more) (two ++ more') := by
  intro place
  rw [List.map_append, List.map_append, alike place, others place]

theorem AlikeRules.moved (rules : List Rule) (place : Location) :
    AlikeRules rules (rules.map (Rule.moved place)) := by
  intro other
  rw [List.map_map]
  exact List.map_congr_left fun rule _ => rule.moved_moved other place

/-- **Two rule sets are alike**: they have the same rules in the same order, apart from their places,
and the same values. -/
structure RuleSet.Alike (one two : RuleSet) : Prop where
  rules : AlikeRules one.rules two.rules
  explicitIndex : two.explicitIndex = one.explicitIndex
  patternIndex : two.patternIndex = one.patternIndex
  defaultTargets : two.defaultTargets = one.defaultTargets
  values : two.values = one.values

namespace RuleSet

/-- The places of rules do not matter for the index of explicit targets. -/
theorem explicitIndex_moved (place : Location) (rules : List Rule) (values : Values) :
    explicitIndex ⟨rules.map (Rule.moved place), values⟩ = explicitIndex ⟨rules, values⟩ := by
  unfold explicitIndex
  simp only [List.zipIdx_map, List.flatMap_map]
  congr 2
  funext entry
  obtain ⟨rule | rule | rule, index⟩ := entry <;> rfl

theorem patternIndex_moved (place : Location) (rules : List Rule) (values : Values) :
    patternIndex ⟨rules.map (Rule.moved place), values⟩ = patternIndex ⟨rules, values⟩ := by
  unfold patternIndex
  simp only [List.zipIdx_map, List.filterMap_map]
  congr 1
  funext entry
  obtain ⟨rule | rule | rule, index⟩ := entry <;> rfl

theorem defaultTargets_moved (place : Location) (rules : List Rule) (values : Values) :
    defaultTargets ⟨rules.map (Rule.moved place), values⟩ = defaultTargets ⟨rules, values⟩ := by
  have explicits : explicitRules ⟨rules.map (Rule.moved place), values⟩ =
      (explicitRules ⟨rules, values⟩).map fun rule => { rule with location := place } := by
    unfold explicitRules
    rw [List.filterMap_map, List.map_filterMap]
    congr 1
    funext rule
    rcases rule with rule | rule | rule <;> rfl
  unfold defaultTargets
  rw [explicits]
  cases explicitRules ⟨rules, values⟩ with
  | nil => rfl
  | cons rule rest => rfl

/-- What does not depend on the places of rules is the same for rules that are alike. -/
theorem eq_of_moved {α : Type} {view : RuleSet → α} {one two : RuleSet}
    (moved : ∀ place rules values,
      view ⟨rules.map (Rule.moved place), values⟩ = view ⟨rules, values⟩)
    (rules : AlikeRules one.rules two.rules) (values : two.values = one.values) :
    view two = view one :=
  calc view two = view ⟨two.rules.map (Rule.moved ⟨"", 0⟩), two.values⟩ := (moved _ _ _).symm
    _ = view ⟨one.rules.map (Rule.moved ⟨"", 0⟩), one.values⟩ := by rw [rules, values]
    _ = view one := moved _ _ _

theorem Alike.of_rules {one two : RuleSet} (rules : AlikeRules one.rules two.rules)
    (values : two.values = one.values) : one.Alike two where
  rules := rules
  explicitIndex := eq_of_moved explicitIndex_moved rules values
  patternIndex := eq_of_moved patternIndex_moved rules values
  defaultTargets := eq_of_moved defaultTargets_moved rules values
  values := values

end RuleSet

/-! ### Places that are compared -/

/-- **Two lines of one file.**  No line has the number zero, which stands for the file as a whole. -/
structure Location.Beside (one two : Location) : Prop where
  file : two.file = one.file
  first : one.line ≠ 0
  second : two.line ≠ 0

/-- **A failure with another number of a line**: errors of a line stay errors of a line, with the same
message and in the same file, and all other failures stay as they are. -/
inductive Failure.Renumbered : Failure → Failure → Prop
  | same (failure : Failure) : Renumbered failure failure
  | line (message file : String) {one two : Int} (first : one ≠ 0) (second : two ≠ 0) :
      Renumbered (.build (.malformedRuleFile message file one))
        (.build (.malformedRuleFile message file two))

/-- One way, where failures do not count, any two places are compared. -/
def Location.Comparable (oneWay : Prop) (one two : Location) : Prop :=
  ¬ oneWay → one.Beside two

/-- One way, any two failures are as good as each other. -/
def Failure.Comparable (oneWay : Prop) (one two : Failure) : Prop :=
  ¬ oneWay → one.Renumbered two

theorem Failure.Comparable.refl {oneWay : Prop} (failure : Failure) :
    failure.Comparable oneWay failure :=
  fun _ => .same failure

namespace RuleFile

/-- A header in another place. -/
def Header.moved (place : Location) (header : Header) : Header :=
  { header with location := place }

/-- **What has been read is alike**, apart from places. -/
structure Reader.Alike (one two : Reader) : Prop where
  bindings : two.bindings = one.bindings
  rules : AlikeRules one.rules two.rules
  header : ∀ place, two.header.map (Header.moved place) = one.header.map (Header.moved place)

/-- What has been read is alike, and its header is where the other one can be compared with it. -/
structure Reader.Comparable (oneWay : Prop) (one two : Reader) : Prop extends one.Alike two where
  places : ∀ header ∈ one.header, ∀ header' ∈ two.header,
    header.location.Comparable oneWay header'.location

/-- Two lines hold the same. -/
structure Line.Comparable (oneWay : Prop) (one two : Line) : Prop where
  content : two.content = one.content
  first : ¬ oneWay → one.number ≠ 0
  second : ¬ oneWay → two.number ≠ 0

/-! ### Headers -/

section Reading

variable {σ : Type} {oneWay : Prop} {location place : Location}

theorem comparable_malformed (comparable : location.Comparable oneWay place) (message : String) :
    (malformed message location).Comparable oneWay (malformed message place) := by
  intro both
  have beside := comparable both
  unfold malformed
  rw [beside.file]
  exact .line message location.file (Int.natCast_ne_zero.mpr beside.first)
    (Int.natCast_ne_zero.mpr beside.second)

namespace Header

theorem regexRule_moved {header : Header} (comparable : header.location.Comparable oneWay place)
    (target : String) : ResultsAlike (fun one two => two = one.moved place)
      (Failure.Comparable oneWay) (header.regexRule target)
      ((header.moved place).regexRule target) := by
  unfold regexRule
  cases Regex.read target with
  | ok regex => exact .ok rfl
  | error refusal =>
    cases refusal with
    | malformed => exact .error (comparable_malformed comparable _)
    | excessive kind message => exact .error (.refl _)

theorem stemRule?_moved (header : Header) (place : Location) (target : String) :
    (header.moved place).stemRule? target = (header.stemRule? target).map (Rule.moved place) := by
  unfold stemRule?
  split <;> rfl

/-- **A header in another place declares the same rules there**, or is refused for the same reason. -/
theorem rules_moved {header : Header} (comparable : header.location.Comparable oneWay place) :
    ResultsAlike (fun one two => two = one.map (Rule.moved place)) (Failure.Comparable oneWay)
      header.rules (header.moved place).rules := by
  unfold Header.rules
  show ResultsAlike _ _ _ (if header.traits.regex = true then
      header.targets.mapM (header.moved place).regexRule
    else if header.targets.any isMarked = true then
      if header.targets.all isMarked = true then
        .ok (header.targets.filterMap (header.moved place).stemRule?)
      else _
    else _)
  split
  · exact .mapM (regexRule_moved comparable) header.targets
  · split
    · split
      · refine .ok ?_
        rw [List.map_filterMap, funext (header.stemRule?_moved place)]
      · exact .error (comparable_malformed comparable _)
    · exact .ok rfl

end Header

theorem agree_refuse {α β : Type} {related : α → β → Prop}
    (comparable : location.Comparable oneWay place) (message : String) :
    Agree oneWay related (Failure.Comparable oneWay) (refuse message location : Action σ α)
      (refuse message place : Action σ β) :=
  .throw (comparable_malformed comparable message)

/-- Where a line is refused, nothing follows. -/
theorem agree_refuse_bind {α β γ : Type} {related : α → β → Prop}
    (comparable : location.Comparable oneWay place) (message : String) (next : γ → Action σ α)
    (next' : γ → Action σ β) :
    Agree oneWay related (Failure.Comparable oneWay) (refuse message location >>= next)
      (refuse message place >>= next') :=
  fun _ => Or.inl (.error (comparable_malformed comparable message))

theorem agree_located {α : Type} (comparable : location.Comparable oneWay place)
    (action : Action σ α) :
    Agree oneWay Eq (Failure.Comparable oneWay) (located location action)
      (located place action) := by
  have begun : Agree oneWay Eq Eq action action := .refl (fun _ => rfl) action
  refine begun.tryCatch (fun failure _ => ?_) fun _ failure _ same => ?_
  · cases failure with
    | expansion error => exact ⟨_, _, rfl⟩
    | _ => exact ⟨_, _, rfl⟩
  · subst same
    cases failure with
    | expansion error => exact agree_refuse comparable error.message
    | _ => exact .throw (.refl _)

/-- The attributes of a header do not depend on its place. -/
theorem agree_readTraits (comparable : location.Comparable oneWay place) (traits : Traits)
    (letters : List Char) : Agree oneWay Eq (Failure.Comparable oneWay)
      (accepted (readTraits location traits letters) : Action σ Traits)
      (accepted (readTraits place traits letters)) := by
  fun_induction readTraits location traits letters with
  | case1 => exact .pure rfl
  | case2 traits rest command hidden =>
    rw [readTraits, if_pos hidden]
    exact .throw (comparable_malformed comparable _)
  | case3 traits rest command shown =>
    rw [readTraits, if_neg shown]
    exact .pure rfl
  | case11 traits rest letter =>
    rw [readTraits]
    · exact .throw (comparable_malformed comparable _)
    all_goals assumption
  -- Every other letter sets a trait, and the next one is read.
  | _ => exact ‹Agree _ _ _ _ _›

/-- Reads the parts of a header. -/
def readParts (expander : Expander σ) (location : Location)
    (targetPart traitPart prereqPart : List Char) : Action σ Header := do
  let targets ← located location (expander.words (String.ofList targetPart))
  if targets.isEmpty then refuse "rule header has no targets" location
  let traits ← accepted (readTraits location {} (Chars.strip traitPart))
  let keep := if traits.regex || targets.any Header.isMarked then stemNames else []
  let prereqs ← located location
    ({ expander with keep := keep }.words (String.ofList prereqPart))
  return { targets, prereqs, traits, location }

/-- A header has been read in a place, and the same one in another place. -/
def HeaderRead (location place : Location) (one two : Header) : Prop :=
  one.location = location ∧ two = one.moved place

theorem agree_readParts (comparable : location.Comparable oneWay place) (expander : Expander σ)
    (targetPart traitPart prereqPart : List Char) :
    Agree oneWay (HeaderRead location place) (Failure.Comparable oneWay)
      (readParts expander location targetPart traitPart prereqPart)
      (readParts expander place targetPart traitPart prereqPart) := by
  unfold readParts
  refine (agree_located comparable _).bind fun targets _ same => ?_
  subst same
  dsimp only
  split
  · exact agree_refuse_bind comparable _ _ _
  · refine (agree_readTraits comparable _ _).bind fun traits _ same => ?_
    subst same
    refine (agree_located comparable _).bind fun prereqs _ same => ?_
    subst same
    exact .pure ⟨rfl, rfl⟩

/-- **Headers are read alike in all places.** -/
theorem agree_readHeader (comparable : location.Comparable oneWay place) (expander : Expander σ)
    (body : List Char) : Agree oneWay (HeaderRead location place) (Failure.Comparable oneWay)
      (readHeader expander location body) (readHeader expander place body) := by
  unfold readHeader
  refine (agree_located comparable _).bind fun parts _ same => ?_
  subst same
  rcases parts with _ | ⟨first, _ | ⟨second, _ | ⟨third, _ | ⟨fourth, rest⟩⟩⟩⟩
  · exact agree_refuse_bind comparable _ _ _
  · exact agree_refuse_bind comparable _ _ _
  · exact agree_readParts comparable expander first [] second
  · exact agree_readParts comparable expander first second third
  · exact agree_refuse_bind comparable _ _ _

/-! ### Lines and texts -/

variable {one two : Reader}

theorem Reader.Alike.refl (reader : Reader) : reader.Alike reader :=
  ⟨rfl, fun _ => rfl, fun _ => rfl⟩

theorem Reader.Alike.expander (alike : one.Alike two) (source : Source σ) :
    two.expander source = one.expander source := by
  unfold Reader.expander
  rw [alike.bindings]

/-- A header that is alike is the same one in another place. -/
theorem Reader.Alike.header_cases (alike : one.Alike two) :
    (one.header = none ∧ two.header = none) ∨
      ∃ header place, one.header = some header ∧ two.header = some (header.moved place) := by
  have same := alike.header
  cases first : one.header with
  | none =>
    cases second : two.header with
    | none => exact Or.inl ⟨rfl, rfl⟩
    | some header =>
      rw [first, second] at same
      cases same ⟨"", 0⟩
  | some header =>
    cases second : two.header with
    | none =>
      rw [first, second] at same
      cases same ⟨"", 0⟩
    | some moved =>
      rw [first, second] at same
      exact Or.inr ⟨header, moved.location, rfl, same moved.location⟩

/-- Nested texts are read alike, while fewer files are being read. -/
def NestedAgree (oneWay : Prop) (nested nested' : Nested σ) : Prop :=
  ∀ active active' file file' text one two, active' ⊆ active →
    (¬ oneWay → active' = active ∧ file' = file) → Reader.Comparable oneWay one two →
      Agree oneWay (Reader.Comparable oneWay) (Failure.Comparable oneWay)
        (nested active file text one) (nested' active' file' text two)

namespace Reader.Comparable

/-- One way, what is alike can be compared. -/
theorem of_alike (alike : one.Alike two) : one.Comparable True two :=
  ⟨alike, fun _ _ _ _ both => absurd trivial both⟩

/-- What has no header can be compared with itself. -/
theorem refl {reader : Reader} (closed : reader.header = none) : reader.Comparable oneWay reader :=
  ⟨.refl reader, fun _ member => nomatch closed ▸ member⟩

/-- What has the same header in another place. -/
theorem of_header {bindings : Bindings} {rules rules' : List Rule} {header : Header}
    (alike : AlikeRules rules rules') (comparable : header.location.Comparable oneWay place) :
    Reader.Comparable oneWay ⟨bindings, rules, some header⟩
      ⟨bindings, rules', some (header.moved place)⟩ := by
  refine ⟨⟨rfl, alike, fun _ => rfl⟩, fun header member header' member' => ?_⟩
  obtain rfl := Option.some.inj member
  obtain rfl := Option.some.inj member'
  exact comparable

/-- The rules of the current header are declared alike. -/
theorem agree_close (alike : one.Comparable oneWay two) :
    Agree oneWay (Reader.Comparable oneWay) (Failure.Comparable oneWay)
      (accepted one.close : Action σ Reader) (accepted two.close) := by
  unfold close
  rcases alike.header_cases with ⟨none, none'⟩ | ⟨header, place, some, some'⟩
  · rw [none, none']
    exact .pure alike
  · have comparable : header.location.Comparable oneWay place := alike.places header some _ some'
    have moved := Header.rules_moved comparable
    rw [some, some']
    dsimp only
    generalize header.rules = declared at moved ⊢
    generalize (header.moved place).rules = declared' at moved ⊢
    cases moved with
    | error blames => exact .throw blames
    | ok same =>
      subst same
      exact .pure ⟨⟨alike.bindings, alike.rules.append (.moved _ _), fun _ => rfl⟩,
        fun _ member => nomatch member⟩

theorem agree_addRecipeLine (alike : one.Comparable oneWay two)
    (comparable : location.Comparable oneWay place) (text : List Char) :
    Agree oneWay (Reader.Comparable oneWay) (Failure.Comparable oneWay)
      (accepted (one.addRecipeLine location text) : Action σ Reader)
      (accepted (two.addRecipeLine place text)) := by
  unfold addRecipeLine
  rcases alike.header_cases with ⟨none, none'⟩ | ⟨header, other, some, some'⟩
  · rw [none, none']
    exact .throw (comparable_malformed comparable _)
  · have places : header.location.Comparable oneWay other := alike.places header some _ some'
    rw [some, some', alike.bindings]
    exact .pure (.of_header alike.rules places)

end Reader.Comparable

variable {nested nested' : Nested σ} {source : Source σ} {active active' : List String}
  {file file' : String}

theorem agree_readFileWith (agreeTexts : NestedAgree oneWay nested nested')
    (fewer : active' ⊆ active) (same : ¬ oneWay → active' = active)
    (alike : one.Comparable oneWay two) (path : String) :
    Agree oneWay (Reader.Comparable oneWay) (Failure.Comparable oneWay)
      (readFileWith nested source active path one)
      (readFileWith nested' source active' path two) := by
  unfold readFileWith
  refine .same Failure.Comparable.refl _ fun world => ?_
  refine .same Failure.Comparable.refl _ fun name => ?_
  dsimp only
  split
  · next busy =>
    refine .of_throw (.refl _) fun both => ?_
    rw [same both, if_pos busy]
  · next idle =>
    have idle' : ¬ active'.contains name = true := by
      rw [List.contains_iff_mem] at idle ⊢
      exact fun busy => idle (fewer busy)
    rw [if_neg idle']
    refine .same Failure.Comparable.refl _ fun world' => ?_
    rcases source.text path world' with (_ | _) | text
    · exact .throw (.refl _)
    · exact .throw (.refl _)
    · have more : active' ++ [name] ⊆ active ++ [name] :=
        List.append_subset.mpr
          ⟨List.Subset.trans fewer (List.subset_append_left _ _), List.subset_append_right _ _⟩
      exact agreeTexts _ _ _ _ _ _ _ more (fun both => ⟨by rw [same both], rfl⟩) alike

/-- What an include directive makes of the failures of a file depends on its place only where it
gives the file's own failures that place. -/
theorem agree_readInclude (agreeTexts : NestedAgree oneWay nested nested')
    (fewer : active' ⊆ active) (same : ¬ oneWay → active' = active)
    (alike : one.Comparable oneWay two) (comparable : location.Comparable oneWay place)
    (directive : List Char) :
    Agree oneWay (Reader.Comparable oneWay) (Failure.Comparable oneWay)
      (readInclude nested source active location directive one)
      (readInclude nested' source active' place directive two) := by
  unfold readInclude
  rw [alike.expander source, alike.bindings]
  dsimp only
  split
  · next command =>
    refine (agree_located comparable _).bind fun command _ equal => ?_
    subst equal
    exact .same Failure.Comparable.refl _ fun text =>
      agreeTexts _ _ _ _ _ _ _ fewer (fun both => ⟨same both, rfl⟩) alike
  · next path =>
    refine (agree_located comparable _).bind fun path _ equal => ?_
    subst equal
    split
    · exact agree_refuse comparable _
    · refine (agree_readFileWith agreeTexts fewer same alike path).tryCatch
        (fun failure _ => ?_) fun both failure failure' blames => ?_
      · split
        · split
          · exact ⟨_, _, rfl⟩
          · exact ⟨_, _, rfl⟩
        · exact ⟨_, _, rfl⟩
      · cases blames both with
        | line message file first second =>
          dsimp only
          rw [if_neg fun whole => first whole.right, if_neg fun whole => second whole.right]
          exact .throw fun _ => .line message file first second
        | same failure =>
          split
          · split
            · exact agree_refuse comparable _
            · exact .throw (.refl _)
          · exact .throw (.refl _)

theorem agree_readStatement (agreeTexts : NestedAgree oneWay nested nested')
    (fewer : active' ⊆ active) (same : ¬ oneWay → active' = active)
    (alike : one.Comparable oneWay two) (comparable : location.Comparable oneWay place)
    (text : List Char) :
    Agree oneWay (Reader.Comparable oneWay) (Failure.Comparable oneWay)
      (readStatement nested source active location text one)
      (readStatement nested' source active' place text two) := by
  unfold readStatement
  refine (agree_located comparable _).bind fun body _ equal => ?_
  subst equal
  dsimp only
  split
  · exact .pure alike
  · refine alike.agree_close.bind fun one two alike => ?_
    split
    · next directive _ =>
      exact agree_readInclude agreeTexts fewer same alike comparable directive
    · rw [alike.expander source, alike.bindings]
      split
      · refine (agree_located comparable _).bind fun words _ equal => ?_
        subst equal
        exact .pure ⟨⟨rfl, alike.rules, alike.header⟩, alike.places⟩
      · refine (agree_readHeader comparable _ _).bind fun header header' read => ?_
        obtain ⟨rfl, rfl⟩ := read
        exact .pure (.of_header alike.rules comparable)

/-- **Lines are read alike, if nested texts are.** -/
theorem agree_readLine (agreeTexts : NestedAgree oneWay nested nested') (fewer : active' ⊆ active)
    (same : ¬ oneWay → active' = active ∧ file' = file) (alike : one.Comparable oneWay two)
    {line line' : Line} (lines : line.Comparable oneWay line') :
    Agree oneWay (Reader.Comparable oneWay) (Failure.Comparable oneWay)
      (readLine nested source active file one line)
      (readLine nested' source active' file' two line') := by
  have comparable : Location.Comparable oneWay ⟨file, line.number⟩ ⟨file', line'.number⟩ :=
    fun both => ⟨(same both).right, lines.first both, lines.second both⟩
  unfold readLine
  rw [lines.content]
  cases line.content with
  | blank => exact alike.agree_close
  | recipe text => exact alike.agree_addRecipeLine comparable text
  | statement text =>
    exact agree_readStatement agreeTexts fewer (fun both => (same both).left) alike comparable text

theorem agree_readLines (agreeTexts : NestedAgree oneWay nested nested') (fewer : active' ⊆ active)
    (same : ¬ oneWay → active' = active ∧ file' = file) (alike : one.Comparable oneWay two)
    {lines lines' : List Line} (pairs : List.Forall₂ (Line.Comparable oneWay) lines lines') :
    Agree oneWay (Reader.Comparable oneWay) (Failure.Comparable oneWay)
      (lines.foldlM (readLine nested source active file) one)
      (lines'.foldlM (readLine nested' source active' file') two) := by
  have steps : ∀ line line' one two, Line.Comparable oneWay line line' →
      Reader.Comparable oneWay one two →
        Agree oneWay (Reader.Comparable oneWay) (Failure.Comparable oneWay)
          (readLine nested source active file one line)
          (readLine nested' source active' file' two line') :=
    fun _ _ _ _ pair alike => agree_readLine agreeTexts fewer same alike pair
  exact .foldlM steps pairs alike

/-- Lines that hold the same. -/
theorem comparable_lines {lines lines' : List Line} (same : contents lines' = contents lines)
    (numbered : ¬ oneWay → ∀ line ∈ lines, line.number ≠ 0)
    (numbered' : ¬ oneWay → ∀ line ∈ lines', line.number ≠ 0) :
    List.Forall₂ (Line.Comparable oneWay) lines lines' := by
  have equal : List.Forall₂ Eq (contents lines) (contents lines') := by
    rw [same]
    exact List.forall₂_refl _
  unfold contents at equal
  rw [List.forall₂_map_left_iff, List.forall₂_map_right_iff, List.forall₂_iff_zip] at equal
  refine List.forall₂_iff_zip.mpr ⟨equal.left, fun {line line'} member => ?_⟩
  have members := List.of_mem_zip member
  exact ⟨(equal.right member).symm, fun both => numbered both line members.left,
    fun both => numbered' both line' members.right⟩

/-- Lines hold the same, whatever the number of the first one is. -/
theorem comparable_linesFrom {number number' : Nat} (first : 1 ≤ number) (first' : 1 ≤ number')
    (lines : List (List Char)) : List.Forall₂ (Line.Comparable oneWay)
      (linesFrom none number lines) (linesFrom none number' lines) := by
  have begun : ∀ pending ∈ (none : Option Unfinished), 1 ≤ pending.number :=
    fun _ member => nomatch member
  exact comparable_lines (contents_linesFrom rfl number number' lines)
    (fun _ _ member => Nat.one_le_iff_ne_zero.mp (le_number first begun member))
    fun _ _ member => Nat.one_le_iff_ne_zero.mp (le_number first' begun member)

/-- **Texts are read alike with more room for nested texts.** -/
theorem agree_readText (source : Source σ) {depth depth' : Nat} (room : depth ≤ depth')
    (same : ¬ oneWay → depth' = depth) :
    NestedAgree oneWay (readText source depth) (readText source depth') := by
  induction depth generalizing depth' with
  | zero =>
    intro active active' file file' text one two _ _ _
    refine .of_throw (.refl _) fun both => ?_
    rw [same both]
    rfl
  | succ depth ih =>
    obtain ⟨depth', rfl⟩ := Nat.exists_eq_add_of_le' room
    intro active active' file file' text one two fewer equal alike
    have texts : NestedAgree oneWay (readText source depth) (readText source (depth' + depth)) :=
      ih (Nat.le_add_left _ _) fun both => Nat.succ.inj (same both)
    exact (agree_readLines texts fewer equal alike
      (comparable_linesFrom (Nat.le_refl 1) (Nat.le_refl 1) _)).bind
        fun _ _ alike => alike.agree_close

/-- The lines of a text are read like lines that hold the same in another text, while fewer files are
being read there and with more room for nested texts. -/
theorem follows_readLines (source : Source σ) {depth depth' : Nat} (room : depth ≤ depth')
    (fewer : active' ⊆ active) (alike : one.Alike two) {lines lines' : List Line}
    (same : contents lines' = contents lines) (file file' : String) : Follows Reader.Alike
      (lines.foldlM (readLine (readText source depth) source active file) one >>=
        fun reader => accepted reader.close)
      (lines'.foldlM (readLine (readText source depth') source active' file') two >>=
        fun reader => accepted reader.close) := by
  have texts : NestedAgree True (readText source depth) (readText source depth') :=
    agree_readText source room (absurd trivial)
  have pairs : List.Forall₂ (Line.Comparable True) lines lines' :=
    comparable_lines same (absurd trivial) (absurd trivial)
  exact ((agree_readLines texts fewer (absurd trivial) (.of_alike alike) pairs).bind
    fun _ _ alike => alike.agree_close).follows fun _ _ alike => alike.toAlike

end Reading

end RuleFile

end BuildSystem
