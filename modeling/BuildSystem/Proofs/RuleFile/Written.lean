/-
**Rules that are written are read again.**

A plain rule is written with its targets and prerequisites between quotes and its recipe behind
tabs, so that no character of a name is taken for a sign of the rule file.

* `RuleFile.PlainRule` — a rule for plain targets whose texts hold no line ends.
* `RuleFile.written` — the text of a rule file with given plain rules.
* `RuleFile.declared` — the rules that this text declares.
* `RuleFile.PlainRule.readHeader_body` — the header of a written rule is read as such.
* `RuleFile.PlainRule.foldlM_lines` — the lines of a written rule are read.
* `RuleFile.ofText_written` — a written rule file declares these rules and nothing else.
-/

import BuildSystem.Proofs.Variable.Quotation
import BuildSystem.RuleFile.Reader

namespace BuildSystem

/-! ### Written rules -/

/-- What letters of attributes say. -/
def Attributes.ofLetters (letters : List Char) : Attributes where
  virtual := letters.contains 'V'
  quiet := letters.contains 'Q'
  deleteOnFailure := letters.contains 'D'
  continueOnError := letters.contains 'E'
  forceUpdate := letters.contains 'N'

namespace RuleFile

/-- A rule for plain targets that can be written: its texts hold no line ends, and the lines of its
recipe are neither blank nor indented. -/
structure PlainRule where
  targets : List String
  prereqs : List String
  /-- The letters of the attributes. -/
  letters : List Char
  recipe : List String
  named : targets ≠ []
  unmarked : ∀ target ∈ targets, Header.isMarked target = false
  lettered : ∀ letter ∈ letters, letter ∈ ['V', 'Q', 'D', 'E', 'N']
  inLine : ∀ text ∈ targets ++ prereqs ++ recipe, text.toList.any Chars.isLineEnd = false
  shown : ∀ line ∈ recipe, line.toList.all Chars.isBlank = false
  flush : ∀ line ∈ recipe, line.toList.head?.any isIndentation = false

namespace PlainRule

/-- The line with the targets, the attributes and the prerequisites. -/
def header (rule : PlainRule) : String :=
  Text.quotations rule.targets ++ ":" ++ String.ofList rule.letters ++ ": " ++
    Text.quotations rule.prereqs

/-- The lines of the rule; those of the recipe are indented by tabs. -/
def lines (rule : PlainRule) : List String :=
  rule.header :: rule.recipe.map ("\t" ++ ·)

/-- The rule as it is declared in a line of a rule file. -/
def declaredAt (rule : PlainRule) (location : Location) : ExplicitRule where
  targets := rule.targets
  prereqs := rule.prereqs
  recipe := if rule.recipe = [] then none else some (Text.join "\n" rule.recipe)
  attributes := .ofLetters rule.letters
  comparator := none
  location := location

end PlainRule

/-- The text of a rule file with these rules. -/
def written (rules : List PlainRule) : String :=
  Text.join "\n" (rules.flatMap PlainRule.lines)

/-- The rules of a file, the first of which stands in the line `number`. -/
def declared (file : String) : (number : Nat) → List PlainRule → List ExplicitRule
  | _, [] => []
  | number, rule :: others =>
    rule.declaredAt ⟨file, number⟩ :: declared file (number + rule.lines.length) others

namespace PlainRule

variable (rule : PlainRule)

/-! ### The lines of a written rule -/

/-- A header up to its prerequisites, for which something else may stand. -/
def statement (rest : List Char) : List Char :=
  Chars.quotations (rule.targets.map String.toList) ++ ':' :: (rule.letters ++ ':' :: rest)

/-- The prerequisites as they stand in the header when blanks at its end are left out. -/
def prereqPart : List Char :=
  if rule.prereqs = [] then [] else ' ' :: Chars.quotations (rule.prereqs.map String.toList)

theorem toList_header :
    rule.header.toList =
      rule.statement (' ' :: Chars.quotations (rule.prereqs.map String.toList)) := by
  simp [header, statement]

theorem head?_statement (rest : List Char) : (rule.statement rest).head? = some '\'' := by
  rw [statement, List.head?_append, Chars.head?_quotations (by simpa using rule.named)]
  rfl

/-- What holds of the five letters holds of the letters of the rule. -/
theorem letters_hold (holds : Char → Bool) (checked : ['V', 'Q', 'D', 'E', 'N'].all holds = true) :
    ∀ letter ∈ rule.letters, holds letter = true :=
  fun letter member => List.all_eq_true.mp checked letter (rule.lettered letter member)

theorem inner {text : String} (member : text ∈ rule.targets ++ rule.prereqs ++ rule.recipe)
    {c : Char} (inside : c ∈ text.toList) : Chars.isLineEnd c = false :=
  Bool.eq_false_iff.mpr (List.any_eq_false.mp (rule.inLine text member) c inside)

theorem inLine_quotations {texts : List String} (among : texts ⊆ rule.targets ++ rule.prereqs) :
    ∀ c ∈ Chars.quotations (texts.map String.toList), Chars.isLineEnd c = false := by
  intro c inside
  rcases Chars.mem_quotations inside with rfl | rfl | ⟨_, mapped, within⟩
  · rfl
  · rfl
  · obtain ⟨text, there, rfl⟩ := List.mem_map.mp mapped
    exact rule.inner (List.mem_append_left _ (among there)) within

theorem inLine_header : ∀ c ∈ rule.header.toList, Chars.isLineEnd c = false := by
  have letters := rule.letters_hold (fun c => !Chars.isLineEnd c) (by decide)
  intro c inside
  rw [toList_header] at inside
  simp only [statement, List.mem_append, List.mem_cons] at inside
  rcases inside with inside | rfl | inside | rfl | rfl | inside
  · exact rule.inLine_quotations (List.subset_append_left _ _) c inside
  · rfl
  · simpa using letters c inside
  · rfl
  · rfl
  · exact rule.inLine_quotations (List.subset_append_right _ _) c inside

/-- No line of the rule is empty, and none holds a line end. -/
theorem inLine_lines {line : List Char} (member : line ∈ rule.lines.map String.toList) :
    line ≠ [] ∧ ∀ c ∈ line, Chars.isLineEnd c = false := by
  rw [lines, List.map_cons, List.mem_cons, List.map_map] at member
  rcases member with rfl | member
  · exact ⟨by simp [toList_header, statement], rule.inLine_header⟩
  · obtain ⟨text, there, rfl⟩ := List.mem_map.mp member
    refine ⟨by simp, fun c inside => ?_⟩
    rcases List.mem_cons.mp (by simpa using inside) with rfl | inside
    · rfl
    · exact rule.inner (List.mem_append_right _ there) inside

/-! ### The parts of a written header -/

/-- What is open in a header are spaces, colons, letters and what is open in its rest. -/
theorem spells_statement {rest : List Char} {marks : List Scan.Mark}
    (spells : Scan.Spells rest marks) :
    ∃ named, Scan.text named = Chars.quotations (rule.targets.map String.toList) ∧
      (∀ mark ∈ named, mark.isOpen = true → mark.character = ' ') ∧
      Scan.Spells (rule.statement rest)
        (named ++ ⟨':', true⟩ :: (rule.letters.map (⟨·, true⟩) ++ ⟨':', true⟩ :: marks)) := by
  obtain ⟨named, targets, spaces⟩ := Scan.spells_quotations (rule.targets.map String.toList)
  have plain := rule.letters_hold (fun c => c != '\'' && c != '$' && c != '`') (by decide)
  have letters : Scan.Spells (rule.letters ++ ':' :: rest)
      (rule.letters.map (⟨·, true⟩) ++ ⟨':', true⟩ :: marks) :=
    .plain (by simpa [and_assoc] using plain) (spells.cons (by decide))
  exact ⟨named, targets.text, spaces, targets.append (letters.cons (by decide)) (by simp)⟩

/-- A header holds no comment. -/
theorem stripComment_header : Chars.stripComment rule.header.toList = .ok rule.header.toList := by
  obtain ⟨needed, prereqs, needsSpaces⟩ :=
    Scan.spells_space_quotations (rule.prereqs.map String.toList)
  obtain ⟨named, -, spaces, spells⟩ := rule.spells_statement prereqs
  have letters := rule.letters_hold (· != '#') (by decide)
  rw [toList_header]
  refine Chars.stripComment_eq_self spells.marks fun mark member => ?_
  simp only [List.mem_append, List.mem_cons, List.mem_map] at member
  rcases member with member | rfl | ⟨letter, member, rfl⟩ | rfl | member
  · exact Scan.Mark.closed_at (spaces mark member) (by decide)
  · rfl
  · simpa using letters letter member
  · rfl
  · exact Scan.Mark.closed_at (needsSpaces mark member) (by decide)

theorem getLast?_statement (rest : List Char) :
    (rule.statement rest).getLast? = some (rest.getLast?.getD ':') := by
  simp [statement, List.getLast?_append, List.getLast?_cons]

theorem strip_header : Chars.strip rule.header.toList = rule.statement rule.prereqPart := by
  have first := rule.head?_statement
  rw [toList_header, prereqPart]
  split
  · next none =>
    -- Without prerequisites the header ends with a space, which is the only blank at its ends.
    have ends : rule.statement (' ' :: Chars.quotations (rule.prereqs.map String.toList)) =
        rule.statement [] ++ [' '] := by simp [statement, none, Chars.quotations]
    rw [ends, Chars.strip_concat_blank (by decide)]
    exact Chars.strip_eq_self (by rw [first]; rfl) (by rw [getLast?_statement]; rfl)
  · next some =>
    refine Chars.strip_eq_self (by rw [first]; rfl) ?_
    rw [getLast?_statement, List.getLast?_cons, Chars.getLast?_quotations (by simpa using some)]
    rfl

theorem spells_prereqPart :
    ∃ needed, Scan.Spells rule.prereqPart needed ∧
      ∀ mark ∈ needed, mark.isOpen = true → mark.character = ' ' := by
  unfold prereqPart
  split
  · exact ⟨[], .nil, by simp⟩
  · exact Scan.spells_space_quotations _

/-- The colons of a header that count are the ones around its letters. -/
theorem splitUnquoted_body :
    Chars.splitUnquoted (· == ':') (rule.statement rule.prereqPart) =
      .ok [Chars.quotations (rule.targets.map String.toList), rule.letters, rule.prereqPart] := by
  obtain ⟨needed, prereqs, needsSpaces⟩ := rule.spells_prereqPart
  obtain ⟨named, targets, spaces, spells⟩ := rule.spells_statement prereqs
  have letters := rule.letters_hold (· != ':') (by decide)
  have unlettered : ∀ mark ∈ rule.letters.map (Scan.Mark.mk · true),
      (mark.isOpen && mark.character == ':') = false := by simpa using letters
  rw [Chars.splitUnquoted, spells.marks]
  simp only
  rw [Chars.splitWhere_append (fun mark member => Scan.Mark.closed_at (spaces mark member) rfl) rfl,
    Chars.splitWhere_append unlettered rfl,
    Chars.splitWhere_uncut (fun mark member => Scan.Mark.closed_at (needsSpaces mark member) rfl)]
  have spelled : Scan.text (rule.letters.map (Scan.Mark.mk · true)) = rule.letters := by
    simp [Scan.text, Function.comp_def]
  rw [List.map_cons, List.map_cons, List.map_singleton, targets, spelled, prereqs.text]

end PlainRule

/-! ### Reading written rules -/

/-- Letters add to the attributes that have been read. -/
theorem readTraits_letters (location : Location) (traits : Traits) {letters : List Char}
    (lettered : ∀ letter ∈ letters, letter ∈ ['V', 'Q', 'D', 'E', 'N']) :
    readTraits location traits letters =
      .ok { traits with attributes := traits.attributes.union (.ofLetters letters) } := by
  induction letters generalizing traits with
  | nil => simp [readTraits, Attributes.union, Attributes.ofLetters]
  | cons letter letters ih =>
    have one := lettered letter List.mem_cons_self
    have others := fun traits => ih traits fun other member =>
      lettered other (List.mem_cons_of_mem letter member)
    simp only [List.mem_cons, List.not_mem_nil, or_false] at one
    rcases one with rfl | rfl | rfl | rfl | rfl <;>
      simp [readTraits, others, Attributes.union, Attributes.ofLetters]

section Reading

variable {σ : Type} {source : Source σ} {nested : Nested σ} {active : List String} {file : String}

@[simp] theorem located_pure {α : Type} (location : Location) (value : α) :
    located location (pure value : Action σ α) = pure value := rfl

@[simp] theorem expanded_ok {α : Type} (value : α) :
    expanded (.ok value) = (pure value : Action σ α) := rfl

@[simp] theorem accepted_ok {α : Type} (value : α) :
    accepted (.ok value) = (pure value : Action σ α) := rfl

namespace PlainRule

variable (rule : PlainRule)

/-- The header of the rule, in front of its recipe. -/
def opening (location : Location) : Header where
  targets := rule.targets
  prereqs := rule.prereqs
  traits := { attributes := .ofLetters rule.letters }
  location := location

theorem words_prereqPart (expander : Expander σ) :
    expander.words (String.ofList rule.prereqPart) = pure rule.prereqs := by
  rw [Expander.words, String.toList_ofList, prereqPart]
  split
  · next none => rw [none]; rfl
  · rw [expander.wordsFrom_space]
    exact expander.wordsFrom_quotations rule.prereqs []

theorem words_targets (expander : Expander σ) :
    expander.words (String.ofList (Chars.quotations (rule.targets.map String.toList))) =
      pure rule.targets := by
  rw [Expander.words, String.toList_ofList]
  exact expander.wordsFrom_quotations rule.targets []

/-- **The header of a written rule is read as such.** -/
theorem readHeader_body (expander : Expander σ) (location : Location) :
    readHeader expander location (rule.statement rule.prereqPart) =
      pure (rule.opening location) := by
  have plain : rule.targets.any Header.isMarked = false := by simpa using rule.unmarked
  have traits : readTraits location {} (Chars.strip rule.letters) =
      .ok { attributes := .ofLetters rule.letters } := by
    have shown := rule.letters_hold (fun c => !Chars.isBlank c) (by decide)
    rw [Chars.strip_shown (by simpa using shown), readTraits_letters location {} rule.lettered]
    simp [Attributes.union, Attributes.ofLetters]
  unfold readHeader
  rw [splitUnquoted_body]
  simp only [expanded_ok, located_pure, pure_bind, words_targets, traits, accepted_ok, plain]
  rw [if_neg (by simpa using rule.named), words_prereqPart]
  rfl

/-- **The header of a written rule ends the rule before it and begins another one.** -/
theorem readStatement_header {reader : Reader} {bindings : Bindings} {before : List Rule}
    (closed : reader.close = .ok ⟨bindings, before, none⟩) (location : Location) :
    readStatement nested source active location rule.header.toList reader =
      pure ⟨bindings, before, some (rule.opening location)⟩ := by
  obtain ⟨rest, begins⟩ : ∃ rest, rule.statement rule.prereqPart = '\'' :: rest :=
    List.head?_eq_some_iff.mp (rule.head?_statement _)
  have header := rule.readHeader_body (Reader.expander ⟨bindings, before, none⟩ source) location
  have unassigned : Chars.splitAssignment? ('\'' :: rest) = none := by
    simp [Chars.splitAssignment?, isNameCharacter]
  unfold readStatement
  rw [begins] at header
  simp only [stripComment_header, expanded_ok, located_pure, pure_bind, strip_header, begins,
    closed, accepted_ok]
  simp [unassigned, header]

/-- A header is a statement and does not go on in the next line. -/
theorem linesFrom_header (number : Nat) (rest : List (List Char)) :
    linesFrom none number (rule.header.toList :: rest) =
      ⟨number, .statement rule.header.toList⟩ :: linesFrom none (number + 1) rest := by
  have last : rule.header.toList.getLast? ≠ some '\\' := by
    rw [toList_header, getLast?_statement, List.getLast?_cons]
    by_cases none : rule.prereqs = []
    · simp [none, Chars.quotations]
    · have some : rule.prereqs.map String.toList ≠ [] := by simpa using none
      simp [Chars.getLast?_quotations some]
  obtain ⟨tail, begins⟩ : ∃ tail, rule.header.toList = '\'' :: tail :=
    List.head?_eq_some_iff.mp (by rw [toList_header]; exact rule.head?_statement _)
  have complete : continued? rule.header.toList = none := by rw [continued?, if_neg last]
  have shown : rule.header.toList.all Chars.isBlank = false := by rw [begins]; rfl
  have flush : rule.header.toList.head?.any isIndentation = false := by rw [begins]; rfl
  rw [linesFrom]
  simp only [shown, flush, complete]
  rfl

/-- Only one tab is written in front of a line of a recipe, and nothing else of it is taken off. -/
theorem linesFrom_recipe {line : String} (member : line ∈ rule.recipe) (number : Nat)
    (rest : List (List Char)) :
    linesFrom none number (("\t" ++ line).toList :: rest) =
      ⟨number, .recipe line.toList⟩ :: linesFrom none (number + 1) rest := by
  have tabbed : ("\t" ++ line).toList = '\t' :: line.toList := by simp
  have shown : ('\t' :: line.toList).all Chars.isBlank = false := by
    rw [List.all_cons, rule.shown line member, Bool.and_false]
  have inner : ('\t' :: line.toList).dropWhile isIndentation = line.toList := by
    have flush := rule.flush line member
    rw [List.dropWhile_cons_of_pos rfl]
    cases chars : line.toList with
    | nil => rfl
    | cons c rest =>
      rw [chars] at flush
      exact List.dropWhile_cons_of_neg (by simpa using flush)
  rw [linesFrom, tabbed]
  simp only [shown, inner]
  rfl

/-- The lines of a recipe are added to the header above them. -/
theorem foldlM_recipe {recipe : List String} (among : ∀ line ∈ recipe, line ∈ rule.recipe)
    (number : Nat) (rest : List (List Char)) (bindings : Bindings) (before : List Rule)
    (header : Header) :
    (linesFrom none number (recipe.map (fun line => ("\t" ++ line).toList) ++ rest)).foldlM
        (readLine nested source active file) ⟨bindings, before, some header⟩ =
      (linesFrom none (number + recipe.length) rest).foldlM (readLine nested source active file)
        ⟨bindings, before, some { header with recipe := header.recipe ++ recipe }⟩ := by
  induction recipe generalizing number header with
  | nil => simp
  | cons line recipe ih =>
    rw [List.map_cons, List.cons_append, rule.linesFrom_recipe (among line List.mem_cons_self),
      List.foldlM_cons]
    have added : readLine nested source active file ⟨bindings, before, some header⟩
        ⟨number, .recipe line.toList⟩ =
          pure ⟨bindings, before, some { header with recipe := header.recipe ++ [line] }⟩ := by
      simp [readLine, Reader.addRecipeLine]
    rw [added, pure_bind, ih fun other member => among other (List.mem_cons_of_mem line member)]
    simp [Nat.add_assoc, Nat.add_comm 1]

/-- **The lines of a written rule are read.** -/
theorem foldlM_lines {reader : Reader} {bindings : Bindings} {before : List Rule}
    (closed : reader.close = .ok ⟨bindings, before, none⟩) (number : Nat)
    (rest : List (List Char)) :
    (linesFrom none number (rule.lines.map String.toList ++ rest)).foldlM
        (readLine nested source active file) reader =
      (linesFrom none (number + rule.lines.length) rest).foldlM
        (readLine nested source active file)
        ⟨bindings, before, some { rule.opening ⟨file, number⟩ with recipe := rule.recipe }⟩ := by
  have began : readLine nested source active file reader
      ⟨number, .statement rule.header.toList⟩ =
        pure ⟨bindings, before, some (rule.opening ⟨file, number⟩)⟩ :=
    rule.readStatement_header closed ⟨file, number⟩
  rw [lines, List.map_cons, List.map_map, List.cons_append, linesFrom_header, List.foldlM_cons,
    began, pure_bind]
  refine Eq.trans (rule.foldlM_recipe (fun _ member => member) (number + 1) rest bindings before
    (rule.opening ⟨file, number⟩)) ?_
  simp [opening, Nat.add_assoc, Nat.add_comm 1]

/-- The rule is declared when its recipe ends. -/
theorem close_opening (bindings : Bindings) (before : List Rule) (location : Location) :
    Reader.close ⟨bindings, before, some { rule.opening location with recipe := rule.recipe }⟩ =
      .ok ⟨bindings, before ++ [.explicit (rule.declaredAt location)], none⟩ := by
  have plain : rule.targets.any Header.isMarked = false := by simpa using rule.unmarked
  simp [Reader.close, Header.rules, opening, plain, Header.body, declaredAt]

end PlainRule

/-- The lines of written rules are read one rule after another. -/
theorem foldlM_written (rules : List PlainRule) {reader : Reader} {bindings : Bindings}
    {before : List Rule} (closed : reader.close = .ok ⟨bindings, before, none⟩) (number : Nat) :
    (do
      let reader ←
        (linesFrom none number ((rules.flatMap PlainRule.lines).map String.toList)).foldlM
          (readLine nested source active file) reader
      accepted reader.close) =
      (pure ⟨bindings, before ++ (declared file number rules).map .explicit, none⟩ :
        Action σ Reader) := by
  -- The last header stays open until another one ends it, so what one rule leaves to the next is
  -- a reader that can be closed.
  induction rules generalizing reader before number with
  | nil => simp [linesFrom, declared, closed]
  | cons rule others ih =>
    rw [List.flatMap_cons, List.map_append, rule.foldlM_lines closed,
      ih (rule.close_opening bindings before ⟨file, number⟩)]
    simp [declared]

end Reading

/-- The lines of a written rule file are the lines of its rules. -/
theorem lines_written (rules : List PlainRule) :
    Chars.lines (written rules).toList = (rules.flatMap PlainRule.lines).map String.toList := by
  rw [written, Text.toList_join]
  refine Chars.lines_intercalate fun line member => ?_
  rw [List.map_flatMap] at member
  obtain ⟨rule, -, inside⟩ := List.mem_flatMap.mp member
  exact rule.inLine_lines inside

theorem explicitRules_map (rules : List ExplicitRule) (values : Values) :
    RuleSet.explicitRules ⟨rules.map .explicit, values⟩ = rules := by
  rw [RuleSet.explicitRules, List.filterMap_map]
  exact List.filterMap_some

/-- **A written rule file declares these rules, in order, and nothing else.** -/
theorem ofText_written {σ : Type} (source : Source σ) (bindings : Bindings) (file : String)
    (rules : List PlainRule) (state : σ) :
    ∃ ruleSet, ofText source bindings file (written rules) state = .ok ruleSet state ∧
      ruleSet.explicitRules = declared file 1 rules ∧ ruleSet.patterns = [] ∧
      ruleSet.defaultTargets = (rules.head?.bind (·.targets.head?)).toList ∧
      ruleSet.values = bindings.values := by
  have read : readText source (source.nestingLimit state + 1) [] file (written rules) { bindings } =
      pure ⟨bindings, (declared file 1 rules).map .explicit, none⟩ := by
    have fresh : Reader.close ⟨bindings, [], none⟩ = .ok ⟨bindings, [], none⟩ := rfl
    rw [readText, logicalLines, lines_written]
    exact foldlM_written rules fresh 1
  refine ⟨⟨(declared file 1 rules).map .explicit, bindings.values⟩, ?_, ?_, ?_, ?_, rfl⟩
  · show (do return (← readText source (source.nestingLimit state + 1) [] file (written rules)
      { bindings }).ruleSet : Action σ RuleSet) state = _
    rw [read]
    rfl
  · exact explicitRules_map _ _
  · simp [RuleSet.patterns]
  · rw [RuleSet.defaultTargets, explicitRules_map]
    cases rules with
    | nil => rfl
    | cons rule others => exact List.take_one

/-! ### Names full of signs -/

/-- A rule in whose names the signs of a rule file occur. -/
def awkwardRule : PlainRule where
  targets := ["it's: a #1", "X=`\x7by\x7d"]
  prereqs := ["", "<$stem $\x7bz"]
  letters := ['V', 'Q']
  recipe := ["echo $X: \\", "# 'done"]
  named := by decide
  unmarked := by decide
  lettered := by simp
  inLine := by decide
  shown := by decide
  flush := by decide

example : written [awkwardRule] =
    "'it''s: a #1' 'X=`\x7by\x7d':VQ: '' '<$stem $\x7bz'\n\techo $X: \\\n\t# 'done" := by
  decide

/-- Nothing can be read and nothing run. -/
def silentSource : Source Unit where
  text _ _ := .error (.refused "no such file")
  resolve path _ := .ok path
  nestingLimit _ := 0
  output _ _ := throw (.programMissing "no such program")
  included _ _ := throw (.programMissing "no such program")

theorem ofText_written_awkward :
    ∃ ruleSet, ofText silentSource ⟨[("X", ["x"])], ["X"]⟩ "rules"
        (written [awkwardRule, awkwardRule]) () = .ok ruleSet () ∧
      ruleSet.explicitRules.map (·.targets) =
        [["it's: a #1", "X=`\x7by\x7d"], ["it's: a #1", "X=`\x7by\x7d"]] ∧
      ruleSet.explicitRules.map (·.location.line) = [1, 4] ∧
      ruleSet.explicitRules.map (·.recipe) =
        [some "echo $X: \\\n# 'done", some "echo $X: \\\n# 'done"] ∧
      ruleSet.defaultTargets = ["it's: a #1"] := by
  obtain ⟨ruleSet, read, rules, -, first, -⟩ :=
    ofText_written silentSource ⟨[("X", ["x"])], ["X"]⟩ "rules" [awkwardRule, awkwardRule] ()
  exact ⟨ruleSet, read, by rw [rules]; decide, by rw [rules]; decide, by rw [rules]; decide, first⟩

end RuleFile

end BuildSystem
