/-
**Stem rules as rules with a regular expression.**

The rule for the target `start%finish` can be written with a regular expression too: the two texts
are escaped, a group for at least one character stands between them, and the prerequisites refer to
the group instead of marking the stem.

* `Chars.bindGroups_replace` — a reference to the group in place of each marker is bound to what is
  filled in for the markers.
* `Header.withStem`, `Header.withGroup` — the two headers, and their rules.
* `stem_agrees_with_group` — their rules say the same about every name in one line.
-/

import BuildSystem.Proofs.Regex.Escaped
import BuildSystem.Proofs.RuleFile.StemTargets
import BuildSystem.Proofs.Variable.Parts

namespace BuildSystem

/-! ### References to a group -/

namespace Chars

variable {text : List Char}

/-- Where there is no backslash nothing is bound. -/
theorem bindGroups_of_notMem (plain : '\\' ∉ text) (groups : List (List Char)) :
    bindGroups groups text = text := by
  induction text with
  | nil => rfl
  | cons c rest ih =>
    rw [List.mem_cons, not_or] at plain
    rw [bindGroups_cons groups (Ne.symm plain.1), ih plain.2]

/-- **References to a group in place of marks** are bound to what the group has matched. -/
theorem bindGroups_replace (plain : '\\' ∉ text) (mark : Char) (stem : List Char) :
    bindGroups [stem] (replace mark ['\\', '1'] text) = replace mark stem text := by
  induction text with
  | nil => rfl
  | cons c rest ih =>
    rw [List.mem_cons, not_or] at plain
    by_cases same : c = mark
    · rw [same, replace_mark, replace_mark]
      show (if '1' ≤ '1' ∧ '1' ≤ '9' then
        stem ++ bindGroups [stem] (replace mark ['\\', '1'] rest) else _) = _
      rw [if_pos (by decide), ih plain.2]
    · rw [replace_other same, replace_other same, bindGroups_cons _ (Ne.symm plain.1), ih plain.2]

end Chars

theorem bindGroups_of_notMem {text : String} (plain : '\\' ∉ text.toList) (groups : List String) :
    bindGroups groups text = text := by
  unfold bindGroups
  rw [Chars.bindGroups_of_notMem plain, String.ofList_toList]

theorem bindGroups_replace {text : String} (plain : '\\' ∉ text.toList) (mark : Char)
    (stem : String) :
    bindGroups [stem] (Text.replace mark "\\1" text) = Text.replace mark stem text := by
  unfold bindGroups Text.replace
  rw [String.toList_ofList]
  exact congrArg String.ofList (Chars.bindGroups_replace plain mark stem.toList)

theorem Text.notMem_join {c : Char} {separator : String} {pieces : List String}
    (apart : c ∉ separator.toList) (absent : ∀ piece ∈ pieces, c ∉ piece.toList) :
    c ∉ (Text.join separator pieces).toList := by
  induction pieces with
  | nil => exact List.not_mem_nil
  | cons piece others ih =>
    obtain ⟨first, later⟩ := List.forall_mem_cons.mp absent
    cases others with
    | nil => exact first
    | cons other rest =>
      show c ∉ (piece ++ separator ++ Text.join separator (other :: rest)).toList
      rw [String.toList_append, String.toList_append, List.mem_append, List.mem_append, not_or,
        not_or]
      exact ⟨⟨first, apart⟩, ih later⟩

namespace RuleFile

/-! ### Two headers -/

/-- The header with one target, in which a marker stands for the stem. -/
def Header.withStem (header : Header) (start finish : String) : Header :=
  { header with
    targets := [start ++ "%" ++ finish]
    traits := { header.traits with regex := false } }

/-- The header with one target, a regular expression in which a group stands for the stem; the
prerequisites refer to the group where they had a marker. -/
def Header.withGroup (header : Header) (start finish : String) : Header :=
  { header with
    targets := [Regex.escape start ++ "(.+)" ++ Regex.escape finish]
    prereqs := header.prereqs.map (Text.replace '%' "\\1")
    traits := { header.traits with regex := true } }

/-- The rule of the header with a stem. -/
def Header.stemRule (header : Header) (start finish : String) : StemRule :=
  { (header.withStem start finish).body with
    target := start ++ "%" ++ finish
    start := start
    finish := finish
    marker := '%'
    allowEmptyStem := header.traits.allowEmptyStem
    allTargets := [start ++ "%" ++ finish] }

/-- The rule of the header with a group. -/
def Header.groupRule (header : Header) (start finish : String) : RegexRule :=
  { (header.withGroup start finish).body with
    target := Regex.escape start ++ "(.+)" ++ Regex.escape finish
    regex := Regex.around start.toList finish.toList
    allTargets := [Regex.escape start ++ "(.+)" ++ Regex.escape finish] }

theorem Header.rules_withStem (header : Header) {start : String} (finish : String)
    (unmarked : ∀ c ∈ start.toList, isMarker c = false) :
    (header.withStem start finish).rules =
      .ok [.pattern (.stem (header.stemRule start finish))] := by
  have marked : isMarked (start ++ "%" ++ finish) = true := by
    unfold isMarked
    rw [toList_percent, List.any_append, List.any_cons, Bool.or_eq_true]
    exact Or.inr rfl
  have made : (header.withStem start finish).stemRule? (start ++ "%" ++ finish) =
      some (.pattern (.stem (header.stemRule start finish))) := by
    have before : ∀ c ∈ start.toList, (!isMarker c) = true := fun c member => by
      rw [unmarked c member]
      rfl
    have stops : (!isMarker '%') = false := rfl
    unfold stemRule?
    rw [toList_percent, List.span_eq_takeWhile_dropWhile, List.takeWhile_append_of_pos before,
      List.dropWhile_append_of_pos before, List.takeWhile_cons, List.dropWhile_cons, stops,
      if_neg Bool.false_ne_true, if_neg Bool.false_ne_true, List.append_nil]
    show some (Rule.pattern (.stem { (header.withStem start finish).body with
      target := start ++ "%" ++ finish
      start := String.ofList start.toList
      finish := String.ofList finish.toList
      marker := '%'
      allowEmptyStem := header.traits.allowEmptyStem
      allTargets := [start ++ "%" ++ finish] })) = _
    rw [String.ofList_toList, String.ofList_toList]
    rfl
  have any : (header.withStem start finish).targets.any isMarked = true :=
    List.any_eq_true.mpr ⟨_, List.mem_cons_self, marked⟩
  have all : (header.withStem start finish).targets.all isMarked = true :=
    List.all_eq_true.mpr fun _ member => List.mem_singleton.mp member ▸ marked
  have plain : (header.withStem start finish).traits.regex = false := rfl
  unfold rules
  rw [plain, if_neg Bool.false_ne_true, any, all, if_pos rfl, if_pos rfl]
  show Except.ok ([start ++ "%" ++ finish].filterMap _) = _
  rw [List.filterMap_cons, made]
  rfl

theorem Header.rules_withGroup (header : Header) (start finish : String) :
    (header.withGroup start finish).rules =
      .ok [.pattern (.regex (header.groupRule start finish))] := by
  have made : (header.withGroup start finish).regexRule
      (Regex.escape start ++ "(.+)" ++ Regex.escape finish) =
        .ok (.pattern (.regex (header.groupRule start finish))) := by
    unfold regexRule
    rw [Regex.read_around]
    rfl
  show [_].mapM (header.withGroup start finish).regexRule = _
  rw [List.mapM_cons, made]
  rfl

/-! ### Instances -/

/-- What both rules say about a name with something between the two texts. -/
def Header.found (header : Header) (name stem : String) : Instance where
  stem := stem
  groups := [stem]
  prereqs := header.prereqs.map fun prereq =>
    bind (fun name => (stemValues stem [stem]).get? name) (Text.replace '%' stem prereq)
  allTargets := [name]
  recipe := header.body.recipe.map (bind fun name => (stemValues stem [stem]).get? name)

section Instances

variable (header : Header) {start stem finish name : String}

theorem Header.stem?_stemRule (nonempty : stem ≠ "") :
    (header.stemRule start finish).stem? (start ++ stem ++ finish) = some stem := by
  have plain : (header.stemRule start finish).marker ≠ '&' := by
    show '%' ≠ '&'
    decide
  exact StemRule.stem?_eq_some_iff.mpr
    ⟨rfl, fun empty => absurd empty nonempty, fun narrow => absurd narrow plain⟩

/-- **What the stem rule says.** -/
theorem Header.instance?_stemRule (unmarked : '%' ∉ start.toList ++ finish.toList)
    (nonempty : stem ≠ "") :
    (header.stemRule start finish).instance? (start ++ stem ++ finish) =
      some (header.found (start ++ stem ++ finish) stem) := by
  rw [List.mem_append, not_or] at unmarked
  have filled : Text.replace '%' stem (start ++ "%" ++ finish) = start ++ stem ++ finish := by
    rw [← String.toList_inj, toList_around]
    unfold Text.replace
    rw [String.toList_ofList, toList_around, Chars.replace_append, Chars.replace_append,
      Chars.replace_of_notMem unmarked.1, Chars.replace_of_notMem unmarked.2]
    show _ ++ Chars.replace '%' stem.toList ['%'] ++ _ = _
    rw [Chars.replace_mark, show Chars.replace '%' stem.toList [] = [] from rfl, List.append_nil]
  unfold StemRule.instance?
  rw [header.stem?_stemRule nonempty]
  show some ({ header.found (start ++ stem ++ finish) stem with
    allTargets := [Text.replace '%' stem (start ++ "%" ++ finish)] } : Instance) = _
  rw [filled]
  rfl

/-- The prerequisites of the rule with a group, with what it has matched. -/
theorem Header.prereqs_filled (prereqs : ∀ prereq ∈ header.prereqs, '\\' ∉ prereq.toList)
    (values : String → Option String) :
    (header.withGroup start finish).prereqs.map (fun text => bind values (bindGroups [stem] text)) =
      header.prereqs.map fun prereq => bind values (Text.replace '%' stem prereq) := by
  show (header.prereqs.map (Text.replace '%' "\\1")).map _ = _
  rw [List.map_map]
  refine List.map_congr_left fun prereq member => ?_
  rw [Function.comp_apply, bindGroups_replace (prereqs prereq member)]

/-- The recipe refers to no group. -/
theorem Header.recipe_filled (recipe : ∀ line ∈ header.recipe, '\\' ∉ line.toList)
    (values : String → Option String) :
    header.body.recipe.map (fun text => bind values (bindGroups [stem] text)) =
      header.body.recipe.map (bind values) := by
  refine Option.map_congr fun text given => ?_
  unfold body at given
  split at given
  · cases given
  · obtain rfl := Option.some.inj given
    rw [bindGroups_of_notMem (Text.notMem_join (by decide) recipe)]

/-- **What the rule with a group says.** -/
theorem Header.instance?_groupRule (prereqs : ∀ prereq ∈ header.prereqs, '\\' ∉ prereq.toList)
    (recipe : ∀ line ∈ header.recipe, '\\' ∉ line.toList)
    (line : '\n' ∉ (start ++ stem ++ finish).toList) (nonempty : stem ≠ "") :
    (header.groupRule start finish).instance? (start ++ stem ++ finish) =
      some (header.found (start ++ stem ++ finish) stem) := by
  have matched : (header.groupRule start finish).regex.matchAll?
      (start ++ stem ++ finish).toList = some [stem.toList] :=
    (Regex.matchAll?_around_iff line).mpr
      ⟨stem.toList, by simpa using nonempty, toList_around start stem finish, rfl⟩
  have groups : [stem.toList].map String.ofList = [stem] := by
    rw [List.map_singleton, String.ofList_toList]
  unfold RegexRule.instance? Header.found
  rw [matched]
  dsimp only
  rw [groups, List.head?_cons, Option.getD_some]
  show some (Instance.mk _ _ ((header.withGroup start finish).prereqs.map _) _
    (header.body.recipe.map _)) = _
  rw [header.prereqs_filled prereqs, header.recipe_filled recipe]

/-- **The two rules say the same about a name** in one line, unless the stem is empty. -/
theorem Header.stemRule_eq_groupRule (unmarked : '%' ∉ start.toList ++ finish.toList)
    (prereqs : ∀ prereq ∈ header.prereqs, '\\' ∉ prereq.toList)
    (recipe : ∀ line ∈ header.recipe, '\\' ∉ line.toList) (line : '\n' ∉ name.toList)
    (nonempty : header.traits.allowEmptyStem = true → name ≠ start ++ finish) :
    (header.stemRule start finish).instance? name =
      (header.groupRule start finish).instance? name := by
  by_cases between : ∃ stem, stem ≠ "" ∧ name = start ++ stem ++ finish
  · obtain ⟨stem, some, rfl⟩ := between
    rw [header.instance?_stemRule unmarked some,
      header.instance?_groupRule prereqs recipe line some]
  · have unmatched : (header.groupRule start finish).regex.matchAll? name.toList = none := by
      by_contra matched
      obtain ⟨found, fits⟩ := Option.ne_none_iff_exists'.mp matched
      obtain ⟨stem, some, letters, -⟩ := (Regex.matchAll?_around_iff line).mp fits
      refine between ⟨String.ofList stem, by simpa using some, ?_⟩
      rw [← String.toList_inj, toList_around, String.toList_ofList, letters]
    have unfit : (header.stemRule start finish).stem? name = none := by
      by_contra matched
      obtain ⟨stem, fits⟩ := Option.ne_none_iff_exists'.mp matched
      obtain ⟨letters, admitted⟩ := StemRule.stem?_eq_some_iff.mp fits
      by_cases empty : stem = ""
      · refine nonempty (admitted.1 empty) (letters.trans ?_)
        show start ++ stem ++ finish = start ++ finish
        rw [empty, String.append_empty]
      · exact between ⟨stem, empty, letters⟩
    unfold StemRule.instance? RegexRule.instance?
    rw [unmatched, unfit]

end Instances

/-- **Stem rules agree with rules that have a group.**  Where a header with the target
`start%finish` and one with the regular expression for the same names have the same recipe, and the
prerequisites of the second one refer to its group where those of the first one have a marker, both
declare one rule, and the two rules say the same about every name in one line: that they do not fit,
or the same stem, groups, prerequisites, targets and recipe.  Only the empty stem, where a header
allows it, is no match for the group. -/
theorem stem_agrees_with_group (header : Header) (start finish : String)
    (unmarked : ∀ c ∈ start.toList ++ finish.toList, isMarker c = false)
    (prereqs : ∀ prereq ∈ header.prereqs, '\\' ∉ prereq.toList)
    (recipe : ∀ line ∈ header.recipe, '\\' ∉ line.toList) :
    ∃ stemRule groupRule,
      (header.withStem start finish).rules = .ok [.pattern (.stem stemRule)] ∧
      (header.withGroup start finish).rules = .ok [.pattern (.regex groupRule)] ∧
      ∀ name : String, '\n' ∉ name.toList →
        (header.traits.allowEmptyStem = true → name ≠ start ++ finish) →
          stemRule.instance? name = groupRule.instance? name := by
  have plain : '%' ∉ start.toList ++ finish.toList := fun member => by
    cases unmarked '%' member
  exact ⟨header.stemRule start finish, header.groupRule start finish,
    header.rules_withStem finish fun c member => unmarked c (List.mem_append_left _ member),
    header.rules_withGroup start finish, fun name line nonempty =>
      header.stemRule_eq_groupRule plain prereqs recipe line nonempty⟩

/-- A header whose prerequisites mark the stem and refer to it. -/
def memberHeader : Header where
  targets := []
  prereqs := ["%.c", "$stem.h", "lib/%%"]
  traits := {}
  location := ⟨"mkfile", 1⟩
  recipe := ["ar $stem1", "ranlib lib"]

/-- The members of a library: what stands between the brackets looks like a reference. -/
theorem stem_agrees_with_group_member : ∃ stemRule groupRule,
    (memberHeader.withStem "lib(" ".o)").rules = .ok [.pattern (.stem stemRule)] ∧
    (memberHeader.withGroup "lib(" ".o)").rules = .ok [.pattern (.regex groupRule)] ∧
    stemRule.instance? "lib(a$1.o)" = groupRule.instance? "lib(a$1.o)" ∧
    groupRule.instance? "lib(a$1.o)" = some {
      stem := "a$1"
      groups := ["a$1"]
      prereqs := ["a$1.c", "a$1.h", "lib/a$1a$1"]
      allTargets := ["lib(a$1.o)"]
      recipe := some "ar a$1\nranlib lib" } := by
  obtain ⟨stemRule, groupRule, stem, group, agree⟩ :=
    stem_agrees_with_group memberHeader "lib(" ".o)" (by simp [isMarker]) (by decide) (by decide)
  have same : groupRule = memberHeader.groupRule "lib(" ".o)" := by
    have rules := Except.ok.inj (group.symm.trans (memberHeader.rules_withGroup "lib(" ".o)"))
    cases rules
    rfl
  refine ⟨stemRule, groupRule, stem, group, agree _ (by decide) (by decide), ?_⟩
  rw [same]
  decide +kernel

end RuleFile

end BuildSystem
