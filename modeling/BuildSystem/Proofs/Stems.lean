/-
**Stems of rules and of substitutions.**

A rule finds the stem of a name, and a substitution that of a word, between a fixed beginning and a
fixed end.

* `StemRule.stem?_eq_some_iff` — the stem of a name is what it has besides the two texts, if the
  rule admits it.
* `substitute_fitting`, `substitute_unfitting` — the words that fit the old pattern keep their stems
  in the new one, and the others are not changed.
* `substitute_substitute` — a substitution is undone by the one in the other direction.
* `StemRule.stem?_eq_some_iff_substitute` — a rule finds the stem that substitutions keep.
* `stems_exact` — both find exactly the stem that is there.
-/

import BuildSystem.Pattern
import BuildSystem.Proofs.Text.Search
import Mathlib.Data.Set.List

namespace BuildSystem

/-! ### The stem of a name -/

namespace StemRule

variable {rule : StemRule} {name stem : String}

/-- **The stems that a rule admits**: an empty one only if the rule allows it, and for the marker
`&` none with a slash or a dot. -/
def Admits (rule : StemRule) (stem : String) : Prop :=
  (stem = "" → rule.allowEmptyStem = true) ∧
    (rule.marker = '&' → '/' ∉ stem.toList ∧ '.' ∉ stem.toList)

instance (rule : StemRule) (stem : String) : Decidable (rule.Admits stem) :=
  inferInstanceAs (Decidable ((_ → _) ∧ (_ → _)))

theorem admits_ofList_iff {letters : List Char} : rule.Admits (String.ofList letters) ↔
    ¬(letters.isEmpty && !rule.allowEmptyStem) = true ∧
      ¬(rule.marker = '&' && letters.any fun c => c == '/' || c == '.') = true := by
  have filled : (String.ofList letters = "" → rule.allowEmptyStem = true) ↔
      ¬(letters.isEmpty && !rule.allowEmptyStem) = true := by
    simp
  have plain : '/' ∉ letters ∧ '.' ∉ letters ↔
      ¬(letters.any fun c => c == '/' || c == '.') = true := by
    simp only [List.any_eq_true, Bool.or_eq_true, beq_iff_eq]
    constructor
    · rintro ⟨slash, dot⟩ ⟨c, member, rfl | rfl⟩
      · exact slash member
      · exact dot member
    · intro none
      exact ⟨fun member => none ⟨_, member, .inl rfl⟩, fun member => none ⟨_, member, .inr rfl⟩⟩
  have narrow : (rule.marker = '&' → '/' ∉ letters ∧ '.' ∉ letters) ↔
      ¬(rule.marker = '&' && letters.any fun c => c == '/' || c == '.') = true := by
    rw [plain, Bool.and_eq_true, decide_eq_true_eq, not_and]
  rw [Admits, String.toList_ofList, filled, narrow]

/-- The stem is what stands between the two texts, unless the rule does not admit it. -/
theorem stem?_eq_filter (rule : StemRule) (name : String) : rule.stem? name =
    ((Chars.between rule.start.toList rule.finish.toList name.toList).map String.ofList).filter
      fun stem => rule.Admits stem := by
  unfold stem?
  split
  · next unfit =>
    rw [unfit]
    rfl
  · next letters found =>
    rw [found, Option.map_some, Option.filter_some]
    simp only [decide_eq_true_eq, admits_ofList_iff]
    split
    · next empty => simp [empty]
    · next filled =>
      split
      · next narrow => simp [narrow]
      · next plain => simp [filled, plain]

/-- **The stem of a name** is what the name has besides the two texts of the rule, if the rule
admits it. -/
theorem stem?_eq_some_iff : rule.stem? name = some stem ↔
    name = rule.start ++ stem ++ rule.finish ∧ rule.Admits stem := by
  have between : (Chars.between rule.start.toList rule.finish.toList name.toList).map String.ofList
      = some stem ↔ name = rule.start ++ stem ++ rule.finish := by
    rw [← String.toList_inj, toList_around, ← Chars.between_eq_some_iff, Option.map_eq_some_iff]
    constructor
    · rintro ⟨letters, found, rfl⟩
      rw [String.toList_ofList]
      exact found
    · intro found
      exact ⟨_, found, String.ofList_toList⟩
  rw [stem?_eq_filter, Option.filter_eq_some_iff, between, decide_eq_true_eq]

end StemRule

/-! ### The stems of words -/

section Substitution

variable {start finish before after : String}

/-- **Words that fit the old pattern keep their stems** in the new one. -/
theorem substitute_fitting (old : '%' ∉ start.toList) (new : '%' ∉ before.toList)
    (stems : List String) :
    substitute (start ++ "%" ++ finish) (before ++ "%" ++ after)
        (stems.map fun stem => start ++ stem ++ finish) =
      stems.map fun stem => before ++ stem ++ after := by
  unfold substitute
  rw [List.map_map]
  refine List.map_congr_left fun stem _ => ?_
  have kept : Chars.substitute (start.toList ++ '%' :: finish.toList)
      (before.toList ++ '%' :: after.toList) (start.toList ++ stem.toList ++ finish.toList) =
        before.toList ++ stem.toList ++ after.toList := by
    simp only [Chars.substitute, Chars.splitFirst_append old, Chars.splitFirst_append new,
      Chars.between_append]
  rw [Function.comp_apply, toList_percent, toList_percent, toList_around, kept, ← toList_around,
    String.ofList_toList]

/-- **Words that do not fit the old pattern are not changed.** -/
theorem substitute_unfitting (old : '%' ∉ start.toList) (new : String) {words : List String}
    (unfitting : ∀ word ∈ words, ¬∃ stem, word = start ++ stem ++ finish) :
    substitute (start ++ "%" ++ finish) new words = words := by
  unfold substitute
  refine (List.map_congr_left fun word member => ?_).trans words.map_id
  have none : Chars.between start.toList finish.toList word.toList = none := by
    refine Chars.between_eq_none_iff.mpr fun letters same => ?_
    apply unfitting word member
    use String.ofList letters
    rw [← String.toList_inj, toList_around, String.toList_ofList, same]
  have kept : Chars.substitute (start.toList ++ '%' :: finish.toList) new.toList word.toList =
      word.toList := by
    simp only [Chars.substitute, Chars.splitFirst_append old, none]
  rw [toList_percent, kept, String.ofList_toList]
  rfl

/-- Words that all fit a pattern have a list of stems. -/
theorem exists_stems {words : List String}
    (fitting : ∀ word ∈ words, ∃ stem, word = start ++ stem ++ finish) :
    ∃ stems : List String, (stems.map fun stem => start ++ stem ++ finish) = words := by
  show words ∈ Set.range (List.map fun stem => start ++ stem ++ finish)
  rw [Set.range_list_map]
  intro word member
  obtain ⟨stem, rfl⟩ := fitting word member
  exact ⟨stem, rfl⟩

/-- **A substitution is undone by the one in the other direction**, on words that all fit. -/
theorem substitute_substitute (old : '%' ∉ start.toList) (new : '%' ∉ before.toList)
    {words : List String} (fitting : ∀ word ∈ words, ∃ stem, word = start ++ stem ++ finish) :
    substitute (before ++ "%" ++ after) (start ++ "%" ++ finish)
      (substitute (start ++ "%" ++ finish) (before ++ "%" ++ after) words) = words := by
  obtain ⟨stems, rfl⟩ := exists_stems fitting
  rw [substitute_fitting old new, substitute_fitting new old]

/-- **A rule finds the stem that substitutions keep**: what every substitution with the rule's two
texts as the old pattern puts into the new one, if the rule admits it. -/
theorem StemRule.stem?_eq_some_iff_substitute {rule : StemRule} (old : '%' ∉ rule.start.toList)
    {name stem : String} : rule.stem? name = some stem ↔ rule.Admits stem ∧
      ∀ before after : String, '%' ∉ before.toList →
        substitute (rule.start ++ "%" ++ rule.finish) (before ++ "%" ++ after) [name] =
          [before ++ stem ++ after] := by
  rw [stem?_eq_some_iff, and_comm]
  refine and_congr_right fun _ => ⟨?_, fun keeps => ?_⟩
  · rintro rfl before after new
    exact substitute_fitting old new [stem]
  · by_cases fitting : ∃ found, name = rule.start ++ found ++ rule.finish
    · -- Between two empty texts the new pattern leaves nothing but the stem.
      obtain ⟨found, rfl⟩ := fitting
      have new : '%' ∉ "".toList := List.not_mem_nil
      have alone := (substitute_fitting old new [found]).symm.trans (keeps "" "" new)
      obtain rfl : found = stem := by simpa using alone
      rfl
    · -- A name that is not changed would have to be the stem with and without a letter before it.
      have unchanged : ∀ before : String, '%' ∉ before.toList → name = before ++ stem ++ "" := by
        intro before new
        have kept := substitute_unfitting old (before ++ "%" ++ "")
          (List.forall_mem_singleton.mpr fitting)
        exact List.singleton_inj.mp (kept.symm.trans (keeps before "" new))
      have lengths := congrArg (·.toList.length)
        ((unchanged "" (by decide)).symm.trans (unchanged "x" (by decide)))
      simp at lengths

end Substitution

/-- **Stems are found exactly.**  A rule finds a stem in a name exactly if the name consists of the
rule's beginning, the stem and the rule's end, and the rule admits the stem.  A substitution of a
pattern by another one puts the stem of a word between the two texts of the new pattern, if the word
consists of the first text of the old one, the stem and the second, and leaves every other word as
it is; so the substitution in the other direction gives back all words that fit the old pattern.
And the two agree: a rule finds the stem that substitutions keep.  Only what stands before the mark
of a pattern must be free of it. -/
theorem stems_exact :
    (∀ (rule : StemRule) (name stem : String), rule.stem? name = some stem ↔
      name = rule.start ++ stem ++ rule.finish ∧ rule.Admits stem) ∧
    (∀ start finish before after : String, '%' ∉ start.toList → '%' ∉ before.toList →
      (∀ name stem, name = start ++ stem ++ finish →
        substitute (start ++ "%" ++ finish) (before ++ "%" ++ after) [name] =
          [before ++ stem ++ after]) ∧
      (∀ name, (¬∃ stem, name = start ++ stem ++ finish) →
        substitute (start ++ "%" ++ finish) (before ++ "%" ++ after) [name] = [name]) ∧
      (∀ words : List String, (∀ word ∈ words, ∃ stem, word = start ++ stem ++ finish) →
        substitute (before ++ "%" ++ after) (start ++ "%" ++ finish)
          (substitute (start ++ "%" ++ finish) (before ++ "%" ++ after) words) = words)) ∧
    (∀ (rule : StemRule) (name stem : String), '%' ∉ rule.start.toList →
      (rule.stem? name = some stem ↔ rule.Admits stem ∧
        ∀ before after : String, '%' ∉ before.toList →
          substitute (rule.start ++ "%" ++ rule.finish) (before ++ "%" ++ after) [name] =
            [before ++ stem ++ after])) := by
  refine ⟨fun rule name stem => StemRule.stem?_eq_some_iff, ?_, ?_⟩
  · intro start finish before after old new
    refine ⟨?_, ?_, fun words fitting => substitute_substitute old new fitting⟩
    · rintro name stem rfl
      exact substitute_fitting old new [stem]
    · intro name unfitting
      exact substitute_unfitting old _ (List.forall_mem_singleton.mpr unfitting)
  · intro rule name stem old
    exact StemRule.stem?_eq_some_iff_substitute old

/-- A rule whose beginning and end overlap in a short name. -/
def framedRule : StemRule where
  prereqs := []
  recipe := some "touch $target"
  attributes := {}
  comparator := none
  location := ⟨"mkfile", 1⟩
  target := "x_&_x"
  start := "x_"
  finish := "_x"
  marker := '&'
  allowEmptyStem := false
  allTargets := ["x_&_x"]

/-- The shortest name has no stem, and another one has a stem that repeats the two texts around a
mark. -/
theorem stems_exact_framed :
    framedRule.Admits "x_%_x" ∧ framedRule.stem? "x_x_%_x_x" = some "x_%_x" ∧
    framedRule.stem? "x__x" ≠ some "" ∧
    '%' ∉ "x_".toList ∧ '%' ∉ "lib/".toList ∧
    substitute "x_%_x" "lib/%%.o" ["x_x_%_x_x"] = ["lib/x_%_x%.o"] ∧
    (¬∃ stem, "x_x" = "x_" ++ stem ++ "_x") ∧
    substitute "x_%_x" "lib/%%.o" ["x_x"] = ["x_x"] ∧
    substitute "x_%_x" "%" ["x_x_%_x_x"] = ["x_%_x"] ∧
    (∀ word ∈ ["x__x", "x_x_%_x_x"], ∃ stem, word = "x_" ++ stem ++ "_x") ∧
    substitute "lib/%%.o" "x_%_x" (substitute "x_%_x" "lib/%%.o" ["x__x", "x_x_%_x_x"]) =
      ["x__x", "x_x_%_x_x"] := by
  have old : '%' ∉ "x_".toList := by decide
  have new : '%' ∉ "lib/".toList := by decide
  have short : ¬∃ stem, "x_x" = "x_" ++ stem ++ "_x" := by
    rintro ⟨stem, same⟩
    have lengths := congrArg (·.toList.length) same
    simp at lengths
  have fitting : ∀ word ∈ ["x__x", "x_x_%_x_x"], ∃ stem, word = "x_" ++ stem ++ "_x" :=
    List.forall_mem_cons.mpr ⟨⟨"", rfl⟩, List.forall_mem_singleton.mpr ⟨"x_%_x", rfl⟩⟩
  have admitted : framedRule.Admits "x_%_x" := by decide
  obtain ⟨fits, substituted, agree⟩ := stems_exact
  obtain ⟨kept, unchanged, undone⟩ := substituted "x_" "_x" "lib/" "%.o" old new
  have found : framedRule.stem? "x_x_%_x_x" = some "x_%_x" :=
    (fits framedRule _ _).mpr ⟨rfl, admitted⟩
  have alone := ((agree framedRule _ _ old).mp found).2 "" "" List.not_mem_nil
  refine ⟨admitted, found, fun empty => ?_, old, new, kept _ "x_%_x" rfl, short,
    unchanged _ short, alone, fitting, undone _ fitting⟩
  exact absurd ((fits framedRule _ _).mp empty).2 (by decide)

end BuildSystem
