/-
**Texts that are cut and replaced.**

* `Chars.isSome_splitFirst`, `Chars.splitFirst_append` — a text is cut at its first mark.
* `Chars.between_eq_some_iff`, `Chars.between_eq_none_iff` — what stands between a beginning and an
  end.
* `Chars.replace_eq_self_iff` — where replacing a mark changes nothing.
-/

import BuildSystem.Text.Search

namespace BuildSystem

theorem toList_around (start middle finish : String) :
    (start ++ middle ++ finish).toList = start.toList ++ middle.toList ++ finish.toList := by
  rw [String.toList_append, String.toList_append]

/-- A text with a percent sign between two others. -/
theorem toList_percent (start finish : String) :
    (start ++ "%" ++ finish).toList = start.toList ++ '%' :: finish.toList := by
  rw [toList_around, List.append_assoc]
  rfl

namespace Chars

/-! ### Texts cut at a mark -/

/-- A text has two sides exactly if the mark occurs in it. -/
theorem isSome_splitFirst {mark : Char} {text : List Char} :
    (splitFirst mark text).isSome = true ↔ mark ∈ text := by
  induction text with
  | nil => simp [splitFirst]
  | cons c rest ih =>
    by_cases here : c = mark
    · simp [splitFirst, here]
    · simp [splitFirst, here, Ne.symm here, ih]

/-- **A text is cut at its first mark.** -/
theorem splitFirst_append {mark : Char} {before : List Char} (absent : mark ∉ before)
    (after : List Char) : splitFirst mark (before ++ mark :: after) = some (before, after) := by
  induction before with
  | nil => exact if_pos rfl
  | cons c rest ih =>
    rw [List.mem_cons, not_or] at absent
    rw [List.cons_append, splitFirst, if_neg (Ne.symm absent.1), ih absent.2]
    rfl

/-! ### What stands between two texts -/

section Between

variable {start finish text stem : List Char}

/-- What stands between a beginning and an end does not overlap with them. -/
theorem eq_of_between (found : between start finish text = some stem) :
    text = start ++ stem ++ finish := by
  unfold between at found
  split at found
  · next fits =>
    obtain rfl := Option.some.inj found
    simp only [Bool.and_eq_true, decide_eq_true_eq, List.isPrefixOf_iff_prefix,
      List.isSuffixOf_iff_suffix] at fits
    obtain ⟨⟨long, ⟨rest, rfl⟩⟩, ends⟩ := fits
    rw [List.length_append] at long
    obtain ⟨middle, rfl⟩ : finish <:+ rest :=
      List.suffix_of_suffix_length_le ends (List.suffix_append start rest) (by omega)
    have length : (start ++ (middle ++ finish)).length - start.length - finish.length =
        middle.length := by
      simp only [List.length_append]
      omega
    rw [length, List.drop_left, List.take_left, List.append_assoc]
  · cases found

/-- What stands between a beginning and an end is found. -/
theorem between_append (start stem finish : List Char) :
    between start finish (start ++ stem ++ finish) = some stem := by
  have long : start.length + finish.length ≤ (start ++ stem ++ finish).length := by
    simp only [List.length_append]
    omega
  have begins : start.isPrefixOf (start ++ stem ++ finish) = true := by
    rw [List.isPrefixOf_iff_prefix, List.append_assoc]
    exact List.prefix_append _ _
  have ends : finish.isSuffixOf (start ++ stem ++ finish) = true := by
    rw [List.isSuffixOf_iff_suffix]
    exact List.suffix_append _ _
  have length : (start ++ stem ++ finish).length - start.length - finish.length = stem.length := by
    simp only [List.length_append]
    omega
  unfold between
  rw [begins, ends, decide_eq_true long, Bool.and_self, Bool.and_self, if_pos rfl, length,
    List.append_assoc, List.drop_left, List.take_left]

/-- **What stands between a beginning and an end** is what the text has besides them; there is at
most one such part. -/
theorem between_eq_some_iff :
    between start finish text = some stem ↔ text = start ++ stem ++ finish := by
  constructor
  · exact eq_of_between
  · rintro rfl
    exact between_append start stem finish

theorem between_eq_none_iff :
    between start finish text = none ↔ ∀ stem, text ≠ start ++ stem ++ finish := by
  rw [Option.eq_none_iff_forall_ne_some]
  exact forall_congr' fun _ => not_congr between_eq_some_iff

end Between

/-! ### Replaced characters -/

section Replace

variable {mark : Char} {value text : List Char}

theorem replace_append (mark : Char) (value one two : List Char) :
    replace mark value (one ++ two) = replace mark value one ++ replace mark value two :=
  List.flatMap_append

theorem replace_mark (mark : Char) (value rest : List Char) :
    replace mark value (mark :: rest) = value ++ replace mark value rest := by
  simp [replace]

theorem replace_other {c : Char} (other : c ≠ mark) (value rest : List Char) :
    replace mark value (c :: rest) = c :: replace mark value rest := by
  simp [replace, other]

/-- Where the mark does not occur nothing is replaced. -/
theorem replace_of_notMem (absent : mark ∉ text) (value : List Char) :
    replace mark value text = text := by
  induction text with
  | nil => rfl
  | cons c rest ih =>
    rw [List.mem_cons, not_or] at absent
    rw [replace_other (Ne.symm absent.1), ih absent.2]

/-- A mark that is replaced by nothing does not occur any more. -/
theorem notMem_replace_nil (mark : Char) (text : List Char) : mark ∉ replace mark [] text := by
  induction text with
  | nil => exact List.not_mem_nil
  | cons c rest ih =>
    by_cases same : c = mark
    · rw [same, replace_mark]
      exact ih
    · rw [replace_other same]
      rw [List.mem_cons, not_or]
      exact ⟨Ne.symm same, ih⟩

theorem length_le_replace (some : value ≠ []) (mark : Char) (text : List Char) :
    text.length ≤ (replace mark value text).length := by
  induction text with
  | nil => exact Nat.zero_le _
  | cons c rest ih =>
    have long : 0 < value.length := List.length_pos_iff.mpr some
    by_cases same : c = mark
    · rw [same, replace_mark, List.length_append, List.length_cons]
      omega
    · rw [replace_other same, List.length_cons, List.length_cons]
      omega

/-- **A text is not changed** exactly if the mark does not occur or is replaced by itself. -/
theorem replace_eq_self_iff : replace mark value text = text ↔ mark ∉ text ∨ value = [mark] := by
  induction text with
  | nil => simp [replace]
  | cons c rest ih =>
    by_cases same : c = mark
    · subst same
      rw [replace_mark]
      constructor
      · intro unchanged
        right
        cases value with
        | nil =>
          have absent := notMem_replace_nil c rest
          rw [show replace c [] rest = c :: rest from unchanged] at absent
          exact absurd List.mem_cons_self absent
        | cons first others =>
          rw [List.cons_append, List.cons.injEq] at unchanged
          obtain ⟨rfl, tail⟩ := unchanged
          have long := length_le_replace (List.cons_ne_nil first others) first rest
          have total := congrArg List.length tail
          rw [List.length_append] at total
          rw [List.length_eq_zero_iff.mp (show others.length = 0 by omega)]
      · rintro (absent | rfl)
        · exact absurd List.mem_cons_self absent
        · rw [ih.mpr (.inr rfl)]
          rfl
    · rw [replace_other same, List.cons.injEq, ih, List.mem_cons, not_or]
      simp [Ne.symm same]

end Replace

end Chars

end BuildSystem
