/-
**Lists without repetitions.**

* `distinct` — the members of a list, each once, in the order of their first occurrence.
* `mem_distinct` — no member is lost and none is added.
* `nodup_distinct` — no member occurs twice.
* `distinct_eq_eraseDups` — the same list as the library's, which looks at the rest only when later
  occurrences of the first member are gone.
-/

namespace BuildSystem

variable {α : Type} [DecidableEq α]

/-- The members of a list, each once, in the order of their first occurrence. -/
def distinct : List α → List α
  | [] => []
  | a :: rest => a :: (distinct rest).filter (· ≠ a)

/-- No member is lost and none is added. -/
@[simp] theorem mem_distinct {a : α} {list : List α} : a ∈ distinct list ↔ a ∈ list := by
  induction list with
  | nil => simp [distinct]
  | cons b rest ih =>
    by_cases same : a = b <;> simp [distinct, ih, same]

/-- No member occurs twice. -/
theorem nodup_distinct (list : List α) : (distinct list).Nodup := by
  induction list with
  | nil => simp [distinct]
  | cons b rest ih =>
    simp only [distinct, List.nodup_cons, List.mem_filter]
    exact ⟨by simp, ih.filter _⟩

/-- It does not matter whether members are left out before or after. -/
theorem distinct_filter (keep : α → Bool) (list : List α) :
    distinct (list.filter keep) = (distinct list).filter keep := by
  induction list with
  | nil => rfl
  | cons a rest ih =>
    by_cases kept : keep a = true
    · rw [List.filter_cons_of_pos kept, distinct, distinct, List.filter_cons_of_pos kept, ih,
        List.filter_filter, List.filter_filter]
      exact congrArg _ (List.filter_congr fun b _ => Bool.and_comm _ _)
    · rw [List.filter_cons_of_neg kept, distinct, List.filter_cons_of_neg kept, ih,
        List.filter_filter]
      refine List.filter_congr fun b _ => ?_
      by_cases same : b = a
      · rw [same]
        simpa using kept
      · simp [same]

/-- Looking at the rest last or first gives the same list. -/
theorem distinct_eq_eraseDups (list : List α) : distinct list = list.eraseDups := by
  -- The library's recursion is on the filtered rest, so the induction is on a bound of the length.
  have bounded : ∀ (bound : Nat) (list : List α), list.length ≤ bound →
      distinct list = list.eraseDups := by
    intro bound
    induction bound with
    | zero =>
      intro list short
      rw [List.eq_nil_of_length_eq_zero (Nat.le_zero.mp short)]
      rfl
    | succ bound ih =>
      intro list short
      cases list with
      | nil => rfl
      | cons a rest =>
        have shorter : (rest.filter fun b => decide (b ≠ a)).length ≤ bound :=
          Nat.le_trans (List.length_filter_le _ rest) (Nat.le_of_succ_le_succ short)
        have sameTest : (fun b => !b == a) = fun b => decide (b ≠ a) := by
          funext b
          by_cases same : b = a <;> simp [same]
        rw [distinct, List.eraseDups_cons, sameTest, ← distinct_filter, ih _ shorter]
  exact bounded list.length list (Nat.le_refl _)

end BuildSystem
