/-
**How computations with a state end.**

* `Ends` — one property for the results of a computation and one for its failures.
* `Ends.bind`, `Ends.andThen`, `Ends.get`, `Ends.tryCatch` — the property of a composed computation
  from those of its parts.
* `Ends.foldlM_along`, `Ends.forM` — the property of a loop from what its steps keep.
* `Ends.exists_ok` — a computation that cannot fail has a result.
-/

namespace BuildSystem

/-- `good` holds after a result, and `bad` after a failure. -/
inductive Ends {ε σ α : Type} (good : α → σ → Prop) (bad : ε → σ → Prop) :
    EStateM.Result ε σ α → Prop
  | ok {value : α} {after : σ} (holds : good value after) : Ends good bad (.ok value after)
  | error {failure : ε} {after : σ} (holds : bad failure after) :
      Ends good bad (.error failure after)

namespace Ends

variable {ε σ α β : Type} {good : α → σ → Prop} {bad : ε → σ → Prop}

theorem of_ok {value : α} {after : σ} (ends : Ends good bad (.ok value after)) :
    good value after := by
  cases ends with
  | ok holds => exact holds

theorem of_error {failure : ε} {after : σ} (ends : Ends good bad (.error failure after)) :
    bad failure after := by
  cases ends with
  | error holds => exact holds

/-- A computation that cannot fail has a result. -/
theorem exists_ok {result : EStateM.Result ε σ α} (ends : Ends good (fun _ _ => False) result) :
    ∃ value after, result = .ok value after ∧ good value after := by
  cases ends with
  | @ok value after holds => exact ⟨value, after, rfl, holds⟩
  | error impossible => exact impossible.elim

/-- Every computation ends somehow. -/
theorem somehow (result : EStateM.Result ε σ α) :
    Ends (fun _ _ => True) (fun _ _ => True) result := by
  cases result with
  | ok value after => exact .ok trivial
  | error failure after => exact .error trivial

/-- Weaker properties hold too. -/
theorem mono {good' : α → σ → Prop} {bad' : ε → σ → Prop} {result : EStateM.Result ε σ α}
    (ends : Ends good bad result) (better : ∀ value after, good value after → good' value after)
    (worse : ∀ failure after, bad failure after → bad' failure after) : Ends good' bad' result := by
  cases ends with
  | @ok value after holds => exact .ok (better value after holds)
  | @error failure after holds => exact .error (worse failure after holds)

theorem imp {good' : α → σ → Prop} {result : EStateM.Result ε σ α} (ends : Ends good bad result)
    (better : ∀ value after, good value after → good' value after) : Ends good' bad result :=
  ends.mono better fun _ _ failed => failed

/-- Two properties of one computation. -/
theorem and {good' : α → σ → Prop} {bad' : ε → σ → Prop} {result : EStateM.Result ε σ α}
    (ends : Ends good bad result) (ends' : Ends good' bad' result) :
    Ends (fun value after => good value after ∧ good' value after)
      (fun failure after => bad failure after ∧ bad' failure after) result := by
  cases ends with
  | ok holds => exact .ok ⟨holds, ends'.of_ok⟩
  | error holds => exact .error ⟨holds, ends'.of_error⟩

/-- A computation that cannot fail has every property after a failure. -/
theorem never {result : EStateM.Result ε σ α} (ends : Ends good (fun _ _ => False) result) :
    Ends good bad result :=
  ends.mono (fun _ _ holds => holds) fun _ _ => False.elim

/-- One computation after another. -/
theorem bind {first : EStateM ε σ β} {next : β → EStateM ε σ α} {state : σ}
    (ends : Ends (fun value after => Ends good bad (next value after)) bad (first state)) :
    Ends good bad ((first >>= next) state) := by
  show Ends good bad (EStateM.bind first next state)
  unfold EStateM.bind
  cases result : first state with
  | ok value after =>
    rw [result] at ends
    exact ends.of_ok
  | error failure after =>
    rw [result] at ends
    exact .error ends.of_error

/-- A computation whose result is turned into another one. -/
theorem map {first : EStateM ε σ β} {next : β → α} {state : σ}
    (ends : Ends (fun value after => good (next value) after) bad (first state)) :
    Ends good bad ((next <$> first) state) := by
  show Ends good bad (EStateM.map next first state)
  unfold EStateM.map
  cases result : first state with
  | ok value after =>
    rw [result] at ends
    exact .ok ends.of_ok
  | error failure after =>
    rw [result] at ends
    exact .error ends.of_error

/-- Whatever a first computation ends in, the second one has the last word, if failures do not
matter. -/
theorem andThen {first : EStateM ε σ β} {next : β → EStateM ε σ α} (state : σ)
    (ends : ∀ value after, Ends good (fun _ _ => True) (next value after)) :
    Ends good (fun _ _ => True) ((first >>= next) state) := by
  refine bind ?_
  cases first state with
  | ok value after => exact .ok (ends value after)
  | error failure after => exact .error trivial

/-- A computation that begins with a look at the state. -/
theorem get {next : σ → EStateM ε σ α} {state : σ} (ends : Ends good bad (next state state)) :
    Ends good bad ((MonadState.get >>= next : EStateM ε σ α) state) :=
  ends

/-- A computation whose failures are handled. -/
theorem tryCatch {action : EStateM ε σ α} {handle : ε → EStateM ε σ α} {state : σ}
    (ends : Ends good (fun failure after => Ends good bad (handle failure after)) (action state)) :
    Ends good bad ((MonadExceptOf.tryCatch action handle : EStateM ε σ α) state) := by
  show Ends good bad (EStateM.tryCatch action handle state)
  unfold EStateM.tryCatch
  cases result : action state with
  | ok value after =>
    rw [result] at ends
    exact .ok ends.of_ok
  | error failure after =>
    rw [result] at ends
    exact ends.of_error

/-- A fold whose invariant speaks of the members that are done. -/
theorem foldlM_along {step : β → α → EStateM ε σ β} {bad : ε → σ → Prop} {items : List α}
    {start : β} (holds : List α → β → σ → Prop)
    (keeps : ∀ before item after found state, items = before ++ item :: after →
      holds before found state → Ends (holds (before ++ [item])) bad (step found item state))
    (state : σ) (begins : holds [] start state) :
    Ends (holds items) bad (items.foldlM step start state) := by
  have rest : ∀ after before found state, items = before ++ after → holds before found state →
      Ends (holds items) bad (after.foldlM step found state) := by
    intro after
    induction after with
    | nil =>
      intro before found state split kept
      rw [split, List.append_nil]
      exact .ok kept
    | cons item after ih =>
      intro before found state split kept
      have shifted : items = (before ++ [item]) ++ after := by simp [split]
      rw [List.foldlM_cons]
      refine bind ((keeps before item after found state split kept).imp ?_)
      intro result later kept
      exact ih (before ++ [item]) result later shifted kept
  exact rest items [] start state rfl begins

/-- Computations for all members of a list; the invariant speaks of the members that are left. -/
theorem forM (holds : List α → σ → Prop) {step : α → EStateM ε σ Unit} {bad : ε → σ → Prop}
    {items : List α}
    (keeps : ∀ item rest state, holds (item :: rest) state →
      Ends (fun _ after => holds rest after) bad (step item state))
    (state : σ) (start : holds items state) :
    Ends (fun _ after => holds [] after) bad (items.forM step state) := by
  induction items generalizing state with
  | nil => exact .ok start
  | cons item rest ih =>
    show Ends _ bad ((step item >>= fun _ => rest.forM step) state)
    exact bind ((keeps item rest state start).imp fun _ after kept => ih after kept)

end Ends

end BuildSystem
