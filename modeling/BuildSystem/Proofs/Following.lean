/-
**Computations that follow others, and computations that end alike.**

* `bind_eq_of_ok`, `bind_eq_of_error`, `exists_of_bind_eq_ok`, `exists_of_map_eq_ok` — a computation
  after another one has a result exactly if both have.
* `Follows` — wherever a first computation has a result, a second one has a related result and
  leaves the same state behind.
* `ResultsAlike`, `ResultsAlike.mapM` — two results that are related, or two failures that are.
* `EndAlike`, `Agree` — two computations both have results that are related, or both fail with failures
  that are related, and they leave the same state behind; one way, only the results of the first one
  count.
* `Agree.follows` — then the second one follows the first one.
* `Agree.bind`, `Agree.tryCatch`, `Agree.accepted` — composed computations agree if their parts do.
* `Agree.foldlM` — loops agree if their steps do.
-/

import BuildSystem.Failure
import BuildSystem.Proofs.Ending
import Mathlib.Data.List.Forall2

namespace BuildSystem

/-! ### Computations one after another -/

/-- A computation after one that has a result. -/
theorem bind_eq_of_ok {ε σ α β : Type} {first : EStateM ε σ β} {next : β → EStateM ε σ α}
    {value : β} {state after : σ} (made : first state = .ok value after) :
    (first >>= next) state = next value after := by
  show EStateM.bind first next state = _
  unfold EStateM.bind
  rw [made]

/-- A computation after one that fails. -/
theorem bind_eq_of_error {ε σ α β : Type} {first : EStateM ε σ β} {next : β → EStateM ε σ α}
    {failure : ε} {state after : σ} (failed : first state = .error failure after) :
    (first >>= next) state = .error failure after := by
  show EStateM.bind first next state = _
  unfold EStateM.bind
  rw [failed]

/-- A computation after another one has a result only if that one has. -/
theorem exists_of_bind_eq_ok {ε σ α β : Type} {first : EStateM ε σ β} {next : β → EStateM ε σ α}
    {value : α} {state after : σ} (made : (first >>= next) state = .ok value after) :
    ∃ middle world, first state = .ok middle world ∧ next middle world = .ok value after := by
  cases begun : first state with
  | ok middle world =>
    rw [bind_eq_of_ok begun] at made
    exact ⟨middle, world, rfl, made⟩
  | error failure world =>
    rw [bind_eq_of_error begun] at made
    cases made

/-- A result under a function comes from a result. -/
theorem exists_of_map_eq_ok {ε α β : Type} {first : Except ε β} {next : β → α} {value : α}
    (made : first.map next = .ok value) : ∃ middle, first = .ok middle ∧ next middle = value := by
  cases first with
  | ok middle => exact ⟨middle, rfl, Except.ok.inj made⟩
  | error failure => cases made

/-! ### Following and agreeing -/

/-- **A second computation follows a first one**: wherever the first one has a result, the second
one has a related result and leaves the same state behind. -/
def Follows {ε σ α β : Type} (related : α → β → Prop) (first : EStateM ε σ α)
    (second : EStateM ε σ β) : Prop :=
  ∀ state, Ends (fun one after => ∃ two, second state = .ok two after ∧ related one two)
    (fun _ _ => True) (first state)

/-- **Two results are alike**: both are there and related, or both are failures that are related. -/
inductive ResultsAlike {ε α β : Type} (related : α → β → Prop) (blamed : ε → ε → Prop) :
    Except ε α → Except ε β → Prop
  | ok {one : α} {two : β} (relates : related one two) :
      ResultsAlike related blamed (.ok one) (.ok two)
  | error {failure failure' : ε} (blames : blamed failure failure') :
      ResultsAlike related blamed (.error failure) (.error failure')

/-- **What is made from the members of a list is alike**, or fails for the same member. -/
theorem ResultsAlike.mapM {ε α β γ : Type} {image : β → γ} {blamed : ε → ε → Prop}
    {make : α → Except ε β} {make' : α → Except ε γ}
    (makes : ∀ item, ResultsAlike (fun one two => two = image one) blamed (make item) (make' item))
    (items : List α) : ResultsAlike (fun one two => two = one.map image) blamed (items.mapM make)
      (items.mapM make') := by
  induction items with
  | nil => exact .ok rfl
  | cons item rest ih =>
    rw [List.mapM_cons, List.mapM_cons]
    have alike := makes item
    generalize make item = made at alike ⊢
    generalize make' item = made' at alike ⊢
    cases alike with
    | error blames => exact .error blames
    | ok same =>
      generalize rest.mapM make = others at ih ⊢
      generalize rest.mapM make' = others' at ih ⊢
      cases ih with
      | error blames => exact .error blames
      | ok more => exact .ok (by rw [same, more, List.map_cons])

/-- **Two computations have ended alike**: with results that are related, or with failures that are
related, and in the same state. -/
inductive EndAlike {ε σ α β : Type} (related : α → β → Prop) (blamed : ε → ε → Prop) :
    EStateM.Result ε σ α → EStateM.Result ε σ β → Prop
  | ok {one : α} {two : β} {after : σ} (relates : related one two) :
      EndAlike related blamed (.ok one after) (.ok two after)
  | error {failure failure' : ε} {after : σ} (blames : blamed failure failure') :
      EndAlike related blamed (.error failure after) (.error failure' after)

theorem EndAlike.imp {ε σ α β : Type} {related related' : α → β → Prop} {blamed blamed' : ε → ε → Prop}
    {result : EStateM.Result ε σ α} {result' : EStateM.Result ε σ β}
    (alike : EndAlike related blamed result result')
    (relates : ∀ one two, related one two → related' one two)
    (blames : ∀ failure failure', blamed failure failure' → blamed' failure failure') :
    EndAlike related' blamed' result result' := by
  cases alike with
  | ok related => exact .ok (relates _ _ related)
  | error blamed => exact .error (blames _ _ blamed)

/-- **Two computations agree**: from every state they end alike.  If the comparison is only `oneWay`,
nothing is asked where the first one fails. -/
def Agree {ε σ α β : Type} (oneWay : Prop) (related : α → β → Prop) (blamed : ε → ε → Prop)
    (first : EStateM ε σ α) (second : EStateM ε σ β) : Prop :=
  ∀ state, EndAlike related blamed (first state) (second state) ∨
    oneWay ∧ ∃ failure after, first state = .error failure after

namespace Agree

variable {ε σ α β α' β' γ δ : Type} {oneWay : Prop} {related : α → β → Prop} {blamed : ε → ε → Prop}
  {first : EStateM ε σ α} {second : EStateM ε σ β}

/-- A computation that agrees with another one follows it. -/
theorem follows {related' : α → β → Prop} (agree : Agree oneWay related blamed first second)
    (implies : ∀ one two, related one two → related' one two) : Follows related' first second := by
  intro state
  rcases agree state with ends | ⟨_, failure, after, failed⟩
  · generalize first state = result at ends ⊢
    generalize second state = result' at ends ⊢
    cases ends with
    | ok relates => exact .ok ⟨_, rfl, implies _ _ relates⟩
    | error blames => exact .error trivial
  · rw [failed]
    exact .error trivial

theorem pure {one : α} {two : β} (relates : related one two) :
    Agree oneWay related blamed (Pure.pure one : EStateM ε σ α) (Pure.pure two) :=
  fun _ => Or.inl (.ok relates)

theorem throw {failure failure' : ε} (blames : blamed failure failure') :
    Agree oneWay related blamed (MonadExcept.throw failure : EStateM ε σ α)
      (MonadExcept.throw failure' : EStateM ε σ β) :=
  fun _ => Or.inl (.error blames)

/-- One way, a failure agrees with everything. -/
theorem of_throw {failure : ε} (blames : blamed failure failure)
    (same : ¬ oneWay → second = MonadExcept.throw failure) :
    Agree oneWay related blamed (MonadExcept.throw failure : EStateM ε σ α) second := by
  intro state
  by_cases way : oneWay
  · exact Or.inr ⟨way, failure, state, rfl⟩
  · rw [same way]
    exact Or.inl (.error blames)

theorem refl (same : ∀ failure, blamed failure failure) (first : EStateM ε σ α) :
    Agree oneWay Eq blamed first first := by
  intro state
  cases first state with
  | ok value after => exact Or.inl (.ok rfl)
  | error failure after => exact Or.inl (.error (same failure))

theorem bind {related' : α' → β' → Prop} {next : α → EStateM ε σ α'} {next' : β → EStateM ε σ β'}
    (agree : Agree oneWay related blamed first second)
    (goesOn : ∀ one two, related one two → Agree oneWay related' blamed (next one) (next' two)) :
    Agree oneWay related' blamed (first >>= next) (second >>= next') := by
  intro state
  show EndAlike _ _ (EStateM.bind first next state) (EStateM.bind second next' state) ∨
    oneWay ∧ ∃ failure after, EStateM.bind first next state = .error failure after
  unfold EStateM.bind
  rcases agree state with ends | ⟨way, failure, after, failed⟩
  · generalize first state = result at ends ⊢
    generalize second state = result' at ends ⊢
    cases ends with
    | ok relates => exact goesOn _ _ relates _
    | error blames => exact Or.inl (.error blames)
  · rw [failed]
    exact Or.inr ⟨way, failure, after, rfl⟩

/-- Two computations that begin in the same way. -/
theorem same {related' : α' → β' → Prop} {next : α → EStateM ε σ α'} {next' : α → EStateM ε σ β'}
    (same : ∀ failure, blamed failure failure) (first : EStateM ε σ α)
    (goesOn : ∀ one, Agree oneWay related' blamed (next one) (next' one)) :
    Agree oneWay related' blamed (first >>= next) (first >>= next') :=
  (refl same first).bind fun one _ same => same ▸ goesOn one

/-- Failures may be replaced by other ones, and one way they must remain failures. -/
theorem tryCatch {blamed' : ε → ε → Prop} {handle : ε → EStateM ε σ α}
    {handle' : ε → EStateM ε σ β} (agree : Agree oneWay related blamed' first second)
    (fails : ∀ failure state, ∃ failure' after, handle failure state = .error failure' after)
    (handles : ¬ oneWay → ∀ failure failure', blamed' failure failure' →
      Agree oneWay related blamed (handle failure) (handle' failure')) :
    Agree oneWay related blamed (MonadExceptOf.tryCatch first handle)
      (MonadExceptOf.tryCatch second handle') := by
  intro state
  show EndAlike _ _ (EStateM.tryCatch first handle state) (EStateM.tryCatch second handle' state) ∨
    oneWay ∧ ∃ failure after, EStateM.tryCatch first handle state = .error failure after
  unfold EStateM.tryCatch
  rcases agree state with ends | ⟨way, failure, after, failed⟩
  · generalize first state = result at ends ⊢
    generalize second state = result' at ends ⊢
    cases ends with
    | ok relates => exact Or.inl (.ok relates)
    | error blames =>
      by_cases way : oneWay
      · exact Or.inr ⟨way, fails _ _⟩
      · exact handles way _ _ blames _
  · rw [failed]
    exact Or.inr ⟨way, fails failure after⟩

theorem accepted {blamed : Failure → Failure → Prop} {first : Except Failure α}
    {second : Except Failure β} (alike : ResultsAlike related blamed first second) :
    Agree oneWay related blamed (BuildSystem.accepted first : Action σ α)
      (BuildSystem.accepted second) := by
  cases alike with
  | ok relates => exact pure relates
  | error blames => exact throw blames

/-- **Loops agree if their steps do**, over lists whose members are related one by one. -/
theorem foldlM {paired : γ → δ → Prop} {step : α → γ → EStateM ε σ α} {step' : β → δ → EStateM ε σ β}
    (steps : ∀ item item' one two, paired item item' → related one two →
      Agree oneWay related blamed (step one item) (step' two item'))
    {items : List γ} {items' : List δ} (pairs : List.Forall₂ paired items items') {one : α} {two : β}
    (relates : related one two) :
    Agree oneWay related blamed (items.foldlM step one) (items'.foldlM step' two) := by
  induction pairs generalizing one two with
  | nil => exact pure relates
  | cons paired _ ih =>
    rw [List.foldlM_cons, List.foldlM_cons]
    exact (steps _ _ one two paired relates).bind fun _ _ relates => ih relates

end Agree

end BuildSystem
