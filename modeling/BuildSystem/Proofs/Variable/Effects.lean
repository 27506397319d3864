/-
**How the expansion of a text can end.**

All effects of an expansion are those of the commands in the text.

* `Expander.Answers` — what is known of the states that commands leave, and of their failures.
* `Expander.ends_step`, `Expander.ends_finish` — one character, and the end of the text.
* `Expander.ends_words`, `Expander.ends_text` — a text is expanded in a usual state, or the
  expansion fails with an error of its own or with a failure that a command raises.
-/

import BuildSystem.Proofs.Ending
import BuildSystem.Variable.Expansion

namespace BuildSystem

/-- A failure is an error of an expansion, or it is of a kind that commands raise. -/
def Failure.OfExpansion (raised : Failure → Prop) (failure : Failure) : Prop :=
  (∃ error, failure = .expansion error) ∨ raised failure

namespace Expander

variable {σ : Type} {expander : Expander σ} {usual : σ → Prop} {raised : Failure → Prop}

/-- **Commands keep the state usual, and their failures are of a known kind.** -/
def Answers (expander : Expander σ) (usual : σ → Prop) (raised : Failure → Prop) : Prop :=
  ∀ command state, usual state →
    Ends (fun _ after => usual after) (fun failure _ => raised failure)
      (expander.output command state)

/-- How an expansion ends: in a usual state, or with a failure of a known kind. -/
abbrev EndsUsual {α : Type} (usual : σ → Prop) (raised : Failure → Prop) :
    EStateM.Result Failure σ α → Prop :=
  Ends (fun _ after => usual after) (fun failure _ => failure.OfExpansion raised)

theorem ends_addReference (expander : Expander σ) (body : List Char) (words : Words) {state : σ}
    (start : usual state) : EndsUsual usual raised (expander.addReference body words state) := by
  unfold addReference
  split
  · exact .ok start
  · cases expander.referenced body with
    | ok found => exact .ok start
    | error error => exact .error (.inl ⟨error, rfl⟩)

theorem ends_addOutput (answers : expander.Answers usual raised) (command : List Char)
    (words : Words) {state : σ} (start : usual state) :
    EndsUsual usual raised (expander.addOutput command words state) :=
  Ends.bind ((answers _ state start).mono (fun _ _ kept => .ok kept) fun _ _ fails => .inr fails)

/-- **One character has no effects other than those of a command that it ends.** -/
theorem ends_step (answers : expander.Answers usual raised) (reached : Position × Words) (c : Char)
    {state : σ} (start : usual state) : EndsUsual usual raised (expander.step reached c state) := by
  obtain ⟨position, words⟩ := reached
  unfold step
  cases position with
  | outside => exact .ok start
  | reference read =>
    dsimp only
    split
    · exact Ends.bind ((expander.ends_addReference read words start).imp fun _ _ kept => .ok kept)
    · exact .ok start
  | command read =>
    dsimp only
    split
    · exact Ends.bind ((ends_addOutput answers read words start).imp fun _ _ kept => .ok kept)
    · exact .ok start
  | dollar | name | backquote | quoted | quoteSeen =>
    dsimp only
    repeat' split
    all_goals exact .ok start

theorem ends_finish (expander : Expander σ) (reached : Position × Words) {state : σ}
    (start : usual state) : EndsUsual usual raised (expander.finish reached state) := by
  obtain ⟨position, words⟩ := reached
  cases position with
  | reference | command | quoted => exact .error (.inl ⟨_, rfl⟩)
  | outside | dollar | name | backquote | quoteSeen => exact .ok start

theorem ends_wordsFrom (answers : expander.Answers usual raised) (reached : Position × Words)
    (text : List Char) {state : σ} (start : usual state) :
    EndsUsual usual raised (expander.wordsFrom reached text state) := by
  induction text generalizing reached state with
  | nil => exact expander.ends_finish reached start
  | cons c rest ih =>
    exact Ends.bind ((ends_step answers reached c start).imp fun next _ kept => ih next kept)

/-- **The expansion of a text ends in a usual state, or with a failure of a known kind.** -/
theorem ends_words (answers : expander.Answers usual raised) (text : String) {state : σ}
    (start : usual state) : EndsUsual usual raised (expander.words text state) :=
  ends_wordsFrom answers _ _ start

theorem ends_text (answers : expander.Answers usual raised) (text : String) {state : σ}
    (start : usual state) : EndsUsual usual raised (expander.text text state) :=
  Ends.bind ((ends_words answers text start).imp fun _ _ kept => .ok kept)

end Expander

end BuildSystem
