/-
**The rules of a text are those of its headers.**

* `Header.WellRead`, `Declaration` — a header that has been read from a text, and the rules that it
  declares.
* `Reader.Declared` — what has been read comes from headers; every step keeps this.
* `ofText_declares` — the rules of a text are those of its headers, in order, those of included
  texts among them.
-/

import BuildSystem.Proofs.RuleFile.Points

namespace BuildSystem.RuleFile

/-- A header that has been read from a line, with whatever lines its recipe has. -/
structure Header.WellRead (header : Header) : Prop where
  targets : header.targets ≠ []
  traits : ∃ location letters, readTraits location {} letters = .ok header.traits

theorem Header.ReadAt.wellRead {location : Location} {header : Header}
    (read : header.ReadAt location) : header.WellRead where
  targets := read.targets
  traits := ⟨location, read.traits⟩

/-- **A header that has been read, and the rules that it declares.** -/
structure Declaration where
  header : Header
  rules : List Rule
  wellRead : header.WellRead
  declares : header.rules = .ok rules

/-- **What has been read comes from headers**: the rules are those of headers in order, and so is
the header whose recipe is being read. -/
structure Reader.Declared (reader : Reader) : Prop where
  rules : ∃ declarations : List Declaration, reader.rules = declarations.flatMap (·.rules)
  header : ∀ header, reader.header = some header → header.WellRead

namespace Reader.Declared

variable {reader closed : Reader}

theorem nothing (bindings : Bindings) : Declared { bindings } :=
  ⟨⟨[], rfl⟩, fun _ none => nomatch none⟩

/-- At its end a header declares its rules. -/
theorem close (declared : reader.Declared) (closes : reader.close = .ok closed) :
    closed.Declared := by
  unfold Reader.close at closes
  cases current : reader.header with
  | none =>
    rw [current] at closes
    obtain rfl := Except.ok.inj closes
    exact declared
  | some header =>
    rw [current] at closes
    dsimp only at closes
    cases declares : header.rules with
    | error failure =>
      rw [declares] at closes
      cases closes
    | ok rules =>
      rw [declares] at closes
      obtain rfl := Except.ok.inj closes
      obtain ⟨declarations, before⟩ := declared.rules
      refine ⟨⟨declarations ++ [⟨header, rules, declared.header header current, declares⟩], ?_⟩,
        fun _ none => nomatch none⟩
      simp [before]

/-- **Every step keeps it that what has been read comes from headers.** -/
theorem invariant : Reader.Invariant Declared := by
  intro location reader later _ declared step
  cases step with
  | stays => exact declared
  | @recipe header text current =>
    refine ⟨declared.rules, fun header' same => ?_⟩
    obtain rfl := Option.some.inj same
    exact ⟨(declared.header header current).targets, (declared.header header current).traits⟩
  | closes closes => exact declared.close closes
  | assigns closes name words =>
    exact ⟨(declared.close closes).rules, (declared.close closes).header⟩
  | @opens closed closes header read =>
    refine ⟨(declared.close closes).rules, fun header' same => ?_⟩
    obtain rfl := Option.some.inj same
    exact read.wellRead

end Reader.Declared

variable {σ : Type} {source : Source σ}

/-- **The rules of a text are those of its headers**, in order. -/
theorem ofText_declares {bindings : Bindings} {file text : String} {state after : σ}
    {ruleSet : RuleSet} (read : ofText source bindings file text state = .ok ruleSet after) :
    ∃ declarations : List Declaration, ruleSet.rules = declarations.flatMap (·.rules) := by
  obtain ⟨reader, declared, rfl⟩ :=
    Point.ofText_holds Reader.Declared.invariant (.nothing bindings) read
  exact declared.rules

end BuildSystem.RuleFile
