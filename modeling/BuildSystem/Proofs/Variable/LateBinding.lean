/-
**References to the stem that are bound late.**

In the prerequisites of a rule for targets of a common form, references to the stem stay as they are
written when the rule is read, and are replaced in the finished words when the rule is applied.

* `Draft`, `drafts` — the words of a text in which the references to the stem that stay are marked,
  whatever the stem is.
* `Expander.SpellsStem.words_eq` — the words of the text as it is read, and its words if the stem
  were known by then, are the drafts with the references as they are written, or as the stem.
* `Draft.Legible` — the references to the stem that are found in a finished word are those that
  stay; `Draft.Clear.legible` — this is so in words without other dollar signs.
* `Expander.words_boundLate` — then late binding gives the words that the text has if the stem is
  known.
* `Expander.not_bindsLate` — a reference with blanks between its braces stays, but is not found
  afterwards.
-/

import BuildSystem.Proofs.Variable.Commands
import BuildSystem.Proofs.Variable.Cuts

namespace BuildSystem

open Chars (Filling Part fill parts)

/-! ### Names of the stem -/

/-- Whether a name is one of those that the stem and its groups have. -/
def isStemName (name : List Char) : Bool :=
  stemNames.contains (String.ofList name)

/-- The names of the stem have no blanks and no colons. -/
theorem strip_stemName {name : List Char} (known : isStemName name = true) :
    Chars.strip name = name ∧ ':' ∉ name := by
  have all : ∀ name ∈ stemNames, Chars.strip name.toList = name.toList ∧ ':' ∉ name.toList := by
    decide
  have member : String.ofList name ∈ stemNames := by simpa [isStemName] using known
  simpa using all _ member

/-- A body of a reference that is the name of a stem has no colon. -/
theorem splitFirst_stemName {body : List Char} (known : isStemName (Chars.strip body) = true) :
    Chars.splitFirst ':' body = none := by
  rw [← Option.not_isSome_iff_eq_none, Chars.isSome_splitFirst]
  intro colon
  exact (strip_stemName known).2 (Chars.mem_strip (by decide) colon)

theorem keys_stemValues (stem : String) (groups : List String) :
    (stemValues stem groups).keys = stemNames :=
  rfl

/-- Exactly the names of the stem have values. -/
theorem isSome_stemValues (stem : String) (groups : List String) (name : List Char) :
    ((stemValues stem groups).get? (String.ofList name)).isSome = isStemName name := by
  rw [Bool.eq_iff_iff, isStemName, List.contains_iff_mem, ← keys_stemValues stem groups]
  exact Table.contains_iff

/-- The variables with those of the stem set. -/
def Values.withStem (values : Values) (stem : String) (groups : List String) : Values :=
  Table.update values ((stemValues stem groups).mapValues fun value => [value])

theorem Values.lookup_withStem (values : Values) (stem : String) (groups : List String)
    (name : String) :
    (values.withStem stem groups).lookup name =
      match (stemValues stem groups).get? name with
      | some value => [value]
      | none => values.lookup name := by
  have distinct : ((stemValues stem groups).mapValues fun value => [value]).keys.Nodup := by
    show stemNames.Nodup
    decide
  rw [lookup, withStem, Table.get?_update distinct, Table.get?_mapValues]
  cases (stemValues stem groups).get? name <;> rfl

/-! ### Drafts -/

/-- A word in which the references to the stem that stay are marked. -/
abbrev Draft := List Part

namespace Draft

/-- A text without references to the stem. -/
def literal (text : List Char) : Draft :=
  text.map .plain

/-- The word of a draft, if its parts are spelled in a given way. -/
def spelled (spell : Part → List Char) (draft : Draft) : String :=
  String.ofList (draft.flatMap spell)

/-- The parts of a text in which only references to the stem are marked. -/
def read (text : List Char) : Draft :=
  (parts false text).flatMap fun
    | .reference braced name =>
      if isStemName name then [.reference braced name]
      else literal (Part.reference braced name).text
    | part => [part]

/-- **A draft is legible** if the references to the stem that are found in its word are those that
stay. -/
def Legible (draft : Draft) : Prop :=
  read (draft.flatMap Part.text) = draft

instance (draft : Draft) : Decidable draft.Legible :=
  inferInstanceAs (Decidable (_ = draft))

end Draft

/-- The drafts that have been completed and the one that is being written, if any. -/
structure Drafts where
  complete : List Draft := []
  current : Option Draft := none
deriving DecidableEq, Repr

namespace Drafts

/-- Writes a text at the end of the current draft. -/
def add (text : Draft) (drafts : Drafts) : Drafts :=
  { drafts with current := some (drafts.current.getD [] ++ text) }

/-- Completes the current draft. -/
def flush (drafts : Drafts) : Drafts :=
  match drafts.current with
  | some draft => ⟨drafts.complete ++ [draft], none⟩
  | none => drafts

/-- Writes several words: the first sticks to the current draft, and the last stays current. -/
def splice : List String → Drafts → Drafts
  | [], drafts => drafts
  | first :: others, drafts =>
    others.foldl (fun drafts word => drafts.flush.add (Draft.literal word.toList))
      (drafts.add (Draft.literal first.toList))

/-- The words of drafts, if their parts are spelled in a given way. -/
def spelled (spell : Part → List Char) (drafts : Drafts) : Words :=
  ⟨drafts.complete.map (Draft.spelled spell), drafts.current.map (Draft.spelled spell)⟩

section Spelled

variable (spell : Part → List Char) (drafts : Drafts)

theorem spelled_add (text : Draft) :
    (drafts.add text).spelled spell = (drafts.spelled spell).add (text.spelled spell) := by
  cases current : drafts.current <;> simp [add, spelled, Words.add, Draft.spelled, current]

theorem spelled_flush : drafts.flush.spelled spell = (drafts.spelled spell).flush := by
  cases current : drafts.current <;> simp [flush, spelled, Words.flush, current]

variable {spell}

theorem spelled_literal (plain : ∀ c, spell (.plain c) = [c]) (text : List Char) :
    Draft.spelled spell (Draft.literal text) = String.ofList text := by
  simp [Draft.spelled, Draft.literal, List.flatMap_map, plain]

theorem spelled_splice (plain : ∀ c, spell (.plain c) = [c]) (words : List String) :
    (drafts.splice words).spelled spell = (drafts.spelled spell).splice words := by
  cases words with
  | nil => rfl
  | cons first others =>
    have begun : (drafts.add (Draft.literal first.toList)).spelled spell =
        (drafts.spelled spell).add first := by
      rw [spelled_add, spelled_literal plain, String.ofList_toList]
    rw [splice, Words.splice, ← begun]
    generalize drafts.add (Draft.literal first.toList) = drafts
    induction others generalizing drafts with
    | nil => rfl
    | cons word others ih =>
      rw [List.foldl_cons, List.foldl_cons, ih, spelled_add, spelled_flush, spelled_literal plain,
        String.ofList_toList]

end Spelled

end Drafts

/-! ### The drafts of a text -/

/-- An element does not ask for the words of the stem under a substitution. -/
def Lexeme.LeavesStem : Lexeme → Prop
  | .reference body =>
    ∀ sides ∈ Chars.splitFirst ':' body, isStemName (Chars.strip sides.1) = false
  | _ => True

instance (lexeme : Lexeme) : Decidable lexeme.LeavesStem :=
  match lexeme with
  | .reference body => inferInstanceAs (Decidable (∀ sides ∈ Chars.splitFirst ':' body, _))
  | .blank _ | .plain _ | .quoted _ | .name _ | .command _ => inferInstanceAs (Decidable True)

section Drafting

variable (lookup : String → List String) (answer : String → String)

/-- Writes what an element stands for; the references to the stem stay. -/
def Drafts.write (drafts : Drafts) : Lexeme → Except ExpansionError Drafts
  | .blank _ => .ok drafts.flush
  | .plain c => .ok (drafts.add [.plain c])
  | .quoted text => .ok (drafts.add (Draft.literal text))
  | .name name =>
    .ok <| if isStemName name then drafts.add [.reference false name]
      else drafts.splice (lookup (String.ofList name))
  | .reference body =>
    if isStemName (Chars.strip body) then .ok (drafts.add [.reference true body])
    else do
      let expander : Expander Unit := Expander.answering lookup [] answer
      return drafts.splice (← expander.referenced body)
  | .command body => .ok (drafts.splice (Text.words (answer (String.ofList body))))

/-- **The drafts of a text**, if all variables but those of the stem have the given words. -/
def drafts (text : String) : Except ExpansionError (List Draft) := do
  let drafts ← (lexemes text.toList).1.foldlM (Drafts.write lookup answer) {}
  match (lexemes text.toList).2 with
  | none => return drafts.flush.complete
  | some error => throw error

end Drafting

theorem expanded_bind {σ α β : Type} (first : Except ExpansionError α)
    (next : α → Except ExpansionError β) :
    (expanded (first >>= next) : Action σ β) =
      expanded first >>= fun found => expanded (next found) := by
  cases first <;> rfl

namespace Expander

variable {σ : Type} {lookup : String → List String} {answer : String → String}

/-- The words of a body depend on the words of the names in it. -/
theorem referenced_congr {τ : Type} {one : Expander σ} {other : Expander τ} {body : List Char}
    (whole : one.lookup (String.ofList (Chars.strip body)) =
      other.lookup (String.ofList (Chars.strip body)))
    (before : ∀ sides ∈ Chars.splitFirst ':' body,
      one.lookup (String.ofList (Chars.strip sides.1)) =
        other.lookup (String.ofList (Chars.strip sides.1))) :
    one.referenced body = other.referenced body := by
  unfold referenced
  cases split : Chars.splitFirst ':' body with
  | none => exact congrArg Except.ok whole
  | some sides => simp only [before sides split]

theorem addName_of_not_kept (expander : Expander σ) {name : List Char}
    (changes : expander.keep.contains (String.ofList name) = false) (words : Words) :
    expander.addName name words = words.splice (expander.lookup (String.ofList name)) :=
  if_neg (Bool.eq_false_iff.mp changes)

/-- A reference that does not stay as it is written is replaced by the words of its body. -/
theorem addReference_of_not_kept (expander : Expander σ) {body : List Char}
    (changes : expander.keep.contains (String.ofList (Chars.strip body)) = false)
    (words : Words) :
    expander.addReference body words = do
      return words.splice (← expanded (expander.referenced body)) := by
  rw [addReference, changes]
  cases expander.referenced body <;> rfl

/-- **An expansion spells the references to the stem in a given way**, and has the given words for
all other variables and for commands. -/
structure SpellsStem (expander : Expander σ) (lookup : String → List String)
    (answer : String → String) (spell : Part → List Char) : Prop where
  plain (c : Char) : spell (.plain c) = [c]
  name {name : List Char} (known : isStemName name = true) (words : Words) :
    expander.addName name words = words.add (String.ofList (spell (.reference false name)))
  otherName {name : List Char} (other : isStemName name = false) (words : Words) :
    expander.addName name words = words.splice (lookup (String.ofList name))
  reference {body : List Char} (known : isStemName (Chars.strip body) = true) (words : Words) :
    expander.addReference body words =
      pure (words.add (String.ofList (spell (.reference true body))))
  otherReference {body : List Char} (other : isStemName (Chars.strip body) = false)
    (leaves : (Lexeme.reference body).LeavesStem) (words : Words) :
    expander.addReference body words = do
      return words.splice (← expanded ((answering (σ := Unit) lookup [] answer).referenced body))
  output (body : List Char) (words : Words) :
    expander.addOutput body words = pure (words.splice (Text.words (answer (String.ofList body))))

namespace SpellsStem

variable {expander : Expander σ} {spell : Part → List Char}
  (spells : expander.SpellsStem lookup answer spell)

include spells

/-- What an element writes is what it drafts. -/
theorem write_eq {lexeme : Lexeme} (leaves : lexeme.LeavesStem) (drafts : Drafts) :
    expander.write (drafts.spelled spell) lexeme = do
      return (← expanded (drafts.write lookup answer lexeme)).spelled spell := by
  cases lexeme with
  | blank c => exact congrArg pure (drafts.spelled_flush spell).symm
  | plain c =>
    have here : Draft.spelled spell [.plain c] = String.singleton c := by
      rw [Draft.spelled, List.flatMap_singleton, spells.plain]
      rfl
    show (pure _ : Action σ _) = pure _
    rw [Drafts.spelled_add, here]
  | quoted text =>
    show (pure _ : Action σ _) = pure _
    rw [Drafts.spelled_add, Drafts.spelled_literal spells.plain]
  | name name =>
    show (pure _ : Action σ _) = pure _
    cases known : isStemName name with
    | true =>
      rw [spells.name known, if_pos rfl, Drafts.spelled_add, Draft.spelled, List.flatMap_singleton]
    | false =>
      rw [spells.otherName known, if_neg Bool.false_ne_true, Drafts.spelled_splice _ spells.plain]
  | reference body =>
    rw [write, Drafts.write]
    cases known : isStemName (Chars.strip body) with
    | true =>
      rw [spells.reference known, if_pos rfl]
      show (pure _ : Action σ _) = pure _
      rw [Drafts.spelled_add, Draft.spelled, List.flatMap_singleton]
    | false =>
      rw [spells.otherReference known leaves, if_neg Bool.false_ne_true, expanded_bind]
      cases (answering (σ := Unit) lookup [] answer).referenced body with
      | error error => rfl
      | ok found =>
        show (pure _ : Action σ _) = pure _
        rw [Drafts.spelled_splice _ spells.plain]
  | command body =>
    show expander.addOutput body _ = pure _
    rw [spells.output, Drafts.spelled_splice _ spells.plain]

theorem foldlM_write {elements : List Lexeme}
    (leaves : ∀ lexeme ∈ elements, lexeme.LeavesStem) (drafts : Drafts) :
    elements.foldlM expander.write (drafts.spelled spell) = do
      return (← expanded (elements.foldlM (Drafts.write lookup answer) drafts)).spelled spell := by
  induction elements generalizing drafts with
  | nil => rfl
  | cons lexeme rest ih =>
    have later := fun drafts => ih (fun other member => leaves other (.tail _ member)) drafts
    rw [List.foldlM_cons, List.foldlM_cons, spells.write_eq (leaves lexeme (.head _)),
      expanded_bind]
    simp only [bind_assoc, pure_bind, later]

/-- **The words of a text are its drafts**, with the references to the stem spelled in the given
way. -/
theorem words_eq {text : String}
    (leaves : ∀ lexeme ∈ (lexemes text.toList).1, lexeme.LeavesStem) :
    expander.words text = do
      return (← expanded (drafts lookup answer text)).map (Draft.spelled spell) := by
  have start : ({} : Words) = Drafts.spelled spell {} := rfl
  rw [Expander.words_eq, interpret, start, spells.foldlM_write leaves, drafts, expanded_bind]
  simp only [bind_assoc, pure_bind]
  refine congrArg _ (funext fun drafts => ?_)
  cases (lexemes text.toList).2 with
  | some error => rfl
  | none =>
    show (pure _ : Action σ _) = pure _
    rw [← Drafts.spelled_flush]
    rfl

end SpellsStem

/-! ### Reading a file, and knowing the stem -/

section Spellings

variable (values : Values) (answer : String → String) (stem : String) (groups : List String)

/-- The expansion of prerequisites when a file is read, in which the references to the stem stay. -/
def readingFile : Expander σ :=
  answering values.lookup stemNames answer

/-- The same expansion, if the stem is known. -/
def knowingStem : Expander σ :=
  answering (values.withStem stem groups).lookup [] answer

/-- A part with the stem in the place of a reference to it. -/
def withStem : Part → List Char
  | .reference _ body =>
    (((stemValues stem groups).get? (String.ofList (Chars.strip body))).getD "").toList
  | part => part.text

/-- When a file is read, references to the stem are spelled as they are written. -/
theorem readingFile_spells :
    (readingFile values answer : Expander σ).SpellsStem values.lookup answer Part.text where
  plain _ := rfl
  name known words := by
    refine (if_pos known).trans ?_
    rw [Part.text, String.ofList_cons, String.singleton_eq_ofList]
  otherName other _ := if_neg (Bool.eq_false_iff.mp other)
  reference known _ := if_pos known
  otherReference {body} other _ words := by
    have same : (readingFile values answer : Expander σ).referenced body =
        (answering values.lookup [] answer : Expander Unit).referenced body :=
      referenced_congr rfl fun _ _ => rfl
    rw [addReference_of_not_kept (readingFile values answer) other, same]
  output _ _ := rfl

theorem lookup_withStem {name : List Char} (known : isStemName name = true) :
    (values.withStem stem groups).lookup (String.ofList name) =
      [((stemValues stem groups).get? (String.ofList name)).getD ""] := by
  have there := isSome_stemValues stem groups name
  rw [known] at there
  obtain ⟨value, found⟩ := Option.isSome_iff_exists.mp there
  rw [Values.lookup_withStem, found]
  rfl

theorem lookup_other {name : List Char} (other : isStemName name = false) :
    (values.withStem stem groups).lookup (String.ofList name) =
      values.lookup (String.ofList name) := by
  have missing := isSome_stemValues stem groups name
  rw [other, Option.isSome_eq_false_iff, Option.isNone_iff_eq_none] at missing
  rw [Values.lookup_withStem, missing]

theorem lookup_knowingStem :
    (knowingStem values answer stem groups : Expander σ).lookup =
      (values.withStem stem groups).lookup :=
  rfl

/-- If the stem is known, references to it are spelled as its values. -/
theorem knowingStem_spells :
    (knowingStem values answer stem groups : Expander σ).SpellsStem values.lookup answer
      (withStem stem groups) where
  plain _ := rfl
  name known words := by
    rw [addName_of_not_kept (knowingStem values answer stem groups) rfl, lookup_knowingStem,
      lookup_withStem values stem groups known, withStem, (strip_stemName known).1,
      String.ofList_toList]
    rfl
  otherName other words := by
    rw [addName_of_not_kept (knowingStem values answer stem groups) rfl, lookup_knowingStem,
      lookup_other values stem groups other]
  reference {body} known words := by
    have found : (knowingStem values answer stem groups : Expander σ).referenced body =
        .ok [((stemValues stem groups).get? (String.ofList (Chars.strip body))).getD ""] := by
      rw [referenced, splitFirst_stemName known, lookup_knowingStem]
      dsimp only
      rw [lookup_withStem values stem groups known]
    rw [addReference_of_not_kept (knowingStem values answer stem groups) rfl, found, withStem,
      String.ofList_toList]
    rfl
  otherReference {body} other leaves words := by
    have named {name : List Char} (other : isStemName name = false) :
        (knowingStem values answer stem groups : Expander σ).lookup (String.ofList name) =
          (answering values.lookup [] answer : Expander Unit).lookup (String.ofList name) := by
      rw [lookup_knowingStem, lookup_other values stem groups other]
      rfl
    have same : (knowingStem values answer stem groups : Expander σ).referenced body =
        (answering values.lookup [] answer : Expander Unit).referenced body :=
      referenced_congr (named other) fun sides split => named (leaves sides split)
    rw [addReference_of_not_kept (knowingStem values answer stem groups) rfl, same]
  output _ _ := rfl

end Spellings

end Expander

/-! ### Legible drafts -/

/-- The references to the stem that are marked in a text have its names. -/
theorem Draft.named_read {text : List Char} {braced : Bool} {name : List Char}
    (member : .reference braced name ∈ read text) : isStemName name = true := by
  obtain ⟨part, -, here⟩ := List.mem_flatMap.mp member
  cases part with
  | reference other found =>
    dsimp only at here
    split at here
    · next known =>
      obtain ⟨-, rfl⟩ := Part.reference.inj (List.mem_singleton.mp here)
      exact known
    · obtain ⟨c, -, absurd⟩ := List.mem_map.mp here
      cases absurd
  | _ => cases List.mem_singleton.mp here

/-- Only references to the stem are replaced by values of the stem. -/
theorem Draft.fill_read (stem : String) (groups : List String) (text : List Char) :
    fill (Environment.filling (stemValues stem groups)) (read text) =
      fill (Environment.filling (stemValues stem groups)) (parts false text) := by
  have unread : (Environment.filling (stemValues stem groups)).Literal := fun _ => rfl
  unfold read
  induction parts false text with
  | nil => rfl
  | cons part rest ih =>
    rw [List.flatMap_cons, Chars.fill_append, Chars.fill_cons, ih]
    congr 1
    cases part with
    | reference braced name =>
      show fill _ (if isStemName name = true then _ else literal _) = _
      split
      · exact List.append_nil _
      · next other =>
        have missing : (stemValues stem groups).get? (String.ofList name) = none := by
          rwa [← Option.not_isSome_iff_eq_none, isSome_stemValues]
        rw [literal, Chars.fill_plain unread, Environment.filling, Filling.named, missing]
        rfl
    | _ => exact List.append_nil _

/-- **A legible draft is bound to the stem by spelling its references as the stem.** -/
theorem Draft.Legible.bind_eq {draft : Draft} (legible : draft.Legible) (stem : String)
    (groups : List String) :
    bind (fun name => (stemValues stem groups).get? name) (draft.spelled Part.text) =
      draft.spelled (Expander.withStem stem groups) := by
  rw [bind_filling, spelled, String.toList_ofList, ← fill_read, legible, spelled, fill]
  refine congrArg _ (List.flatMap_congr fun part member => ?_)
  cases part with
  | reference braced name =>
    have known : isStemName name = true := named_read (legible ▸ member)
    have there := isSome_stemValues stem groups name
    rw [known] at there
    obtain ⟨value, found⟩ := Option.isSome_iff_exists.mp there
    show (((stemValues stem groups).get? (String.ofList name)).map String.toList).getD _ =
      (((stemValues stem groups).get? (String.ofList (Chars.strip name))).getD "").toList
    rw [(strip_stemName known).1, found]
    rfl
  | _ => rfl

/-! ### Clear drafts -/

/-- **A draft is clear** if it has no dollar sign but in front of the references to the stem, which
have no blanks, and no reference without braces stands in front of a letter. -/
def Draft.Clear : Draft → Prop
  | [] => True
  | .plain c :: rest => c ≠ '$' ∧ Clear rest
  | .reference true name :: rest => isStemName name = true ∧ Clear rest
  | .reference false name :: rest =>
    isStemName name = true ∧ (∀ c ∈ (rest.flatMap Part.text).head?, isNameCharacter c = false) ∧
      Clear rest
  | .group _ :: _ => False

/-- The names of the stem can stand behind a dollar sign. -/
theorem letters_stemName {name : List Char} (known : isStemName name = true) :
    ∃ first rest, name = first :: rest ∧ isNameCharacter first = true ∧
      ∀ c ∈ rest, isNameCharacter c = true := by
  have all : ∀ name ∈ stemNames, name.toList.head?.any isNameCharacter = true ∧
      name.toList.tail.all isNameCharacter = true := by decide
  have member : String.ofList name ∈ stemNames := by simpa [isStemName] using known
  obtain ⟨begins, goesOn⟩ := all _ member
  rw [String.toList_ofList] at begins goesOn
  cases name with
  | nil => cases begins
  | cons first rest => exact ⟨first, rest, rfl, begins, List.all_eq_true.mp goesOn⟩

namespace Chars

/-- Names are read letter by letter, in braces or not. -/
theorem partsFrom_letters {place : List Char → PartPosition}
    (goesOn : ∀ seen c, isNameCharacter c = true →
      (place seen).goOn c = some ([], place (seen ++ [c])))
    {letters : List Char} (named : ∀ c ∈ letters, isNameCharacter c = true)
    (seen text : List Char) :
    partsFrom false (place seen) (letters ++ text) =
      partsFrom false (place (seen ++ letters)) text := by
  induction letters generalizing seen with
  | nil => rw [List.nil_append, List.append_nil]
  | cons c letters ih =>
    rw [List.cons_append, partsFrom, goesOn seen c (named c List.mem_cons_self)]
    exact (ih (fun d later => named d (.tail _ later)) (seen ++ [c])).trans (by simp)

theorem parts_plain {c : Char} (other : c ≠ '$') (text : List Char) :
    parts false (c :: text) = .plain c :: parts false text := by
  simp [parts, partsFrom, PartPosition.goOn, PartPosition.rest, PartPosition.begin, other]

theorem parts_name {first : Char} {rest : List Char} (letter : isNameCharacter first = true)
    (letters : ∀ c ∈ rest, isNameCharacter c = true) {text : List Char}
    (ends : ∀ c ∈ text.head?, isNameCharacter c = false) :
    parts false ('$' :: first :: rest ++ text) =
      .reference false (first :: rest) :: parts false text := by
  have begun : parts false ('$' :: first :: rest ++ text) =
      partsFrom false (.name [first]) (rest ++ text) := by
    simp [parts, partsFrom, PartPosition.goOn, PartPosition.rest, PartPosition.begin, letter,
      ne_of_letter letter '{' (by decide)]
  have goesOn : ∀ seen c, isNameCharacter c = true →
      (PartPosition.name seen).goOn c = some ([], .name (seen ++ [c])) :=
    fun _ _ letter => if_pos letter
  rw [begun, partsFrom_letters goesOn letters]
  cases text with
  | nil => rfl
  | cons c text =>
    have other := ends c rfl
    simp [parts, partsFrom, PartPosition.goOn, PartPosition.rest, other]

theorem parts_braced {first : Char} {rest : List Char} (letter : isNameCharacter first = true)
    (letters : ∀ c ∈ rest, isNameCharacter c = true) (text : List Char) :
    parts false ('$' :: '{' :: first :: rest ++ '}' :: text) =
      .reference true (first :: rest) :: parts false text := by
  have begun : parts false ('$' :: '{' :: first :: rest ++ '}' :: text) =
      partsFrom false (.braced [first]) (rest ++ '}' :: text) := by
    simp [parts, partsFrom, PartPosition.goOn, PartPosition.rest, PartPosition.begin, letter]
  have brace : isNameCharacter '}' = false := by decide
  have goesOn : ∀ seen c, isNameCharacter c = true →
      (PartPosition.braced seen).goOn c = some ([], .braced (seen ++ [c])) :=
    fun _ _ letter => if_pos letter
  rw [begun, partsFrom_letters goesOn letters]
  simp [parts, partsFrom, PartPosition.goOn, brace]

end Chars

/-- **Clear drafts are legible.** -/
theorem Draft.Clear.legible {draft : Draft} (clear : draft.Clear) : draft.Legible := by
  unfold Legible read
  induction draft with
  | nil => rfl
  | cons part rest ih =>
    rw [List.flatMap_cons]
    match part, clear with
    | .plain c, ⟨other, later⟩ =>
      show (parts false (c :: rest.flatMap Part.text)).flatMap _ = _
      rw [Chars.parts_plain other, List.flatMap_cons, ih later]
      rfl
    | .reference false name, ⟨known, ends, later⟩ =>
      obtain ⟨first, others, rfl, letter, letters⟩ := letters_stemName known
      show (parts false ('$' :: first :: others ++ rest.flatMap Part.text)).flatMap _ = _
      rw [Chars.parts_name letter letters ends, List.flatMap_cons, ih later]
      exact congrArg (· ++ rest) (if_pos known)
    | .reference true name, ⟨known, later⟩ =>
      obtain ⟨first, others, rfl, letter, letters⟩ := letters_stemName known
      show (parts false ('$' :: '{' :: first :: others ++ ['}'] ++ rest.flatMap Part.text)).flatMap
        _ = _
      rw [List.append_assoc, List.singleton_append, Chars.parts_braced letter letters,
        List.flatMap_cons, ih later]
      exact congrArg (· ++ rest) (if_pos known)

/-! ### Early and late -/

namespace Expander

variable {σ : Type}

/-- **A text can be bound late** if it does not ask for the words of the stem under a substitution,
and in each of its finished words the references to the stem that are found are those that stay. -/
structure Bindable (values : Values) (answer : String → String) (text : String) : Prop where
  leaves : ∀ lexeme ∈ (lexemes text.toList).1, lexeme.LeavesStem
  legible : ∀ found, drafts values.lookup answer text = .ok found → ∀ draft ∈ found, draft.Legible

theorem Bindable.of_clear {values : Values} {answer : String → String} {text : String}
    (leaves : ∀ lexeme ∈ (lexemes text.toList).1, lexeme.LeavesStem)
    (clear : ∀ found, drafts values.lookup answer text = .ok found →
      ∀ draft ∈ found, draft.Clear) : Bindable values answer text :=
  ⟨leaves, fun found written draft member => (clear found written draft member).legible⟩

/-- The words of a text as a file is read, each of them bound to the stem afterwards. -/
def boundLate (values : Values) (answer : String → String) (stem : String) (groups : List String)
    (text : String) : Action σ (List String) := do
  let words ← (readingFile values answer).words text
  return words.map (bind fun name => (stemValues stem groups).get? name)

/-- **The words that are bound to the stem afterwards are the words that the text has if the stem is
known**, whatever the stem is; and the text fails in both cases or in none. -/
theorem words_boundLate {values : Values} {answer : String → String} {text : String}
    (ready : Bindable values answer text) (stem : String) (groups : List String) :
    (boundLate values answer stem groups text : Action σ (List String)) =
      (knowingStem values answer stem groups).words text := by
  rw [boundLate, (readingFile_spells values answer).words_eq ready.leaves,
    (knowingStem_spells values answer stem groups).words_eq ready.leaves, bind_assoc]
  cases written : drafts values.lookup answer text with
  | error error => rfl
  | ok found =>
    have bound : (found.map (Draft.spelled Part.text)).map
        (bind fun name => (stemValues stem groups).get? name) =
          found.map (Draft.spelled (withStem stem groups)) := by
      rw [List.map_map]
      exact List.map_congr_left fun draft member =>
        (ready.legible found written draft member).bind_eq stem groups
    exact congrArg (pure : _ → Action σ _) bound

/-- Texts, variables, quotations and outputs of commands stand beside references to the stem. -/
theorem words_boundLate_sources :
    Bindable [("dir", ["src", "lib"])] id "$dir/$stem.c '$'$\x7bstem2\x7d.h `\x7bls x\x7d" ∧
      (boundLate [("dir", ["src", "lib"])] id "main" ["main", "a"]
        "$dir/$stem.c '$'$\x7bstem2\x7d.h `\x7bls x\x7d" : Action Unit (List String)) () =
          .ok ["src", "lib/main.c", "$a.h", "ls", "x"] () := by
  have ready : Bindable [("dir", ["src", "lib"])] id
      "$dir/$stem.c '$'$\x7bstem2\x7d.h `\x7bls x\x7d" := by
    refine ⟨by decide, fun found written => ?_⟩
    obtain rfl := Except.ok.inj written
    decide
  have known : (knowingStem [("dir", ["src", "lib"])] id "main" ["main", "a"]).words
      "$dir/$stem.c '$'$\x7bstem2\x7d.h `\x7bls x\x7d" () =
        .ok ["src", "lib/main.c", "$a.h", "ls", "x"] () := by rfl
  exact ⟨ready, by rw [words_boundLate ready, known]⟩

/-! ### References that are not found again -/

/-- For every text the words that are bound to the stem afterwards are the words that the text has
if the stem is known, at least if the stem and its groups are single words. -/
def BindsLate : Prop :=
  ∀ (text : String) (values : Values) (answer : String → String) (stem : String)
    (groups : List String), groups.length = 9 →
    (∀ value ∈ stem :: groups, Text.words value = [value]) →
      (boundLate values answer stem groups text : Action Unit (List String)) =
        (knowingStem values answer stem groups).words text

/-- **A reference to the stem with blanks between its braces stays when the file is read, but is not
found in the finished word.** -/
theorem not_bindsLate : ¬ BindsLate := by
  intro bindsLate
  have same := bindsLate "$\x7b stem \x7d.c" [] id "main" (List.replicate 9 "main") rfl (by decide)
  have late : (boundLate [] id "main" (List.replicate 9 "main") "$\x7b stem \x7d.c" :
      Action Unit (List String)) () = .ok ["$\x7b stem \x7d.c"] () := by rfl
  have early : (knowingStem [] id "main" (List.replicate 9 "main")).words "$\x7b stem \x7d.c" () =
      .ok ["main.c"] () := by rfl
  rw [same, early] at late
  have words : ["main.c"] = ["$\x7b stem \x7d.c"] := by
    injection late
  exact absurd words (by decide)

end Expander

end BuildSystem
