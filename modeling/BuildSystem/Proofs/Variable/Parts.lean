/-
**The parts of a text with references.**

A text is split, in one pass from left to right, into characters that stand for themselves,
references to variables, and references to the groups of a regular expression.

* `Part`, `parts` — the parts of a text; `fill` puts values in the places of some of them.
* `fill_parts`, `bindGroups_eq_fill`, `bind_eq_fill` — without values the parts are the text again,
  and references to groups or to variables are replaced where the parts say so.
* `settled` — no value that is put in brings a dollar sign along or makes the text go on with a
  reference that is open where it is put.
* `reads_partsFrom` — then a second pass over the text finds the parts that the first one has found.
* `bind_fill` — so values that are put in one after the other could have been put in at once.
-/

import BuildSystem.Pattern

namespace BuildSystem.Chars

/-! ### Parts -/

/-- A part of a text. -/
inductive Part where
  /-- A character that stands for itself. -/
  | plain (c : Char)
  /-- A reference to a variable, between braces or not. -/
  | reference (braced : Bool) (name : List Char)
  /-- A reference to what a group has matched. -/
  | group (digit : Char)
deriving DecidableEq, Repr

/-- A part as it is written. -/
def Part.text : Part → List Char
  | plain c => [c]
  | reference false name => '$' :: name
  | reference true name => '$' :: '{' :: name ++ ['}']
  | group digit => ['\\', digit]

/-- Where in a text the search for parts stands. -/
inductive PartPosition where
  | outside
  | backslash
  | dollar
  | name (read : List Char)
  | braced (read : List Char)
deriving DecidableEq, Repr

/-- What has been read and belongs to no part yet, if nothing goes on with it. -/
def PartPosition.rest : PartPosition → List Part
  | outside => []
  | backslash => [.plain '\\']
  | dollar => [.plain '$']
  | name read => [.reference false read]
  | braced read => ('$' :: '{' :: read).map .plain

/-- What a character makes of what has been read, if it goes on with it. -/
def PartPosition.goOn (c : Char) : PartPosition → Option (List Part × PartPosition)
  | outside => none
  | backslash => if '1' ≤ c ∧ c ≤ '9' then some ([.group c], .outside) else none
  | dollar =>
    if c = '{' then some ([], .braced [])
    else if isNameCharacter c then some ([], .name [c])
    else none
  | name read => if isNameCharacter c then some ([], .name (read ++ [c])) else none
  | braced read =>
    if isNameCharacter c then some ([], .braced (read ++ [c]))
    else if c = '}' && !read.isEmpty then some ([.reference true read], .outside)
    else none

/-- What a character begins; references to groups are found only in a text that may hold them. -/
def PartPosition.begin (grouped : Bool) (c : Char) : List Part × PartPosition :=
  if c = '$' then ([], .dollar)
  else if grouped && c = '\\' then ([], .backslash)
  else ([.plain c], .outside)

/-- The parts of a text from a position on. -/
def partsFrom (grouped : Bool) : PartPosition → List Char → List Part
  | position, [] => position.rest
  | position, c :: text =>
    match position.goOn c with
    | some (found, next) => found ++ partsFrom grouped next text
    | none =>
      position.rest ++ (PartPosition.begin grouped c).1 ++
        partsFrom grouped (PartPosition.begin grouped c).2 text

/-- **The parts of a text**, found in one pass from left to right. -/
def parts (grouped : Bool) (text : List Char) : List Part :=
  partsFrom grouped .outside text

/-- **How a character goes on with what has been read.** -/
inductive GoesOn (c : Char) : PartPosition → List Part → PartPosition → Prop
  | group (digit : '1' ≤ c ∧ c ≤ '9') : GoesOn c .backslash [.group c] .outside
  | brace (brace : c = '{') : GoesOn c .dollar [] (.braced [])
  | letter (letter : isNameCharacter c = true) : GoesOn c .dollar [] (.name [c])
  | name {read : List Char} (letter : isNameCharacter c = true) :
      GoesOn c (.name read) [] (.name (read ++ [c]))
  | braced {read : List Char} (letter : isNameCharacter c = true) :
      GoesOn c (.braced read) [] (.braced (read ++ [c]))
  | close {read : List Char} (brace : c = '}') (some : read ≠ []) :
      GoesOn c (.braced read) [.reference true read] .outside

theorem goesOn_of_goOn {position next : PartPosition} {c : Char} {found : List Part}
    (goesOn : position.goOn c = some (found, next)) : GoesOn c position found next := by
  cases position with
  | outside => cases goesOn
  | backslash =>
    rw [PartPosition.goOn] at goesOn
    split at goesOn
    · next digit =>
      obtain ⟨rfl, rfl⟩ := Prod.mk.inj (Option.some.inj goesOn)
      exact .group digit
    · cases goesOn
  | dollar =>
    rw [PartPosition.goOn] at goesOn
    split at goesOn
    · next brace =>
      obtain ⟨rfl, rfl⟩ := Prod.mk.inj (Option.some.inj goesOn)
      exact .brace brace
    · split at goesOn
      · next letter =>
        obtain ⟨rfl, rfl⟩ := Prod.mk.inj (Option.some.inj goesOn)
        exact .letter letter
      · cases goesOn
  | name read =>
    rw [PartPosition.goOn] at goesOn
    split at goesOn
    · next letter =>
      obtain ⟨rfl, rfl⟩ := Prod.mk.inj (Option.some.inj goesOn)
      exact .name letter
    · cases goesOn
  | braced read =>
    rw [PartPosition.goOn] at goesOn
    split at goesOn
    · next letter =>
      obtain ⟨rfl, rfl⟩ := Prod.mk.inj (Option.some.inj goesOn)
      exact .braced letter
    · split at goesOn
      · next closes =>
        obtain ⟨rfl, rfl⟩ := Prod.mk.inj (Option.some.inj goesOn)
        rw [Bool.and_eq_true, decide_eq_true_iff, Bool.not_eq_true', List.isEmpty_eq_false_iff]
          at closes
        exact .close closes.1 closes.2
      · cases goesOn

/-! ### Values -/

/-- Values that are put in the places of parts. -/
abbrev Filling := Part → Option (List Char)

/-- Nothing is put in. -/
def Filling.nothing : Filling := fun _ => none

/-- The values of variables. -/
def Filling.named (values : List Char → Option (List Char)) : Filling
  | .reference _ name => values name
  | _ => none

/-- What groups have matched. -/
def Filling.matched (groups : List (List Char)) : Filling
  | .group digit => some (groups[digit.toNat - 49]?.getD [])
  | _ => none

/-- The values of a first filling, and where it has none those of a second one. -/
def Filling.orElse (first second : Filling) : Filling :=
  fun part => (first part).or (second part)

/-- Parts with values in the places of some of them; the others stay as they are written. -/
def fill (filling : Filling) (parts : List Part) : List Char :=
  parts.flatMap fun part => (filling part).getD part.text

section Fill

variable (filling : Filling)

@[simp] theorem fill_nil : fill filling [] = [] := rfl

@[simp] theorem fill_cons (part : Part) (parts : List Part) :
    fill filling (part :: parts) = (filling part).getD part.text ++ fill filling parts :=
  List.flatMap_cons

@[simp] theorem fill_append (first second : List Part) :
    fill filling (first ++ second) = fill filling first ++ fill filling second :=
  List.flatMap_append

end Fill

/-- A filling that leaves all characters that stand for themselves. -/
def Filling.Literal (filling : Filling) : Prop :=
  ∀ c, filling (.plain c) = none

theorem fill_plain {filling : Filling} (literal : filling.Literal) (text : List Char) :
    fill filling (text.map .plain) = text := by
  induction text with
  | nil => rfl
  | cons c text ih =>
    rw [List.map_cons, fill_cons, literal, ih]
    rfl

/-! ### References to groups -/

/-- The text of what has been read and belongs to no part yet. -/
def PartPosition.text : PartPosition → List Char
  | outside => []
  | backslash => ['\\']
  | dollar => ['$']
  | name read => '$' :: read
  | braced read => '$' :: '{' :: read

theorem fill_rest {filling : Filling} (literal : filling.Literal)
    (unnamed : ∀ braced name, filling (.reference braced name) = none) (position : PartPosition) :
    fill filling position.rest = position.text := by
  cases position with
  | outside => rfl
  | backslash => exact fill_plain literal ['\\']
  | dollar => exact fill_plain literal ['$']
  | name read => simp [PartPosition.rest, PartPosition.text, unnamed, Part.text]
  | braced read => exact fill_plain literal ('$' :: '{' :: read)

/-- Without values the parts are the text again. -/
theorem fill_partsFrom (position : PartPosition) (text : List Char) :
    fill .nothing (partsFrom false position text) = position.text ++ text := by
  have rest : ∀ position : PartPosition, fill .nothing position.rest = position.text :=
    fill_rest (fun _ => rfl) fun _ _ => rfl
  induction text generalizing position with
  | nil =>
    rw [List.append_nil]
    exact rest position
  | cons c text ih =>
    unfold partsFrom
    split
    · next found next goesOn =>
      rw [fill_append, ih]
      cases goesOn_of_goOn goesOn with
      | group => rfl
      | brace brace => rw [brace]; rfl
      | letter => rfl
      | name => simp [PartPosition.text]
      | braced => simp [PartPosition.text]
      | close brace => simp [PartPosition.text, Filling.nothing, Part.text, brace]
    · have begun : fill .nothing (PartPosition.begin false c).1 ++
          (PartPosition.begin false c).2.text = [c] := by
        unfold PartPosition.begin
        split
        · next dollar =>
          rw [dollar]
          rfl
        · rfl
      rw [fill_append, fill_append, ih, rest, List.append_assoc, ← List.append_assoc _ _ text,
        begun]
      rfl

/-- Any character but a backslash stands for itself. -/
theorem bindGroups_cons (groups : List (List Char)) {c : Char} (other : c ≠ '\\')
    (text : List Char) : bindGroups groups (c :: text) = c :: bindGroups groups text := by
  rw [bindGroups]
  exact fun _ _ same _ => other same

theorem ne_backslash {c : Char} (letter : isNameCharacter c = true) : c ≠ '\\' := by
  rintro rfl
  revert letter
  decide

/-- **References to groups are replaced where the parts say so.** -/
theorem bindGroups_partsFrom (groups : List (List Char)) (position : PartPosition)
    (text : List Char) :
    fill (.matched groups) (partsFrom true position text) =
      if position = .backslash then bindGroups groups ('\\' :: text)
      else position.text ++ bindGroups groups text := by
  have rest : ∀ position : PartPosition, fill (.matched groups) position.rest = position.text :=
    fill_rest (fun _ => rfl) fun _ _ => rfl
  induction text generalizing position with
  | nil =>
    show fill _ position.rest = _
    rw [rest]
    cases position with
    | backslash => simp [PartPosition.text, bindGroups]
    | _ => simp [bindGroups]
  | cons c text ih =>
    unfold partsFrom
    split
    · next found next goesOn =>
      rw [fill_append, ih]
      cases goesOn_of_goOn goesOn with
      | group digit => simp [Filling.matched, bindGroups, digit, PartPosition.text]
      | brace brace =>
        subst brace
        simp [PartPosition.text, bindGroups_cons]
      | letter letter =>
        simp [PartPosition.text, bindGroups_cons groups (ne_backslash letter)]
      | name letter =>
        simp [PartPosition.text, bindGroups_cons groups (ne_backslash letter)]
      | braced letter =>
        simp [PartPosition.text, bindGroups_cons groups (ne_backslash letter)]
      | close brace =>
        subst brace
        simp [PartPosition.text, Filling.matched, Part.text, bindGroups_cons]
    · next unread =>
      -- What begins with the character is replaced like the text from the character on.
      have begun : fill (.matched groups) ((PartPosition.begin true c).1 ++
          partsFrom true (PartPosition.begin true c).2 text) = bindGroups groups (c :: text) := by
        unfold PartPosition.begin
        split
        · next dollar =>
          subst dollar
          simp [ih, PartPosition.text, bindGroups_cons]
        · split
          · next backslash =>
            obtain rfl : c = '\\' := by simpa using backslash
            simp [ih]
          · next other =>
            have other : c ≠ '\\' := by simpa using other
            simp [ih, PartPosition.text, Filling.matched, Part.text, bindGroups_cons groups other]
      rw [List.append_assoc, fill_append, begun, rest]
      split
      · next backslash =>
        subst backslash
        have undigit : ¬ ('1' ≤ c ∧ c ≤ '9') := by
          intro digit
          rw [PartPosition.goOn, if_pos digit] at unread
          cases unread
        rw [bindGroups, if_neg undigit]
        rfl
      · rfl

/-! ### Reading filled parts -/

/-- Whether a character goes on with the reference that is open. -/
def BindPosition.goesOn (c : Char) : BindPosition → Bool
  | outside => false
  | dollar => c = '{' || isNameCharacter c
  | name _ => isNameCharacter c
  | braced read => isNameCharacter c || c = '}' && !read.isEmpty

/-- Where a part leads that is read as it is written. -/
def Part.after (position : BindPosition) : Part → BindPosition
  | plain c => (bindStep (fun _ => none) c position).2
  | reference false name => .name name
  | reference true _ => .outside
  | group _ => .outside

/-- Whether a text does not go on with the reference that is open in front of it, if any is. -/
def BindPosition.endedBy (position : BindPosition) : List Char → Bool
  | [] => true
  | c :: _ => !position.goesOn c

/-- **No value that is put in brings a dollar sign along, and none is put in where the text that
follows then goes on with an open reference.** -/
def settled (filling : Filling) : BindPosition → List Part → Bool
  | _, [] => true
  | position, part :: rest =>
    match filling part with
    | some value =>
      !value.contains '$' && position.endedBy (value ++ fill filling rest) &&
        settled filling .outside rest
    | none => settled filling (part.after position) rest

/-- A part that is read from a position as it is written: a reference has a name, and a character
goes on with a reference at most as part of a name between braces that may never end. -/
def Part.Fits (position : BindPosition) : Part → Prop
  | plain c => position.goesOn c = true →
      position = .dollar ∧ c = '{' ∨ (∃ read, position = .braced read) ∧ isNameCharacter c = true
  | reference _ name => name ≠ [] ∧ ∀ c ∈ name, isNameCharacter c = true
  | group digit => digit ≠ '$'

/-- Parts are read from a position as they have been found, whatever values have been put in. -/
def Reads (filling : Filling) : BindPosition → List Part → Prop
  | _, [] => True
  | position, part :: rest =>
    match filling part with
    | some value =>
      '$' ∉ value ∧ position.endedBy (value ++ fill filling rest) = true ∧
        Reads filling .outside rest
    | none => part.Fits position ∧ Reads filling (part.after position) rest

section Reading

variable (values : List Char → Option (List Char))

/-- A character that does not go on with a reference ends it. -/
theorem bindStep_of_not_goesOn {c : Char} {position : BindPosition}
    (ends : position.goesOn c = false) :
    bindStep values c position =
      (bindEnd values position ++ (bindOutside c).1, (bindOutside c).2) := by
  cases position with
  | outside => rfl
  | dollar =>
    rw [BindPosition.goesOn, Bool.or_eq_false_iff, decide_eq_false_iff_not] at ends
    rw [bindStep, if_neg ends.1, if_neg (Bool.not_eq_true _ ▸ ends.2)]
    rfl
  | name read =>
    rw [BindPosition.goesOn] at ends
    rw [bindStep, if_neg (Bool.not_eq_true _ ▸ ends)]
    rfl
  | braced read =>
    rw [BindPosition.goesOn, Bool.or_eq_false_iff] at ends
    rw [bindStep, if_neg (Bool.not_eq_true _ ▸ ends.1), if_neg (Bool.not_eq_true _ ▸ ends.2)]
    rfl

/-- A dollar sign ends every reference. -/
theorem goesOn_dollar (position : BindPosition) : position.goesOn '$' = false := by
  cases position with
  | outside => rfl
  | dollar => rfl
  | name read => rfl
  | braced read => rfl

theorem bindFrom_dollar (position : BindPosition) (text : List Char) :
    bindFrom values position ('$' :: text) =
      bindEnd values position ++ bindFrom values .dollar text := by
  rw [bindFrom, bindStep_of_not_goesOn values (goesOn_dollar position)]
  simp [bindOutside]

/-- Text without dollar signs stands for itself. -/
theorem bindFrom_outside {value : List Char} (free : '$' ∉ value) (text : List Char) :
    bindFrom values .outside (value ++ text) = value ++ bindFrom values .outside text := by
  induction value with
  | nil => rfl
  | cons c value ih =>
    obtain ⟨other, free⟩ := not_or.mp (mt List.mem_cons.mpr free)
    rw [List.cons_append, bindFrom, bindStep, bindOutside, if_neg (Ne.symm other)]
    dsimp only
    rw [ih free]
    rfl

/-- A text that does not go on with the reference in front of it is read as if there were none. -/
theorem bindFrom_ended {position : BindPosition} {text : List Char}
    (ends : position.endedBy text = true) :
    bindFrom values position text = bindEnd values position ++ bindFrom values .outside text := by
  cases text with
  | nil => simp [bindFrom, bindEnd]
  | cons c text =>
    rw [BindPosition.endedBy, Bool.not_eq_true'] at ends
    rw [bindFrom, bindStep_of_not_goesOn values ends, bindFrom, bindStep]
    simp

/-- Letters are read to the end of a name that is open, with braces or without. -/
theorem bindFrom_letters {open' : List Char → BindPosition}
    (step : ∀ read c, isNameCharacter c = true →
      bindStep values c (open' read) = ([], open' (read ++ [c])))
    {name : List Char} (letters : ∀ c ∈ name, isNameCharacter c = true) (read text : List Char) :
    bindFrom values (open' read) (name ++ text) = bindFrom values (open' (read ++ name)) text := by
  induction name generalizing read with
  | nil => rw [List.append_nil, List.nil_append]
  | cons c name ih =>
    rw [List.cons_append, bindFrom, step read c (letters c List.mem_cons_self)]
    dsimp only
    rw [ih fun other member => letters other (List.mem_cons_of_mem c member)]
    simp

/-- A character outside of references stands for itself, or is open at the end. -/
theorem bindOutside_end (c : Char) :
    (bindOutside c).1 ++ bindEnd values (bindOutside c).2 = [c] := by
  unfold bindOutside
  split
  · next dollar =>
    rw [dollar]
    rfl
  · rfl

/-- A reference that stands alone is read up to its last letter. -/
theorem bindFrom_alone {name : List Char} (some : name ≠ [])
    (letters : ∀ c ∈ name, isNameCharacter c = true) (text : List Char) :
    bindFrom values .dollar (name ++ text) = bindFrom values (.name name) text := by
  cases name with
  | nil => exact absurd rfl some
  | cons c name =>
    have letter := letters c List.mem_cons_self
    have unbraced : c ≠ '{' := by
      rintro rfl
      revert letter
      decide
    have step : ∀ read c, isNameCharacter c = true →
        bindStep values c (.name read) = ([], .name (read ++ [c])) :=
      fun read c letter => by rw [bindStep, if_pos letter]
    rw [List.cons_append, bindFrom, bindStep, if_neg unbraced, if_pos letter]
    exact bindFrom_letters values step
      (fun other member => letters other (List.mem_cons_of_mem c member)) [c] text

/-- A reference between braces is read up to the closing brace and replaced. -/
theorem bindFrom_closed {name : List Char} (some : name ≠ [])
    (letters : ∀ c ∈ name, isNameCharacter c = true) (text : List Char) :
    bindFrom values .dollar ('{' :: (name ++ '}' :: text)) =
      boundBraces values name ++ bindFrom values .outside text := by
  have step : ∀ read c, isNameCharacter c = true →
      bindStep values c (.braced read) = ([], .braced (read ++ [c])) :=
    fun read c letter => by rw [bindStep, if_pos letter]
  have closes : ('}' = '}' && !name.isEmpty) = true := by simpa using some
  rw [bindFrom, bindStep, if_pos rfl]
  dsimp only
  rw [bindFrom_letters values step letters, List.nil_append, List.nil_append, bindFrom, bindStep,
    if_neg (by decide), if_pos closes]

/-- **A second pass over parts that are read as found replaces what a single one would replace.** -/
theorem bindFrom_fill {filling : Filling} {position : BindPosition} {parts : List Part}
    (reads : Reads filling position parts) :
    bindFrom values position (fill filling parts) =
      bindEnd values position ++ fill (filling.orElse (.named values)) parts := by
  induction parts generalizing position with
  | nil => exact (List.append_nil _).symm
  | cons part parts ih =>
    rw [fill_cons, fill_cons, Filling.orElse]
    unfold Reads at reads
    cases there : filling part with
    | some value =>
      rw [there] at reads
      obtain ⟨free, ends, reads⟩ := reads
      rw [Option.getD_some, bindFrom_ended values ends, bindFrom_outside values free, ih reads]
      rfl
    | none =>
      rw [there] at reads
      obtain ⟨fits, reads⟩ := reads
      have read := ih reads
      rw [Option.getD_none, Option.none_or]
      cases part with
      | plain c =>
        rw [Part.after] at read
        show bindFrom values position (c :: fill filling parts) = _ ++ ([c] ++ _)
        rw [bindFrom, ← List.append_assoc]
        cases goesOn : position.goesOn c with
        | false =>
          rw [bindStep_of_not_goesOn _ goesOn] at read ⊢
          dsimp only at read ⊢
          rw [read, ← bindOutside_end values c]
          simp only [List.append_assoc]
        | true =>
          obtain ⟨rfl, rfl⟩ | ⟨⟨open', rfl⟩, letter⟩ := fits goesOn
          · exact read
          · rw [bindStep, if_pos letter] at read ⊢
            dsimp only at read ⊢
            rw [read]
            simp [bindEnd]
      | reference braced name =>
        obtain ⟨some, letters⟩ := fits
        cases braced with
        | false =>
          show bindFrom values position ('$' :: (name ++ _)) = _
          rw [bindFrom_dollar, bindFrom_alone values some letters]
          exact congrArg _ read
        | true =>
          show bindFrom values position ('$' :: '{' :: (name ++ ['}'] ++ _)) = _
          rw [bindFrom_dollar, List.append_assoc]
          exact congrArg _ ((bindFrom_closed values some letters _).trans (congrArg _ read))
      | group digit =>
        show bindFrom values position ('\\' :: digit :: _) = _
        have ends : position.goesOn '\\' = false := by
          cases position with
          | _ => rfl
        rw [bindFrom, bindStep_of_not_goesOn values ends]
        dsimp only [bindOutside]
        rw [if_neg (by decide), bindFrom, bindStep, bindOutside, if_neg fits]
        rw [List.append_assoc]
        exact congrArg (fun more => bindEnd values position ++ '\\' :: digit :: more) read

end Reading

/-! ### Reading the parts of a text again -/

/-- What is open in a search for parts is a name, and the reader of the parts that have been found
stands outside of references if nothing is open. -/
def PartPosition.Steady (position : BindPosition) : PartPosition → Prop
  | outside => position = .outside
  | backslash => True
  | dollar => True
  | name read => read ≠ [] ∧ ∀ c ∈ read, isNameCharacter c = true
  | braced read => ∀ c ∈ read, isNameCharacter c = true

/-- Where the reader stands behind what was open, if nothing has been put in there. -/
def PartPosition.reader : PartPosition → BindPosition
  | outside => .outside
  | backslash => .outside
  | dollar => .dollar
  | name read => .name read
  | braced read => .braced read

/-- A character that does not go on with what is open in the search for parts does not go on with
the reference that is open for the reader. -/
theorem goesOn_reader {open' : PartPosition} {c : Char} (ends : open'.goOn c = none) :
    open'.reader.goesOn c = false := by
  cases open' with
  | outside => rfl
  | backslash => rfl
  | dollar =>
    rw [PartPosition.goOn] at ends
    rw [PartPosition.reader, BindPosition.goesOn, Bool.or_eq_false_iff]
    split at ends
    · cases ends
    · next brace =>
      split at ends
      · cases ends
      · next letter => exact ⟨decide_eq_false brace, Bool.not_eq_true _ ▸ letter⟩
  | name read =>
    rw [PartPosition.goOn] at ends
    split at ends
    · cases ends
    · next letter => exact Bool.not_eq_true _ ▸ letter
  | braced read =>
    rw [PartPosition.goOn] at ends
    rw [PartPosition.reader, BindPosition.goesOn, Bool.or_eq_false_iff]
    split at ends
    · cases ends
    · next letter =>
      split at ends
      · cases ends
      · next closes => exact ⟨Bool.not_eq_true _ ▸ letter, Bool.not_eq_true _ ▸ closes⟩

section Again

variable {filling : Filling} {position : BindPosition} {more : List Part}

theorem reads_kept {part : Part} (kept : filling part = none) (fits : part.Fits position)
    (reads : Reads filling (part.after position) more) : Reads filling position (part :: more) := by
  rw [Reads, kept]
  exact ⟨fits, reads⟩

/-- A part in whose place a value is put is read as that value. -/
theorem reads_filled {part : Part} {value : List Char} (there : filling part = some value)
    (ready : settled filling position (part :: more) = true) :
    settled filling .outside more = true ∧
      (Reads filling .outside more → Reads filling position (part :: more)) := by
  rw [settled, there, Bool.and_eq_true, Bool.and_eq_true] at ready
  rw [Reads, there]
  obtain ⟨⟨free, ends⟩, ready⟩ := ready
  exact ⟨ready, fun reads => ⟨by simpa using free, ends, reads⟩⟩

theorem settled_plain (literal : filling.Literal) (c : Char) :
    settled filling position (.plain c :: more) =
      settled filling (Part.after position (.plain c)) more := by
  rw [settled, literal]

theorem reads_plain (literal : filling.Literal) {c : Char}
    (fits : (Part.plain c).Fits position)
    (reads : Reads filling (Part.after position (.plain c)) more) :
    Reads filling position (.plain c :: more) :=
  reads_kept (literal c) fits reads

/-- Where a character leads that does not go on with an open reference. -/
theorem after_of_not_goesOn {c : Char} (ends : position.goesOn c = false) :
    Part.after position (.plain c) = (bindOutside c).2 := by
  rw [Part.after, bindStep_of_not_goesOn _ ends]

theorem fits_of_not_goesOn {c : Char} (ends : position.goesOn c = false) :
    (Part.plain c).Fits position :=
  fun goesOn => absurd goesOn (Bool.not_eq_true _ ▸ ends)

/-- A name between braces that never ends is read letter by letter. -/
theorem reads_braced (literal : filling.Literal) {letters : List Char}
    (names : ∀ c ∈ letters, isNameCharacter c = true) (read : List Char)
    (ready : settled filling (.braced read) (letters.map .plain ++ more) = true) :
    settled filling (.braced (read ++ letters)) more = true ∧
      (Reads filling (.braced (read ++ letters)) more →
        Reads filling (.braced read) (letters.map .plain ++ more)) := by
  induction letters generalizing read with
  | nil => simpa using ready
  | cons c letters ih =>
    have letter := names c List.mem_cons_self
    have leads : Part.after (.braced read) (.plain c) = .braced (read ++ [c]) := by
      rw [Part.after, bindStep, if_pos letter]
    rw [List.map_cons, List.cons_append] at ready ⊢
    rw [settled_plain literal, leads] at ready
    obtain ⟨readyLater, later⟩ :=
      ih (fun other member => names other (List.mem_cons_of_mem c member)) (read ++ [c]) ready
    rw [List.append_assoc, List.singleton_append] at readyLater later
    refine ⟨readyLater, fun reads => reads_plain literal (fun _ => .inr ⟨⟨read, rfl⟩, letter⟩) ?_⟩
    rw [leads]
    exact later reads

/-- What was open is read as it has been found; behind it the reader stands outside of references or
behind what was open. -/
theorem reads_rest (literal : filling.Literal) {open' : PartPosition}
    (steady : open'.Steady position)
    (ready : settled filling position (open'.rest ++ more) = true) :
    ∃ next, (next = .outside ∨ next = open'.reader) ∧ settled filling next more = true ∧
      (Reads filling next more → Reads filling position (open'.rest ++ more)) := by
  cases open' with
  | outside =>
    obtain rfl : position = .outside := steady
    exact ⟨.outside, .inl rfl, ready, id⟩
  | backslash =>
    have ends : position.goesOn '\\' = false := by
      cases position with
      | _ => rfl
    refine ⟨.outside, .inl rfl, ?_, fun reads => reads_plain literal (fits_of_not_goesOn ends) ?_⟩
    · rwa [PartPosition.rest, List.singleton_append, settled_plain literal,
        after_of_not_goesOn ends] at ready
    · rwa [after_of_not_goesOn ends]
  | dollar =>
    have ends := goesOn_dollar position
    refine ⟨.dollar, .inr rfl, ?_, fun reads => reads_plain literal (fits_of_not_goesOn ends) ?_⟩
    · rwa [PartPosition.rest, List.singleton_append, settled_plain literal,
        after_of_not_goesOn ends] at ready
    · rwa [after_of_not_goesOn ends]
  | name read =>
    rw [PartPosition.rest, List.singleton_append] at ready ⊢
    cases there : filling (.reference false read) with
    | some value => exact ⟨.outside, .inl rfl, reads_filled there ready⟩
    | none =>
      rw [settled, there] at ready
      exact ⟨.name read, .inr rfl, ready, reads_kept there steady⟩
  | braced read =>
    have ends := goesOn_dollar position
    rw [PartPosition.rest, List.map_cons, List.map_cons, List.cons_append, List.cons_append]
      at ready ⊢
    rw [settled_plain literal, after_of_not_goesOn ends, settled_plain literal] at ready
    obtain ⟨readyLater, later⟩ := reads_braced literal steady [] ready
    refine ⟨.braced read, .inr rfl, readyLater, fun reads => ?_⟩
    refine reads_plain literal (fits_of_not_goesOn ends) ?_
    rw [after_of_not_goesOn ends]
    exact reads_plain literal (fun _ => .inl ⟨rfl, rfl⟩) (later reads)

/-- A reference or a group that has been found is read as it has been found; behind it the reader
stands outside of references. -/
theorem reads_found {part : Part} (fits : part.Fits position)
    (leads : part.after position = .outside)
    (ready : settled filling position (part :: more) = true) :
    settled filling .outside more = true ∧
      (Reads filling .outside more → Reads filling position (part :: more)) := by
  cases there : filling part with
  | some value => exact reads_filled there ready
  | none =>
    rw [settled, there] at ready
    dsimp only at ready
    rw [leads] at ready
    refine ⟨ready, fun reads => reads_kept there fits ?_⟩
    rwa [leads]

end Again

/-- **The parts of a settled text are read again as they have been found.** -/
theorem reads_partsFrom {filling : Filling} (literal : filling.Literal) (grouped : Bool)
    {position : BindPosition} {open' : PartPosition} (steady : open'.Steady position)
    (text : List Char) (ready : settled filling position (partsFrom grouped open' text) = true) :
    Reads filling position (partsFrom grouped open' text) := by
  induction text generalizing position open' with
  | nil =>
    rw [partsFrom, ← List.append_nil open'.rest] at ready ⊢
    obtain ⟨next, -, -, reads⟩ := reads_rest literal steady ready
    exact reads trivial
  | cons c text ih =>
    unfold partsFrom at ready ⊢
    split at ready
    · next found next goesOn =>
      cases goesOn_of_goOn goesOn with
      | group digit =>
        have other : c ≠ '$' := by
          rintro rfl
          revert digit
          decide
        have fits : (Part.group c).Fits position := other
        obtain ⟨later, reads⟩ := reads_found fits rfl ready
        exact reads (ih rfl later)
      | brace => exact ih (fun _ => by simp) ready
      | letter letter => exact ih ⟨by simp, by simpa using letter⟩ ready
      | name letter =>
        have grown := List.forall_mem_append.mpr ⟨steady.2, List.forall_mem_singleton.mpr letter⟩
        exact ih ⟨by simp, grown⟩ ready
      | braced letter =>
        have grown := List.forall_mem_append.mpr ⟨steady, List.forall_mem_singleton.mpr letter⟩
        exact ih grown ready
      | @close read _ some =>
        have fits : (Part.reference true read).Fits position := ⟨some, steady⟩
        obtain ⟨later, reads⟩ := reads_found fits rfl ready
        exact reads (ih rfl later)
    · next ends =>
      rw [List.append_assoc] at ready ⊢
      obtain ⟨next, stands, later, reads⟩ := reads_rest literal steady ready
      have endsToo : next.goesOn c = false := by
        obtain rfl | rfl := stands
        · rfl
        · exact goesOn_reader ends
      refine reads ?_
      unfold PartPosition.begin at later ⊢
      split at later
      · next dollar =>
        rw [if_pos dollar]
        exact ih trivial later
      · next other =>
        rw [if_neg other]
        split at later
        · next backslash =>
          rw [if_pos backslash]
          exact ih trivial later
        · next literally =>
          rw [if_neg literally]
          have leads : Part.after next (.plain c) = .outside := by
            rw [after_of_not_goesOn endsToo, bindOutside, if_neg other]
          dsimp only at later ⊢
          rw [List.singleton_append] at later ⊢
          rw [settled_plain literal, leads] at later
          refine reads_plain literal (fits_of_not_goesOn endsToo) ?_
          rw [leads]
          exact ih rfl later

/-! ### One pass and several -/

@[simp] theorem Filling.nothing_orElse (filling : Filling) :
    Filling.nothing.orElse filling = filling :=
  funext fun _ => Option.none_or

/-- Values that a later filling has as well need not be put in before. -/
theorem Filling.orElse_orElse_of_le (first : Filling) {second third : Filling}
    (agree : ∀ part value, second part = some value → third part = some value) :
    (first.orElse second).orElse third = first.orElse third := by
  funext part
  unfold orElse
  cases first part with
  | some value => rfl
  | none =>
    rw [Option.none_or, Option.none_or]
    cases there : second part with
    | some value => exact (agree part value there).symm
    | none => rfl

theorem settled_nothing (position : BindPosition) (parts : List Part) :
    settled .nothing position parts = true := by
  induction parts generalizing position with
  | nil => rfl
  | cons part parts ih => exact ih (part.after position)

theorem fill_parts (text : List Char) : fill .nothing (parts false text) = text :=
  fill_partsFrom .outside text

/-- References to groups are replaced in one pass over the text. -/
theorem bindGroups_eq_fill (groups : List (List Char)) (text : List Char) :
    bindGroups groups text = fill (.matched groups) (parts true text) :=
  (bindGroups_partsFrom groups .outside text).symm

/-- **Values of variables that are put into a settled text could have been put in at once.** -/
theorem bind_fill (values : List Char → Option (List Char)) {filling : Filling}
    (literal : filling.Literal) {grouped : Bool} {text : List Char}
    (ready : settled filling .outside (parts grouped text) = true) :
    bind values (fill filling (parts grouped text)) =
      fill (filling.orElse (.named values)) (parts grouped text) := by
  have steady : PartPosition.outside.Steady .outside := rfl
  exact bindFrom_fill values (reads_partsFrom literal grouped steady text ready)

/-- References to variables are replaced in one pass over the text. -/
theorem bind_eq_fill (values : List Char → Option (List Char)) (text : List Char) :
    bind values text = fill (.named values) (parts false text) := by
  have literal : Filling.nothing.Literal := fun _ => rfl
  have once := bind_fill values literal (settled_nothing .outside (parts false text))
  rwa [fill_parts, Filling.nothing_orElse] at once

end BuildSystem.Chars
