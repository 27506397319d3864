/-
**Texts that were put together are taken apart again.**

* `Text.toList_join` — the characters of joined texts.
* `Chars.splitWhere_append`, `Chars.splitWhere_uncut` — a list is cut behind the pieces that hold no
  cut.
* `Chars.uncut_of_mem`, `Chars.splitWhere_intercalate`, `Chars.intercalate_splitWhere` — the pieces
  of a list hold no cut; such pieces are found again when they have been joined, and the pieces of a
  list join to the list.
* `Chars.lines_append_ended` — behind the end of a line, lines begin anew.
* `Chars.lines_intercalate` — texts that hold no line ends are the lines of the text that joins them
  by line feeds.
* `Chars.lines_unifyLineEnds` — a text has the same lines, however their ends are written.
* `Chars.strip_concat_blank`, `strip_eq_self`, `mem_strip`, `strip_shown` — what is stripped from a
  text, and what is not.
-/

import BuildSystem.Text.Blank
import BuildSystem.Text.Lines

namespace BuildSystem

theorem Text.toList_join (separator : String) (pieces : List String) :
    (Text.join separator pieces).toList =
      separator.toList.intercalate (pieces.map String.toList) := by
  induction pieces with
  | nil => rfl
  | cons piece others ih =>
    cases others with
    | nil => simp [Text.join]
    | cons other rest =>
      show (piece ++ separator ++ Text.join separator (other :: rest)).toList = _
      rw [String.toList_append, String.toList_append, ih]
      simp only [List.map_cons, List.intercalate_cons_cons]

namespace Chars

/-! ### Cuts -/

section Cuts

variable {α : Type} {cut : α → Bool} {piece : List α}

theorem splitWhere_append (uncut : ∀ item ∈ piece, cut item = false) {item : α}
    (cuts : cut item = true) (rest : List α) :
    splitWhere cut (piece ++ item :: rest) = piece :: splitWhere cut rest := by
  induction piece with
  | nil => simp [splitWhere, cuts]
  | cons first others ih =>
    rw [List.cons_append, splitWhere, if_neg (by simp [uncut first List.mem_cons_self]),
      ih fun other member => uncut other (List.mem_cons_of_mem first member)]

theorem splitWhere_uncut (uncut : ∀ item ∈ piece, cut item = false) :
    splitWhere cut piece = [piece] := by
  induction piece with
  | nil => rfl
  | cons first others ih =>
    rw [splitWhere, if_neg (by simp [uncut first List.mem_cons_self]),
      ih fun other member => uncut other (List.mem_cons_of_mem first member)]

/-- The pieces of a list hold no cut. -/
theorem uncut_of_mem {items : List α} (member : piece ∈ splitWhere cut items) :
    ∀ item ∈ piece, cut item = false := by
  induction items generalizing piece with
  | nil =>
    rw [splitWhere, List.mem_singleton] at member
    rw [member]
    exact List.forall_mem_nil _
  | cons first others ih =>
    rw [splitWhere] at member
    split at member
    · rcases List.mem_cons.mp member with rfl | later
      · exact List.forall_mem_nil _
      · exact ih later
    · next uncut =>
      have begins : ∀ {piece}, piece = [first] → ∀ item ∈ piece, cut item = false := by
        rintro _ rfl item only
        rw [List.mem_singleton.mp only]
        exact Bool.eq_false_iff.mpr uncut
      split at member
      · exact begins (List.mem_singleton.mp member)
      · next second pieces found =>
        rw [found] at ih
        rcases List.mem_cons.mp member with rfl | later
        · intro item among
          rcases List.mem_cons.mp among with rfl | among
          · exact begins rfl item List.mem_cons_self
          · exact ih List.mem_cons_self item among
        · exact ih (List.mem_cons_of_mem second later)

/-- **Joined pieces that hold no cut are found again.** -/
theorem splitWhere_intercalate {mark : α} (cuts : cut mark = true) {pieces : List (List α)}
    (some : pieces ≠ []) (uncut : ∀ piece ∈ pieces, ∀ item ∈ piece, cut item = false) :
    splitWhere cut ([mark].intercalate pieces) = pieces := by
  induction pieces with
  | nil => exact absurd rfl some
  | cons piece others ih =>
    rw [List.forall_mem_cons] at uncut
    cases others with
    | nil =>
      rw [List.intercalate_singleton]
      exact splitWhere_uncut uncut.1
    | cons other rest =>
      rw [List.intercalate_cons_cons, List.append_assoc, List.singleton_append,
        splitWhere_append uncut.1 cuts, ih (List.cons_ne_nil other rest) uncut.2]

/-- A list has at least one piece. -/
theorem splitWhere_ne_nil (cut : α → Bool) (items : List α) : splitWhere cut items ≠ [] := by
  cases items with
  | nil => exact List.cons_ne_nil _ _
  | cons first others =>
    rw [splitWhere]
    split
    · exact List.cons_ne_nil _ _
    · split <;> exact List.cons_ne_nil _ _

/-- **The pieces of a list, joined by the cuts, are the list again**, if all cuts are alike. -/
theorem intercalate_splitWhere {mark : α} (only : ∀ item, cut item = true → item = mark)
    (items : List α) : [mark].intercalate (splitWhere cut items) = items := by
  induction items with
  | nil => rfl
  | cons first others ih =>
    rw [splitWhere]
    split
    · next cuts =>
      obtain rfl := only first cuts
      cases pieces : splitWhere cut others with
      | nil => exact absurd pieces (splitWhere_ne_nil cut others)
      | cons piece more => rw [List.intercalate_cons_cons, ← pieces, ih]; rfl
    · cases pieces : splitWhere cut others with
      | nil => exact absurd pieces (splitWhere_ne_nil cut others)
      | cons piece more =>
        rw [pieces] at ih
        cases more with
        | nil => rw [← ih]; rfl
        | cons next more =>
          rw [List.intercalate_cons_cons] at ih ⊢
          rw [← ih]
          rfl

end Cuts

/-! ### Lines -/

section Lines

variable {line : List Char}

/-- A character that does not end a line belongs to the first line. -/
theorem lines_cons {c : Char} (inner : isLineEnd c = false) (rest : List Char) :
    lines (c :: rest) =
      match lines rest with
      | [] => [[c]]
      | line :: others => (c :: line) :: others := by
  rw [lines.eq_def]
  split
  · next none => cases none
  · next tail same =>
    obtain ⟨rfl, -⟩ := List.cons.inj same
    cases inner
  · next first others _ same =>
    obtain ⟨rfl, rfl⟩ := List.cons.inj same
    refine (if_neg (by simp [inner])).trans ?_
    cases lines rest <;> rfl

/-- A character that ends a line, unless it is the first half of an end. -/
theorem lines_lineEnd {c : Char} (ends : isLineEnd c = true) {rest : List Char}
    (alone : c = '\r' → rest.head? ≠ some '\n') : lines (c :: rest) = [] :: lines rest := by
  rw [lines.eq_def]
  split
  · next none => cases none
  · next tail same =>
    obtain ⟨rfl, rfl⟩ := List.cons.inj same
    exact absurd rfl (alone rfl)
  · next first others _ same =>
    obtain ⟨rfl, rfl⟩ := List.cons.inj same
    exact if_pos ends

theorem lines_append (inner : ∀ c ∈ line, isLineEnd c = false) (rest : List Char) :
    lines (line ++ '\n' :: rest) = line :: lines rest := by
  induction line with
  | nil =>
    rw [List.nil_append, lines.eq_def]
    rfl
  | cons first others ih =>
    rw [List.cons_append, lines_cons (inner first List.mem_cons_self),
      ih fun c member => inner c (List.mem_cons_of_mem first member)]

theorem lines_single (inner : ∀ c ∈ line, isLineEnd c = false) (some : line ≠ []) :
    lines line = [line] := by
  induction line with
  | nil => exact absurd rfl some
  | cons first others ih =>
    rw [lines_cons (inner first List.mem_cons_self)]
    cases others with
    | nil => rfl
    | cons second others =>
      rw [ih (fun c member => inner c (List.mem_cons_of_mem first member))
        (List.cons_ne_nil second others)]

theorem eq_nil_of_lines {text : List Char} (none : lines text = []) : text = [] := by
  rw [lines.eq_def] at none
  split at none
  · rfl
  · cases none
  · split at none
    · cases none
    · split at none <;> cases none

/-- **Behind the end of a line, lines begin anew**, unless a line feed completes that end. -/
theorem lines_append_ended {first rest : List Char}
    (ended : ∀ c, first.getLast? = some c → isLineEnd c = true)
    (apart : first.getLast? = some '\r' → rest.head? ≠ some '\n') :
    lines (first ++ rest) = lines first ++ lines rest := by
  have later : ∀ {others : List Char} {c} (first : Char), others.getLast? = some c →
      (first :: others).getLast? = some c := by
    intro others c first last
    rw [List.getLast?_cons, last]
    rfl
  fun_induction lines first with
  | case1 => rfl
  | case2 others ih =>
    have anew := ih (fun c last => ended c (later _ (later _ last))) fun last =>
      apart (later _ (later _ last))
    rw [List.cons_append, List.cons_append, lines.eq_2, anew]
    rfl
  | case3 c others single ends ih =>
    have alone : c = '\r' → (others ++ rest).head? ≠ some '\n' := by
      intro carriage
      cases others with
      | nil => exact apart (congrArg some carriage)
      | cons next others =>
        intro feed
        exact single others carriage (congrArg (· :: others) (Option.some.inj feed))
    rw [List.cons_append, lines_lineEnd ends alone, ih (fun c last => ended c (later _ last))
      fun last => apart (later _ last)]
    rfl
  | case4 c others _ inner none ih =>
    obtain rfl := eq_nil_of_lines none
    exact absurd (ended c rfl) inner
  | case5 c others _ inner line more first ih =>
    rw [List.cons_append, lines_cons (Bool.eq_false_iff.mpr inner),
      ih (fun c last => ended c (later _ last)) fun last => apart (later _ last), first]
    rfl

/-- **Texts without line ends are the lines of the text that joins them.** -/
theorem lines_intercalate {texts : List (List Char)}
    (given : ∀ text ∈ texts, text ≠ [] ∧ ∀ c ∈ text, isLineEnd c = false) :
    lines (['\n'].intercalate texts) = texts := by
  induction texts with
  | nil => rfl
  | cons text others ih =>
    obtain ⟨some, inner⟩ := given text List.mem_cons_self
    cases others with
    | nil =>
      rw [List.intercalate_singleton]
      exact lines_single inner some
    | cons other rest =>
      rw [List.intercalate_cons_cons, List.append_assoc, List.singleton_append,
        lines_append inner, ih fun text member => given text (List.mem_cons_of_mem _ member)]

/-- **A text has the same lines, however their ends are written.** -/
theorem lines_unifyLineEnds (text : List Char) : lines (unifyLineEnds text) = lines text := by
  fun_induction unifyLineEnds text with
  | case1 => rfl
  | case2 rest ih =>
    rw [lines_lineEnd (by decide) fun same => absurd same (by decide), ih]
    rfl
  | case3 c rest single ih =>
    by_cases carriage : c = '\r'
    · have alone : rest.head? ≠ some '\n' := by
        intro feed
        obtain ⟨tail, begins⟩ := List.head?_eq_some_iff.mp feed
        exact single tail carriage begins
      subst carriage
      rw [if_pos rfl, lines_lineEnd (by decide) fun same => absurd same (by decide), ih,
        lines_lineEnd (by decide) fun _ => alone]
    · rw [if_neg carriage]
      cases ends : isLineEnd c with
      | true =>
        rw [lines_lineEnd ends fun same => absurd same carriage, ih,
          lines_lineEnd ends fun same => absurd same carriage]
      | false => rw [lines_cons ends, ih, lines_cons ends]

end Lines

/-! ### Stripped texts -/

theorem stripEnd_concat {c : Char} (shown : isBlank c = false) (text : List Char) :
    stripEnd (text ++ [c]) = text ++ [c] := by
  induction text with
  | nil => simp [stripEnd, shown]
  | cons first others ih =>
    show (if (stripEnd (others ++ [c])).isEmpty && isBlank first then []
      else first :: stripEnd (others ++ [c])) = _
    rw [ih, if_neg (by simp)]
    rfl

theorem stripEnd_concat_blank {c : Char} (blank : isBlank c = true) (text : List Char) :
    stripEnd (text ++ [c]) = stripEnd text := by
  unfold stripEnd
  rw [List.foldr_append]
  simp [blank]

theorem strip_concat_blank {c : Char} (blank : isBlank c = true) (text : List Char) :
    strip (text ++ [c]) = strip text := by
  induction text with
  | nil => simp [strip, stripEnd, blank]
  | cons first others ih =>
    cases leading : isBlank first with
    | true => simpa [strip, leading] using ih
    | false => simpa [strip, leading] using stripEnd_concat_blank blank (first :: others)

/-- A text that begins and ends with characters that are not blank is kept. -/
theorem strip_eq_self {text : List Char} (first : text.head?.any isBlank = false)
    (last : text.getLast?.any isBlank = false) : strip text = text := by
  cases text with
  | nil => rfl
  | cons c rest =>
    have shown : isBlank c = false := by simpa using first
    unfold strip
    rw [List.dropWhile_cons_of_neg (by simp [shown])]
    rcases List.eq_nil_or_concat (c :: rest) with none | ⟨before, final, split⟩
    · cases none
    · rw [split, List.concat_eq_append] at last ⊢
      exact stripEnd_concat (by simpa using last) before

theorem mem_stripEnd {c : Char} (shown : isBlank c = false) {text : List Char}
    (member : c ∈ text) : c ∈ stripEnd text := by
  induction text with
  | nil => cases member
  | cons d rest ih =>
    show c ∈ if (stripEnd rest).isEmpty && isBlank d then [] else d :: stripEnd rest
    split
    · next goes =>
      rw [Bool.and_eq_true, List.isEmpty_iff] at goes
      rcases List.mem_cons.mp member with rfl | later
      · rw [shown] at goes
        cases goes.2
      · exact goes.1 ▸ ih later
    · exact List.mem_cons.mpr ((List.mem_cons.mp member).imp_right ih)

/-- A text without the blanks at its two ends has all its other characters. -/
theorem mem_strip {c : Char} (shown : isBlank c = false) {text : List Char} (member : c ∈ text) :
    c ∈ strip text := by
  refine mem_stripEnd shown ?_
  induction text with
  | nil => cases member
  | cons d rest ih =>
    by_cases blank : isBlank d = true
    · have differ : c ≠ d := by
        rintro rfl
        rw [shown] at blank
        cases blank
      rw [List.dropWhile_cons_of_pos blank]
      exact ih ((List.mem_cons.mp member).resolve_left differ)
    · rwa [List.dropWhile_cons_of_neg blank]

theorem strip_shown {text : List Char} (shown : ∀ c ∈ text, isBlank c = false) :
    strip text = text := by
  refine strip_eq_self ?_ ?_
  · cases first : text.head? with
    | none => rfl
    | some c => exact shown c (List.mem_of_head? first)
  · cases last : text.getLast? with
    | none => rfl
    | some c => exact shown c (List.mem_of_getLast? last)

end Chars

end BuildSystem
