/-
**Cutting a text loses nothing, and what is cut off stays whole.**

* `Scan.marks_parts` — a text is marked like its parts, each of which is taken alone, with the
  separators between them.
* `Scan.marks_numberSign` — a number sign behind a text whose enclosures have ends is open.
* `LongestUncommented` — the longest beginning of a text without an open number sign.
* `longestUncommented_of_stripComment` — this is what is left of a text without its comment.
* `cut_lossless` — parts join to the text, and neither they nor a text without its comment can be cut
  again.
-/

import BuildSystem.Proofs.Variable.Cuts

namespace BuildSystem

/-! ### Marks of a text and of its parts -/

namespace Scan

/-- Joined marks spell the joined texts. -/
theorem text_intercalate (separator : Mark) (pieces : List (List Mark)) :
    text ([separator].intercalate pieces) = [separator.character].intercalate (pieces.map text) := by
  induction pieces with
  | nil => rfl
  | cons piece others ih =>
    cases others with
    | nil => simp
    | cons other rest =>
      rw [List.intercalate_cons_cons, text_append, text_append, ih]
      simp [text]

/-- **A text is marked like its parts**, each of which is taken alone: `pieces` are the marks of the
parts, and they stand in the marks of the text with open separators between them. -/
theorem marks_parts {separator : Char} {text : String} {parts : List String}
    (cut : splitUnquoted (· == separator) text = .ok parts) :
    ∃ pieces, parts = pieces.map (fun piece => String.ofList (Scan.text piece)) ∧
      marks text.toList = ([⟨separator, true⟩].intercalate pieces, none) ∧
      ∀ piece ∈ pieces, marks (Scan.text piece) = (piece, none) ∧
        ∀ mark ∈ piece, (mark.isOpen && mark.character == separator) = false := by
  rw [splitUnquoted_eq, ← error_marks] at cut
  cases marked : marks text.toList with
  | mk all error =>
    rw [marked] at cut
    cases error with
    | some error => cases cut
    | none =>
      have opens : ∀ mark : Mark, (mark.isOpen && mark.character == separator) = true →
          mark = ⟨separator, true⟩ := by
        rintro ⟨c, isOpen⟩ both
        obtain ⟨rfl, same⟩ := Bool.and_eq_true_iff.mp both
        exact congrArg (Mark.mk · true) (eq_of_beq same)
      refine ⟨_, (Except.ok.inj cut).symm, ?_, fun piece member => ⟨?_, ?_⟩⟩
      · rw [Chars.intercalate_splitWhere opens]
      · exact (part_alone (fun mark both => (Bool.and_eq_true_iff.mp both).1) marked member).1
      · exact Chars.uncut_of_mem member

/-! ### Comments -/

/-- **A number sign is open behind a text whose enclosures have ends.** -/
theorem marks_numberSign {before : List Char} {seen : List Mark}
    (marked : marks before = (seen, none)) (rest : List Char) :
    ∃ others, (marks (before ++ '#' :: rest)).1 = seen ++ ⟨'#', true⟩ :: others := by
  rw [marks, marksFrom_eq] at marked
  rw [marks, marksFrom_append]
  generalize after .outside before = reached at marked ⊢
  obtain ⟨first, position⟩ := reached
  obtain ⟨rfl, ended⟩ := Prod.mk.inj marked
  refine ⟨(marksFrom .outside rest).1, ?_⟩
  cases position with
  | outside => simp [marksFrom, step, stepOutside, finish]
  | sign sign => simp [marksFrom, step, stepOutside, finish]
  | quoteSeen => simp [marksFrom, step, stepOutside, finish]
  | quoted => cases ended
  | braced sign => cases ended

end Scan

/-- **The longest beginning of a text without an open number sign**, whether beginnings are marked
alone or within the text. -/
structure LongestUncommented (text result : List Char) : Prop where
  begins : result <+: text
  uncommented : ⟨'#', true⟩ ∉ (Scan.marks result).1
  longest : ∀ start, start <+: text → ⟨'#', true⟩ ∉ (Scan.marks start).1 → start <+: result
  within : ∀ length ≤ text.length,
    ⟨'#', true⟩ ∉ (Scan.marks text).1.take length ↔ length ≤ result.length

namespace Chars

/-- A comment begins with the first open number sign, whatever stands behind it. -/
theorem stripComment_of_open {text : List Char} {first later : List Scan.Mark}
    {error : Option ExpansionError}
    (marked : Scan.marks text = (first ++ ⟨'#', true⟩ :: later, error))
    (closed : ∀ mark ∈ first, (mark.isOpen && mark.character == '#') = false) :
    stripComment text = .ok (Scan.text first) := by
  have front : (first ++ Scan.Mark.mk '#' true :: later).takeWhile
      (fun mark => !(mark.isOpen && mark.character == '#')) = first := by
    rw [List.takeWhile_append_of_pos fun mark member => by rw [closed mark member, Bool.not_false]]
    exact List.append_nil first
  have short : first.length < (first ++ Scan.Mark.mk '#' true :: later).length := by simp
  rw [stripComment, marked]
  dsimp only
  rw [front]
  cases error with
  | none => rfl
  | some error => exact if_pos short

/-- Without an open number sign, an enclosure without an end is an error. -/
theorem error_of_stripComment {text result : List Char} {all : List Scan.Mark}
    {error : Option ExpansionError} (stripped : stripComment text = .ok result)
    (marked : Scan.marks text = (all, error))
    (closed : ∀ mark ∈ all, (mark.isOpen && mark.character == '#') = false) : error = none := by
  have whole : all.takeWhile (fun mark => !(mark.isOpen && mark.character == '#')) = all :=
    List.takeWhile_eq_self_iff.mpr fun mark member => by rw [closed mark member, Bool.not_false]
  rw [stripComment, marked] at stripped
  dsimp only at stripped
  rw [whole] at stripped
  cases error with
  | none => rfl
  | some error =>
    dsimp only at stripped
    rw [if_neg (Nat.lt_irrefl _)] at stripped
    cases stripped

/-- **What is left of a text without its comment** is marked alone as it is marked in the text, and
it ends in front of the first open number sign, if there is one. -/
theorem marks_of_stripComment {text result : List Char} (stripped : stripComment text = .ok result) :
    ∃ kept others, Scan.marks result = (kept, none) ∧ (Scan.marks text).1 = kept ++ others ∧
      (∀ mark ∈ kept, (mark.isOpen && mark.character == '#') = false) ∧
      (others = [] ∨ ∃ later, others = ⟨'#', true⟩ :: later) := by
  cases marked : Scan.marks text with
  | mk all error =>
    cases found : all.find? fun mark => mark.isOpen && mark.character == '#' with
    | none =>
      have closed : ∀ mark ∈ all, (mark.isOpen && mark.character == '#') = false :=
        fun mark member => Bool.eq_false_iff.mpr (List.find?_eq_none.mp found mark member)
      obtain rfl := error_of_stripComment stripped marked closed
      obtain rfl := Except.ok.inj ((stripComment_eq_self marked closed).symm.trans stripped)
      exact ⟨all, [], marked, (List.append_nil all).symm, closed, .inl rfl⟩
    | some mark =>
      obtain ⟨cuts, first, later, rfl, uncut⟩ := List.find?_eq_some_iff_append.mp found
      have closed : ∀ mark ∈ first, (mark.isOpen && mark.character == '#') = false :=
        fun mark member => by rw [← Bool.not_eq_true', uncut mark member]
      obtain ⟨c, isOpen⟩ := mark
      obtain ⟨rfl, sign⟩ := Bool.and_eq_true_iff.mp cuts
      obtain rfl : c = '#' := eq_of_beq sign
      obtain rfl := Except.ok.inj ((stripComment_of_open marked closed).symm.trans stripped)
      rw [Scan.text_cut marked] at marked
      have here : first.length = (Scan.text first).length := (Scan.length_text first).symm
      obtain ⟨alone, -⟩ := Scan.marks_cut marked here
      exact ⟨first, _, alone, rfl, closed, .inr ⟨later, rfl⟩⟩

/-- **A text without its comment is the longest beginning without an open number sign.** -/
theorem longestUncommented_of_stripComment {text result : List Char}
    (stripped : stripComment text = .ok result) : LongestUncommented text result := by
  obtain ⟨kept, others, alone, marks, closed, ends⟩ := marks_of_stripComment stripped
  have apart : text = result ++ Scan.text others := by
    rw [← Scan.text_of_marks (Prod.ext marks rfl), Scan.text_append, Scan.text_of_marks alone]
  have long : kept.length = result.length := by
    rw [← Scan.text_of_marks alone, Scan.length_text]
  have uncommented : ⟨'#', true⟩ ∉ kept := fun member => Bool.noConfusion (closed _ member)
  refine ⟨⟨_, apart.symm⟩, by rwa [alone], fun start begins unmarked => ?_, fun length bound => ?_⟩
  · rcases List.prefix_or_prefix_of_prefix begins ⟨_, apart.symm⟩ with short | ⟨rest, rfl⟩
    · exact short
    · rw [apart, List.prefix_append_right_inj] at begins
      cases rest with
      | nil => exact (List.append_nil result).symm ▸ List.prefix_rfl
      | cons c rest =>
        -- The first character behind the result is the number sign with which the comment begins.
        rcases ends with rfl | ⟨later, rfl⟩
        · cases List.prefix_nil.mp begins
        · obtain rfl : c = '#' := (List.cons_prefix_cons.mp begins).1
          obtain ⟨more, found⟩ := Scan.marks_numberSign alone rest
          exact absurd (found ▸ List.mem_append_right kept List.mem_cons_self) unmarked
  · rw [marks, List.take_append]
    constructor
    · intro unmarked
      by_contra further
      rcases ends with rfl | ⟨later, rfl⟩
      · rw [apart, Scan.text, List.map_nil, List.append_nil] at bound
        exact further bound
      · obtain ⟨more, rest⟩ : ∃ more, length - kept.length = more + 1 :=
          ⟨length - kept.length - 1, by omega⟩
        rw [rest, List.take_succ_cons] at unmarked
        exact unmarked (List.mem_append_right _ List.mem_cons_self)
    · intro short
      rw [Nat.sub_eq_zero_of_le (long ▸ short), List.take_zero, List.append_nil]
      exact fun member => uncommented (List.mem_of_mem_take member)

end Chars

/-! ### Both cuts -/

/-- **Cutting a text loses nothing, and what is cut off stays whole.**  The parts of a text join to
the text; the text is marked like its parts, each of which is taken alone; and no part is cut again.
What is left of a text without its comment is the longest beginning without an open number sign, and
it has no comment. -/
theorem cut_lossless (separator : Char) (text : String) :
    (∀ parts, splitUnquoted (· == separator) text = .ok parts →
      Text.join (String.singleton separator) parts = text ∧
      Scan.marks text.toList =
        ([⟨separator, true⟩].intercalate (parts.map fun part => (Scan.marks part.toList).1), none) ∧
      ∀ part ∈ parts, splitUnquoted (· == separator) part = .ok [part]) ∧
    ∀ result, stripComment text = .ok result →
      LongestUncommented text.toList result.toList ∧ stripComment result = .ok result := by
  refine ⟨fun parts cut => ?_, fun result stripped => ?_⟩
  · obtain ⟨pieces, rfl, marked, alone⟩ := Scan.marks_parts cut
    refine ⟨?_, ?_, fun part member => ?_⟩
    · have texts : (pieces.map fun piece => String.ofList (Scan.text piece)).map String.toList =
          pieces.map Scan.text := by simp
      rw [← String.toList_inj, Text.toList_join, texts, String.toList_singleton,
        ← Scan.text_of_marks marked, Scan.text_intercalate]
    · have same : (pieces.map fun piece => String.ofList (Scan.text piece)).map
          (fun part => (Scan.marks part.toList).1) = pieces := by
        rw [List.map_map]
        refine (List.map_congr_left fun piece member => ?_).trans (List.map_id pieces)
        show (Scan.marks (String.ofList (Scan.text piece)).toList).1 = piece
        rw [String.toList_ofList, (alone piece member).1]
      rw [marked, same]
    · obtain ⟨piece, among, rfl⟩ := List.mem_map.mp member
      obtain ⟨marks, closed⟩ := alone piece among
      rw [splitUnquoted, String.toList_ofList, Chars.splitUnquoted_eq_self marks closed]
      rfl
  · rw [stripComment] at stripped ⊢
    cases found : Chars.stripComment text.toList with
    | error error =>
      rw [found] at stripped
      cases stripped
    | ok left =>
      rw [found] at stripped
      obtain rfl := Except.ok.inj stripped
      obtain ⟨kept, others, marks, -, closed, -⟩ := Chars.marks_of_stripComment found
      rw [String.toList_ofList, Chars.stripComment_eq_self marks closed]
      exact ⟨Chars.longestUncommented_of_stripComment found, rfl⟩

/-- A text with separators and number signs in enclosures. -/
def enclosures : String :=
  "'b:#' $\x7bx:y=z\x7d:`\x7bls: #\x7d$# rest: end"

/-- Separators and number signs in enclosures do not count, and a dollar sign is open in front of a
number sign. -/
theorem cut_lossless_enclosures :
    splitUnquoted (· == ':') enclosures =
      .ok ["'b:#' $\x7bx:y=z\x7d", "`\x7bls: #\x7d$# rest", " end"] ∧
    stripComment enclosures = .ok "'b:#' $\x7bx:y=z\x7d:`\x7bls: #\x7d$" ∧
    (Text.join ":" ["'b:#' $\x7bx:y=z\x7d", "`\x7bls: #\x7d$# rest", " end"] = enclosures ∧
      Scan.marks enclosures.toList =
        ([⟨':', true⟩].intercalate
          (["'b:#' $\x7bx:y=z\x7d", "`\x7bls: #\x7d$# rest", " end"].map fun part =>
            (Scan.marks part.toList).1), none) ∧
      ∀ part ∈ ["'b:#' $\x7bx:y=z\x7d", "`\x7bls: #\x7d$# rest", " end"],
        splitUnquoted (· == ':') part = .ok [part]) ∧
    LongestUncommented enclosures.toList "'b:#' $\x7bx:y=z\x7d:`\x7bls: #\x7d$".toList ∧
    stripComment "'b:#' $\x7bx:y=z\x7d:`\x7bls: #\x7d$" =
      .ok "'b:#' $\x7bx:y=z\x7d:`\x7bls: #\x7d$" := by
  have cut : splitUnquoted (· == ':') enclosures =
      .ok ["'b:#' $\x7bx:y=z\x7d", "`\x7bls: #\x7d$# rest", " end"] := by decide
  have stripped : stripComment enclosures = .ok "'b:#' $\x7bx:y=z\x7d:`\x7bls: #\x7d$" := by
    decide
  obtain ⟨ofParts, ofResult⟩ := cut_lossless ':' enclosures
  exact ⟨cut, stripped, ofParts _ cut, ofResult _ stripped⟩

end BuildSystem
