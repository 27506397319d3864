/-
**Comment lines are invisible.**

* `CommentedAt` — a text with a comment line where a logical line begins.
* `commentedAt_inserted` — so is a text into which the line has been inserted.
* `readLine_comment` — a comment line leaves what has been read as it is, whatever the comment holds;
  a header stays open.
* `agree_readText_commented` — the text is read alike with the comment line and without it.
* `ofText_commented` — both texts declare the same rules, or both are refused for the same reason.
-/

import BuildSystem.Proofs.RuleFile.Inclusion
import BuildSystem.Proofs.Variable.Splitting

namespace BuildSystem

/-- A text that begins with a number sign is a comment. -/
theorem Chars.stripComment_comment (comment : List Char) :
    Chars.stripComment ('#' :: comment) = .ok [] := by
  have marked : Scan.marks ('#' :: comment) =
      ([] ++ ⟨'#', true⟩ :: (Scan.marks comment).1, (Scan.marks comment).2) := rfl
  exact Chars.stripComment_of_open marked fun _ member => nomatch member

namespace RuleFile

/-! ### Comment lines -/

/-- **A text with a comment line where a logical line begins**: behind the lines `before`, and before
the lines `after`. -/
structure CommentedAt (text commented : String) (before after : List (List Char))
    (comment : List Char) : Prop where
  lines : Chars.lines text.toList = before ++ after
  /-- No statement goes on behind the lines before it. -/
  starts : goesOn false before = false
  commented : Chars.lines commented.toList = before ++ ('#' :: comment) :: after
  /-- The comment does not go on in the next line. -/
  ends : ('#' :: comment).getLast? ≠ some '\\'

/-- **A comment line is inserted behind the end of a line** of a text. -/
theorem commentedAt_inserted {text commented : String} {first rest comment : List Char}
    (written : text.toList = first ++ rest)
    (inserted : commented.toList = first ++ ('#' :: comment ++ '\n' :: rest))
    (ended : ∀ c, first.getLast? = some c → Chars.isLineEnd c = true)
    (apart : first.getLast? = some '\r' → rest.head? ≠ some '\n')
    (starts : goesOn false (Chars.lines first) = false)
    (inner : ∀ c ∈ comment, Chars.isLineEnd c = false)
    (ends : ('#' :: comment).getLast? ≠ some '\\') :
    CommentedAt text commented (Chars.lines first) (Chars.lines rest) comment where
  lines := by rw [written, Chars.lines_append_ended ended apart]
  starts := starts
  commented := by
    have sign : ∀ c ∈ '#' :: comment, Chars.isLineEnd c = false :=
      List.forall_mem_cons.mpr ⟨rfl, inner⟩
    rw [inserted, Chars.lines_append_ended ended fun _ => by simp, Chars.lines_append sign]
  ends := ends

variable {σ : Type} {text commented : String} {before after : List (List Char)}
  {comment : List Char}

/-- The logical lines of a text with a comment line and of the text without it. -/
theorem CommentedAt.logicalLines (inserted : CommentedAt text commented before after comment) :
    ∃ number, 1 ≤ number ∧
      RuleFile.logicalLines text = linesFrom none 1 before ++ linesFrom none number after ∧
      RuleFile.logicalLines commented = linesFrom none 1 before ++
        ⟨number, .statement ('#' :: comment)⟩ :: linesFrom none (number + 1) after := by
  have begins : beginsStatement ('#' :: comment) = true := rfl
  refine ⟨1 + before.length, Nat.le_add_right _ _, ?_, ?_⟩
  · unfold RuleFile.logicalLines
    rw [inserted.lines, linesFrom_append joined_none inserted.starts]
  · unfold RuleFile.logicalLines
    rw [inserted.commented, linesFrom_append joined_none inserted.starts, linesFrom_none,
      if_pos begins, linesFromStatement_ends inserted.ends]

/-! ### Reading -/

/-- **A comment line leaves what has been read as it is.** -/
theorem readLine_comment (nested : Nested σ) (source : Source σ) (active : List String)
    (file : String) (reader : Reader) (number : Nat) (comment : List Char) :
    readLine nested source active file reader ⟨number, .statement ('#' :: comment)⟩ =
      pure reader := by
  show readStatement nested source active ⟨file, number⟩ ('#' :: comment) reader = _
  unfold readStatement
  rw [Chars.stripComment_comment]
  rfl

/-- **A text is read alike with a comment line and without it.** -/
theorem agree_readText_commented (inserted : CommentedAt text commented before after comment)
    (source : Source σ) (depth : Nat) (active : List String) (file : String) {one two : Reader}
    (alike : one.Comparable False two) :
    Agree False (Reader.Comparable False) (Failure.Comparable False)
      (readText source depth active file text one)
      (readText source depth active file commented two) := by
  cases depth with
  | zero => exact .throw (.refl _)
  | succ depth =>
    obtain ⟨number, first, lines, commentedLines⟩ := inserted.logicalLines
    have texts : NestedAgree False (readText source depth) (readText source depth) :=
      agree_readText source (Nat.le_refl depth) fun _ => rfl
    have reads : ∀ {one two : Reader} {lines lines' : List Line}, one.Comparable False two →
        List.Forall₂ (Line.Comparable False) lines lines' →
          Agree False (Reader.Comparable False) (Failure.Comparable False)
            (lines.foldlM (readLine (readText source depth) source active file) one)
            (lines'.foldlM (readLine (readText source depth) source active file) two) :=
      fun alike pairs => agree_readLines texts (List.Subset.refl active) (fun _ => ⟨rfl, rfl⟩) alike
        pairs
    unfold readText
    rw [lines, commentedLines, List.foldlM_append, List.foldlM_append, bind_assoc, bind_assoc]
    refine (reads alike (comparable_linesFrom (Nat.le_refl 1) (Nat.le_refl 1) before)).bind
      fun one two alike => ?_
    -- Whether a header is open or not, the comment line is passed over.
    rw [List.foldlM_cons, readLine_comment, pure_bind]
    exact (reads alike (comparable_linesFrom first (Nat.le_succ_of_le first) after)).bind
      fun _ _ alike => alike.agree_close

/-- **Comment lines are invisible**: from a text with a comment line, the same rules are read as from
the text without it, apart from their places, and the variables have the same values; or both texts
are refused for the same reason, apart from the number of the line. -/
theorem ofText_commented (inserted : CommentedAt text commented before after comment)
    (source : Source σ) (bindings : Bindings) (file : String) (state : σ) :
    EndAlike RuleSet.Alike Failure.Renumbered (ofText source bindings file text state)
      (ofText source bindings file commented state) := by
  have start : Reader.Comparable False { bindings } { bindings } := .refl rfl
  have sets : Agree False RuleSet.Alike (Failure.Comparable False)
      (ofText source bindings file text) (ofText source bindings file commented) := by
    unfold ofText
    refine .same Failure.Comparable.refl _ fun world => ?_
    refine (agree_readText_commented inserted source _ [] file start).bind fun _ _ alike => ?_
    exact .pure (.of_rules alike.rules (congrArg Bindings.values alike.bindings))
  exact ((sets state).resolve_right fun way => way.left).imp (fun _ _ alike => alike)
    fun _ _ alike => alike id

/-! ### A comment within a recipe -/

theorem commentedAt_recipe :
    CommentedAt "CC=cc\nprog: main.o\n\t$CC -o prog\n\tstrip prog\n"
      "CC=cc\nprog: main.o\n\t$CC -o prog\n# it's `\x7b: <$\x7b\n\tstrip prog\n"
      (Chars.lines "CC=cc\nprog: main.o\n\t$CC -o prog\n".toList)
      (Chars.lines "\tstrip prog\n".toList) " it's `\x7b: <$\x7b".toList := by
  have ended : ∀ c, "CC=cc\nprog: main.o\n\t$CC -o prog\n".toList.getLast? = some c →
      Chars.isLineEnd c = true := by
    rintro _ ⟨⟩
    rfl
  have inner : ∀ c ∈ " it's `\x7b: <$\x7b".toList, Chars.isLineEnd c = false := by
    have signs := List.all_eq_true.mp (by decide : " it's `\x7b: <$\x7b".toList.all
      (fun c => !Chars.isLineEnd c) = true)
    exact fun c member => by simpa using signs c member
  exact commentedAt_inserted (by decide +kernel) (by decide +kernel) ended (by decide) (by decide)
    inner (by decide)

/-- The recipe has both of its lines. -/
theorem ofText_recipe : ∃ ruleSet, ofText definitionsSource ⟨[], []⟩ "mkfile"
      "CC=cc\nprog: main.o\n\t$CC -o prog\n\tstrip prog\n" () = .ok ruleSet () ∧
    ruleSet.explicitRules.map (·.recipe) = [some "$CC -o prog\nstrip prog"] :=
  ⟨_, rfl, by decide⟩

theorem ofText_commented_recipe : ∃ ruleSet result,
    ofText definitionsSource ⟨[], []⟩ "mkfile"
      "CC=cc\nprog: main.o\n\t$CC -o prog\n\tstrip prog\n" () = .ok ruleSet () ∧
    ruleSet.explicitRules.map (·.recipe) = [some "$CC -o prog\nstrip prog"] ∧
    ofText definitionsSource ⟨[], []⟩ "mkfile"
      "CC=cc\nprog: main.o\n\t$CC -o prog\n# it's `\x7b: <$\x7b\n\tstrip prog\n" () =
        .ok result () ∧
    ruleSet.Alike result := by
  obtain ⟨ruleSet, read, recipes⟩ := ofText_recipe
  have alike := ofText_commented commentedAt_recipe definitionsSource ⟨[], []⟩ "mkfile" ()
  rw [read] at alike
  generalize ofText definitionsSource _ _ _ _ = ends at alike ⊢
  cases alike with
  | ok alike => exact ⟨ruleSet, _, read, recipes, rfl, alike⟩

/-- Where the text is refused, the comment line is counted. -/
example : ofText definitionsSource ⟨[], []⟩ "mkfile" "a:b:c:d\n" () =
      .error (malformed "malformed rule header: too many ':'" ⟨"mkfile", 1⟩) () ∧
    ofText definitionsSource ⟨[], []⟩ "mkfile" "# a: '\na:b:c:d\n" () =
      .error (malformed "malformed rule header: too many ':'" ⟨"mkfile", 2⟩) () :=
  ⟨rfl, rfl⟩

end RuleFile

end BuildSystem
