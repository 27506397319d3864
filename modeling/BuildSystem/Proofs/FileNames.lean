/-
**Names of files in their canonical form, and as they are shown.**

* `FileName.components_canonical`, `FileName.isAbsolute_canonical` — the canonical form of a name
  has the same components, and starts at the root if the name does.
* `FileName.resolved_canonical` — it names the same file.
* `FileName.shown_shown` — a shown name is shown as it is.
-/

import BuildSystem.FileName
import BuildSystem.Proofs.Text.Pieces

namespace BuildSystem

namespace FileName

/-- Whether a piece between slashes is a component. -/
def isComponent (piece : String) : Bool :=
  piece != "" && piece != "."

theorem components_eq (name : String) : components name =
    ((Chars.splitWhere (· == '/') name.toList).map String.ofList).filter isComponent :=
  rfl

/-- A component is no empty text, and holds no slash. -/
theorem of_mem_components {name component : String} (member : component ∈ components name) :
    isComponent component = true ∧ ∀ c ∈ component.toList, (c == '/') = false := by
  rw [components_eq, List.mem_filter, List.mem_map] at member
  obtain ⟨⟨piece, among, rfl⟩, proper⟩ := member
  rw [String.toList_ofList]
  exact ⟨proper, Chars.uncut_of_mem among⟩

/-- Components that are joined by slashes are found again. -/
theorem components_join {pieces : List String}
    (proper : ∀ piece ∈ pieces, isComponent piece = true ∧
      ∀ c ∈ piece.toList, (c == '/') = false) :
    components (Text.join "/" pieces) = pieces := by
  have kept : pieces.filter isComponent = pieces :=
    List.filter_eq_self.mpr fun piece member => (proper piece member).1
  rw [components_eq, Text.toList_join]
  cases pieces with
  | nil => rfl
  | cons piece others =>
    have found : Chars.splitWhere (· == '/')
        (['/'].intercalate ((piece :: others).map String.toList)) =
          (piece :: others).map String.toList := by
      refine Chars.splitWhere_intercalate rfl (by simp) fun letters member => ?_
      obtain ⟨text, among, rfl⟩ := List.mem_map.mp member
      exact (proper text among).2
    rw [show "/".toList = ['/'] from rfl, found, List.map_map]
    simpa using kept

/-- A slash before a name adds no component. -/
theorem components_slash (name : String) : components ("/" ++ name) = components name := by
  rw [components_eq, String.toList_append]
  rfl

/-- **The canonical form of a name has the same components.** -/
theorem components_canonical (name : String) : components (canonical name) = components name := by
  unfold canonical
  have joined : components (Text.join "/" (components name)) = components name :=
    components_join fun _ member => of_mem_components member
  split
  · rw [components_slash, joined]
  · rw [String.empty_append, joined]

/-- The components of a name begin with no slash. -/
theorem head?_join_components (name : String) :
    (Text.join "/" (components name)).toList.head? ≠ some '/' := by
  rw [Text.toList_join]
  cases found : components name with
  | nil => exact nofun
  | cons first others =>
    obtain ⟨some, inner⟩ := of_mem_components (found ▸ List.mem_cons_self : first ∈ components name)
    cases letters : first.toList with
    | nil =>
      rw [String.toList_eq_nil_iff.mp letters] at some
      cases some
    | cons c rest =>
      have other := inner c (letters ▸ List.mem_cons_self)
      have begins : ("/".toList.intercalate ((first :: others).map String.toList)).head? =
          Option.some c := by
        cases others with
        | nil => simp [letters]
        | cons second more => simp [letters, List.intercalate_cons_cons]
      rw [begins]
      rintro ⟨⟩
      cases other

/-- The canonical form of a name starts at the root if the name does. -/
theorem isAbsolute_canonical (name : String) : isAbsolute (canonical name) = isAbsolute name := by
  unfold canonical
  split
  · next absolute =>
    rw [absolute, isAbsolute, String.toList_append]
    rfl
  · next relative =>
    rw [Bool.eq_false_iff.mpr relative, String.empty_append, isAbsolute, decide_eq_false_iff_not]
    exact head?_join_components name

/-- **The canonical form of a name names the same file.** -/
theorem resolved_canonical (directory : List String) (name : String) :
    resolved directory (canonical name) = resolved directory name := by
  unfold resolved
  rw [components_canonical, isAbsolute_canonical]

/-- A name starts at no root, at a slash, or at two slashes. -/
theorem root_cases (name : String) : root name = "" ∨ root name = "/" ∨ root name = "//" := by
  unfold root
  split
  · exact .inl rfl
  · exact .inr (.inr rfl)
  · exact .inr (.inl rfl)

/-- The root before a name that begins with no slash is found again. -/
theorem root_append {name rest : String} (begins : rest.toList.head? ≠ some '/') :
    root (root name ++ rest) = root name := by
  have none : rest.toList.takeWhile (· == '/') = [] := by
    cases letters : rest.toList with
    | nil => rfl
    | cons c others =>
      rw [letters] at begins
      exact List.takeWhile_cons_of_neg (by simpa using begins)
  rcases root_cases name with same | same | same
  all_goals
    rw [same, root, String.toList_append]
    simp [none]

/-- A root before a name adds no component. -/
theorem components_root (name rest : String) :
    components (root name ++ rest) = components rest := by
  rcases root_cases name with same | same | same
  · rw [same, String.empty_append]
  · rw [same, components_slash]
  · rw [same, show "//" = "/" ++ "/" from rfl, String.append_assoc, components_slash,
      components_slash]

/-- **A shown name is shown as it is.** -/
theorem shown_shown (name : String) : shown (shown name) = shown name := by
  have same : components (root name ++ Text.join "/" (components name)) = components name := by
    rw [components_root, components_join fun _ member => of_mem_components member]
  unfold shown
  dsimp only
  by_cases none : (root name ++ Text.join "/" (components name)).isEmpty = true
  · rw [if_pos none]
    rfl
  · rw [if_neg none, same, root_append (head?_join_components name), if_neg none]

end FileName

end BuildSystem
