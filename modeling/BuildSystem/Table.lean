/-
**Tables in order of insertion.**

A table holds one value per key and remembers the order in which the keys came.

* `Table.get?`, `Table.set`, `Table.erase` — look-up, assignment and removal.  Assigning to a key
  that is present keeps its place.
* `get?_set_self`, `get?_set_of_ne` — an assignment is seen at its key and nowhere else.
* `Table.keys` — the keys in order; assignment adds one at most, and removal takes one away.
* `get?_update` — several assignments at once.
* `mapValues` — a table with the same keys and other values.
* `get?_map_mem` — the look-up in a table that is made from a list of distinct keys.
* `perm_flatMap_erase`, `perm_flatMap_set` — in a table of lists, the members under one key and
  those under all others.
-/

namespace BuildSystem

/-- A table with keys in `κ` and values in `α`, in order of insertion. -/
abbrev Table (κ α : Type) := List (κ × α)

namespace Table

variable {κ α : Type} [DecidableEq κ]

/-- The value of a key. -/
def get? (key : κ) : Table κ α → Option α
  | [] => none
  | (k, value) :: rest => if k = key then some value else get? key rest

/-- Whether a key has a value. -/
def contains (key : κ) (table : Table κ α) : Bool :=
  (table.get? key).isSome

/-- Assigns a value to a key; a new key comes last. -/
def set (key : κ) (value : α) : Table κ α → Table κ α
  | [] => [(key, value)]
  | (k, old) :: rest => if k = key then (k, value) :: rest else (k, old) :: set key value rest

/-- Removes a key. -/
def erase (key : κ) : Table κ α → Table κ α
  | [] => []
  | (k, value) :: rest => if k = key then rest else (k, value) :: erase key rest

/-- Assigns all values of the second table. -/
def update (table changes : Table κ α) : Table κ α :=
  changes.foldl (fun current (key, value) => current.set key value) table

@[simp] theorem get?_nil (key : κ) : get? key ([] : Table κ α) = none := rfl

/-- An assignment is seen at its key. -/
@[simp] theorem get?_set_self (key : κ) (value : α) (table : Table κ α) :
    (table.set key value).get? key = some value := by
  induction table with
  | nil => simp [set, get?]
  | cons entry rest ih =>
    obtain ⟨k, old⟩ := entry
    by_cases same : k = key <;> simp [set, get?, same, ih]

/-- An assignment is not seen at other keys. -/
theorem get?_set_of_ne {key other : κ} (differ : other ≠ key) (value : α) (table : Table κ α) :
    (table.set key value).get? other = table.get? other := by
  induction table with
  | nil => simp [set, get?, Ne.symm differ]
  | cons entry rest ih =>
    obtain ⟨k, old⟩ := entry
    by_cases same : k = key
    · subst same
      simp [set, get?, Ne.symm differ]
    · simp [set, get?, same, ih]

/-- What an assignment does to all look-ups. -/
theorem get?_set (key other : κ) (value : α) (table : Table κ α) :
    (table.set key value).get? other = if other = key then some value else table.get? other := by
  split
  · next same => rw [same, get?_set_self]
  · next differ => exact get?_set_of_ne differ value table

/-- Of two assignments to one key the second counts. -/
@[simp] theorem set_set (key : κ) (first second : α) (table : Table κ α) :
    (table.set key first).set key second = table.set key second := by
  induction table with
  | nil => simp [set]
  | cons entry rest ih =>
    obtain ⟨k, old⟩ := entry
    by_cases same : k = key <;> simp [set, same, ih]

/-! ### Keys -/

/-- The keys of a table, in order. -/
def keys (table : Table κ α) : List κ :=
  table.map (·.1)

/-- Exactly the keys have values. -/
theorem contains_iff {key : κ} {table : Table κ α} :
    table.contains key = true ↔ key ∈ table.keys := by
  induction table with
  | nil => simp [contains, get?, keys]
  | cons entry rest ih =>
    obtain ⟨k, value⟩ := entry
    by_cases same : k = key
    · simp [contains, get?, keys, same]
    · have other : key ≠ k := fun equal => same equal.symm
      simpa [contains, get?, keys, same, other] using ih

/-- A look-up at anything but a key fails. -/
theorem get?_eq_none {key : κ} {table : Table κ α} (missing : key ∉ table.keys) :
    table.get? key = none := by
  have absent : ¬ table.contains key = true := fun present => missing (contains_iff.mp present)
  simpa [contains] using absent

/-- An assignment adds its key, unless it is there. -/
theorem keys_set (key : κ) (value : α) (table : Table κ α) :
    (table.set key value).keys = if key ∈ table.keys then table.keys else table.keys ++ [key] := by
  induction table with
  | nil => simp [set, keys]
  | cons entry rest ih =>
    obtain ⟨k, old⟩ := entry
    by_cases same : k = key
    · simp [set, keys, same]
    · have other : key ≠ k := fun equal => same equal.symm
      simp only [keys] at ih
      by_cases member : key ∈ rest.map (·.1) <;> simp [set, keys, same, other, ih, member]

/-- An assignment adds its key. -/
theorem mem_keys_set {key other : κ} {value : α} {table : Table κ α} :
    other ∈ (table.set key value).keys ↔ other = key ∨ other ∈ table.keys := by
  rw [keys_set]
  split
  · next known => exact ⟨Or.inr, fun either => either.elim (fun same => same ▸ known) id⟩
  · rw [List.mem_append, List.mem_singleton, or_comm]

/-- Assignments keep the keys distinct. -/
theorem nodup_keys_set {table : Table κ α} (distinct : table.keys.Nodup) (key : κ) (value : α) :
    (table.set key value).keys.Nodup := by
  rw [keys_set]
  split
  · exact distinct
  · next missing =>
    rw [List.nodup_append]
    refine ⟨distinct, by simp, fun other member last lastMember same => ?_⟩
    rw [List.mem_singleton.mp lastMember] at same
    exact missing (same ▸ member)

/-- Removal takes a key away and keeps all others in order. -/
theorem keys_erase (key : κ) (table : Table κ α) :
    (table.erase key).keys = table.keys.erase key := by
  induction table with
  | nil => rfl
  | cons entry rest ih =>
    obtain ⟨k, value⟩ := entry
    by_cases same : k = key
    · simp [erase, keys, same]
    · simp only [keys] at ih
      simp [erase, keys, same, ih]

/-- What a removal does to all look-ups, if the keys are distinct. -/
theorem get?_erase {table : Table κ α} (distinct : table.keys.Nodup) (key other : κ) :
    (table.erase key).get? other = if other = key then none else table.get? other := by
  induction table with
  | nil => simp [erase]
  | cons entry rest ih =>
    obtain ⟨k, value⟩ := entry
    obtain ⟨fresh, later⟩ := List.nodup_cons.mp distinct
    by_cases same : k = key
    · rw [erase, if_pos same]
      by_cases found : other = key
      · rw [if_pos found, found, ← same]
        exact get?_eq_none fresh
      · rw [if_neg found, get?, if_neg (fun equal => found (equal.symm.trans same))]
    · rw [erase, if_neg same, get?, get?, ih later]
      by_cases found : k = other
      · rw [if_pos found, if_pos found, if_neg (fun equal => same (found.trans equal))]
      · rw [if_neg found, if_neg found]

/-- The look-up in a table that lists a value for every member of a list with distinct keys. -/
theorem get?_map_mem {β : Type} {items : List β} {key : β → κ} {value : β → α}
    (distinct : (items.map key).Nodup) {item : β} (member : item ∈ items) :
    get? (key item) (items.map fun item => (key item, value item)) = some (value item) := by
  induction items with
  | nil => cases member
  | cons first rest ih =>
    rw [List.map_cons, List.nodup_cons] at distinct
    rcases List.mem_cons.mp member with rfl | later
    · simp [get?]
    · have differ : key first ≠ key item := fun same =>
        distinct.1 (same ▸ List.mem_map_of_mem later)
      rw [List.map_cons, get?, if_neg differ]
      exact ih distinct.2 later

/-- A look-up after several assignments to distinct keys. -/
theorem get?_update {changes : Table κ α} (distinct : changes.keys.Nodup) (table : Table κ α)
    (key : κ) : (table.update changes).get? key = (changes.get? key).or (table.get? key) := by
  induction changes generalizing table with
  | nil => rfl
  | cons entry rest ih =>
    obtain ⟨k, value⟩ := entry
    obtain ⟨fresh, later⟩ := List.nodup_cons.mp distinct
    show ((table.set k value).update rest).get? key = _
    rw [ih later, get?_set, get?]
    by_cases same : k = key
    · have missing : get? key rest = none := get?_eq_none (same ▸ fresh)
      simp [same, missing]
    · simp [same, Ne.symm same]

/-! ### Tables of other values -/

section MapValues

variable {β : Type}

/-- Changes all values of a table. -/
def mapValues (alter : α → β) (table : Table κ α) : Table κ β :=
  table.map fun (key, value) => (key, alter value)

theorem get?_mapValues (alter : α → β) (table : Table κ α) (key : κ) :
    (table.mapValues alter).get? key = (table.get? key).map alter := by
  induction table with
  | nil => rfl
  | cons entry rest ih =>
    obtain ⟨own, first⟩ := entry
    unfold mapValues
    rw [List.map_cons, get?, get?]
    split
    · rfl
    · exact ih

theorem mapValues_set (alter : α → β) (table : Table κ α) (key : κ) (value : α) :
    (table.set key value).mapValues alter = (table.mapValues alter).set key (alter value) := by
  unfold mapValues
  induction table with
  | nil => rfl
  | cons entry rest ih =>
    obtain ⟨own, first⟩ := entry
    rw [List.map_cons, set, set]
    split
    · rfl
    · rw [List.map_cons, ih]

end MapValues

/-! ### Entries -/

theorem mem_of_get? {table : Table κ α} {key : κ} {value : α}
    (found : table.get? key = some value) : (key, value) ∈ table := by
  induction table with
  | nil => cases found
  | cons entry rest ih =>
    obtain ⟨k, first⟩ := entry
    unfold get? at found
    split at found
    · next same =>
      rw [same, Option.some.inj found]
      exact List.mem_cons_self
    · exact List.mem_cons_of_mem _ (ih found)

/-- An assignment adds one entry at most. -/
theorem mem_set {table : Table κ α} {key : κ} {value : α} {entry : κ × α}
    (member : entry ∈ table.set key value) : entry = (key, value) ∨ entry ∈ table := by
  induction table with
  | nil => exact Or.inl (List.mem_singleton.mp member)
  | cons first rest ih =>
    obtain ⟨k, old⟩ := first
    unfold set at member
    split at member
    · next same =>
      rcases List.mem_cons.mp member with new | later
      · exact Or.inl (same ▸ new)
      · exact Or.inr (List.mem_cons_of_mem _ later)
    · rcases List.mem_cons.mp member with old | later
      · exact Or.inr (old ▸ List.mem_cons_self)
      · exact (ih later).imp_right (List.mem_cons_of_mem _)

/-- Removal adds no entry. -/
theorem mem_of_mem_erase {table : Table κ α} {key : κ} {entry : κ × α}
    (member : entry ∈ table.erase key) : entry ∈ table := by
  induction table with
  | nil => cases member
  | cons first rest ih =>
    obtain ⟨k, old⟩ := first
    unfold erase at member
    split at member
    · exact List.mem_cons_of_mem _ member
    · rcases List.mem_cons.mp member with old | later
      · exact old ▸ List.mem_cons_self
      · exact List.mem_cons_of_mem _ (ih later)

/-! ### Tables of lists -/

/-- The members under a key, and then the members under all other keys. -/
theorem perm_flatMap_erase {β : Type} (key : κ) (table : Table κ (List β)) :
    (table.flatMap (·.2)).Perm ((table.get? key).getD [] ++ (table.erase key).flatMap (·.2)) := by
  induction table with
  | nil => exact .refl _
  | cons entry rest ih =>
    obtain ⟨k, members⟩ := entry
    by_cases same : k = key
    · rw [get?, erase, if_pos same, if_pos same]
      exact .refl _
    · rw [get?, erase, if_neg same, if_neg same, List.flatMap_cons, List.flatMap_cons]
      exact (ih.append_left members).trans (List.perm_append_comm_assoc _ _ _)

/-- The members that are assigned to a key, and then the members under all other keys. -/
theorem perm_flatMap_set {β : Type} (key : κ) (members : List β) (table : Table κ (List β)) :
    ((table.set key members).flatMap (·.2)).Perm
      (members ++ (table.erase key).flatMap (·.2)) := by
  induction table with
  | nil => exact .refl _
  | cons entry rest ih =>
    obtain ⟨k, old⟩ := entry
    by_cases same : k = key
    · rw [set, erase, if_pos same, if_pos same]
      exact .refl _
    · rw [set, erase, if_neg same, if_neg same, List.flatMap_cons, List.flatMap_cons]
      exact (ih.append_left old).trans (List.perm_append_comm_assoc _ _ _)

end Table

end BuildSystem
