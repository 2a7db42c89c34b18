import Mathlib

set_option autoImplicit false

/-!
# Counting the rows of a table

A table has one row for each key. `matching` is the set of keys a `SELECT … WHERE` returns.
-/

namespace Phaze

abbrev Table (Key Row : Type) := Finmap fun _ : Key => Row

namespace Table

variable {Key Row : Type} [DecidableEq Key]

def matching (table : Table Key Row) (selects : Key → Row → Bool) : Finset Key :=
  table.keys.filter fun key => (table.lookup key).any (selects key)

variable {table : Table Key Row} {selects : Key → Row → Bool} {key other : Key} {row : Row}

theorem mem_matching : key ∈ table.matching selects ↔ ∃ row, table.lookup key = some row ∧ selects key row := by
  rw [matching, Finset.mem_filter, Finmap.mem_keys, Finmap.mem_iff]
  constructor
  · rintro ⟨⟨row, found⟩, selected⟩
    refine ⟨row, found, ?_⟩
    simpa [found] using selected
  · rintro ⟨row, found, selected⟩
    exact ⟨⟨row, found⟩, by simpa [found] using selected⟩

theorem matching_insert_of_ne (different : other ≠ key) :
    other ∈ Table.matching (table.insert key row) selects ↔ other ∈ table.matching selects := by
  simp only [mem_matching, Finmap.lookup_insert_of_ne _ different]

theorem mem_matching_insert :
    key ∈ Table.matching (table.insert key row) selects ↔ selects key row = true := by
  simp [mem_matching]

theorem matching_erase_of_ne (different : other ≠ key) :
    other ∈ Table.matching (table.erase key) selects ↔ other ∈ table.matching selects := by
  simp only [mem_matching, Finmap.lookup_erase_ne different]

/-- A row of the table after a write is the one written, or was there before. -/
theorem lookup_insert_some {found : Row} : Finmap.lookup other (table.insert key row) = some found ↔
    other = key ∧ row = found ∨ other ≠ key ∧ table.lookup other = some found := by
  by_cases same : other = key
  · subst same
    simp [Finmap.lookup_insert]
  · simp [Finmap.lookup_insert_of_ne _ same, same]

theorem lookup_erase_some {found : Row} : Finmap.lookup other (table.erase key) = some found ↔
    other ≠ key ∧ table.lookup other = some found := by
  by_cases same : other = key
  · subst same
    simp
  · simp [Finmap.lookup_erase_ne same, same]

/-! ## Counting after a write -/

theorem matching_insert_subset :
    Table.matching (table.insert key row) selects ⊆ insert key (table.matching selects) := by
  intro other member
  by_cases same : other = key
  · subst same
    exact Finset.mem_insert_self _ _
  · exact Finset.mem_insert_of_mem ((matching_insert_of_ne same).mp member)

/-- A write adds at most its own row to those selected. -/
theorem card_matching_insert_le :
    (Table.matching (table.insert key row) selects).card ≤
      (table.matching selects).card + if selects key row then 1 else 0 := by
  cases selected : selects key row with
  | true =>
    exact (Finset.card_le_card matching_insert_subset).trans (Finset.card_insert_le _ _)
  | false =>
    refine Finset.card_le_card fun other member => ?_
    by_cases same : other = key
    · subst same
      rw [mem_matching_insert, selected] at member
      cases member
    · exact (matching_insert_of_ne same).mp member

/-- A write to a row that was selected already adds none. -/
theorem card_matching_insert_of_selected (already : selects key row → key ∈ table.matching selects) :
    (Table.matching (table.insert key row) selects).card ≤ (table.matching selects).card := by
  refine Finset.card_le_card fun other member => ?_
  by_cases same : other = key
  · subst same
    exact already (mem_matching_insert.mp member)
  · exact (matching_insert_of_ne same).mp member

theorem card_matching_erase_le :
    (Table.matching (table.erase key) selects).card ≤ (table.matching selects).card := by
  refine Finset.card_le_card fun other member => ?_
  by_cases same : other = key
  · subst same
    obtain ⟨row, found, -⟩ := mem_matching.mp member
    rw [Finmap.lookup_erase] at found
    cases found
  · exact (matching_erase_of_ne same).mp member

end Table

end Phaze
