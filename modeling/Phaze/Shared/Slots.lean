import Mathlib

set_option autoImplicit false

/-!
# Counting with lists

Rows of given sizes and the places in them, each named by its row and its position. Names of
distinct places are at most as many as there are places. Sums can be split by a key.
-/

namespace Phaze.Shared

def slots (sizes : List Nat) : List (Nat × Nat) :=
  sizes.zipIdx.flatMap fun row => (List.range row.1).map fun position => (row.2, position)

variable {sizes : List Nat} {names : List (Nat × Nat)}

theorem mem_slots {name : Nat × Nat} :
    name ∈ slots sizes ↔ ∃ size, sizes[name.1]? = some size ∧ name.2 < size := by
  obtain ⟨row, position⟩ := name
  simp only [slots, List.mem_flatMap, List.mem_map, List.mem_range, Prod.mk.injEq, Prod.exists,
    List.mem_zipIdx_iff_getElem?]
  constructor
  · rintro ⟨size, index, found, place, inside, rfl, rfl⟩
    exact ⟨size, found, inside⟩
  · rintro ⟨size, found, inside⟩
    exact ⟨size, row, found, position, inside, rfl, rfl⟩

theorem length_slots (sizes : List Nat) : (slots sizes).length = sizes.sum := by
  simp [slots, List.length_flatMap]

theorem nodup_slots (sizes : List Nat) : (slots sizes).Nodup := by
  rw [slots, List.nodup_flatMap]
  refine ⟨fun row _ => (List.nodup_range).map fun _ _ same => (Prod.mk.inj same).2, ?_⟩
  have rows : sizes.zipIdx.Pairwise fun one two => one.2 ≠ two.2 := by
    have distinct : (sizes.zipIdx.map Prod.snd).Nodup := by
      rw [List.zipIdx_map_snd]
      exact List.nodup_range'
    exact List.pairwise_map.mp distinct
  refine rows.imp fun {one two} different => ?_
  intro name here there
  obtain ⟨_, _, rfl⟩ := List.mem_map.mp here
  obtain ⟨_, _, same⟩ := List.mem_map.mp there
  exact different (Prod.mk.inj same).1.symm

theorem length_le_of_slots (distinct : names.Nodup) (inside : names ⊆ slots sizes) :
    names.length ≤ sizes.sum := by
  rw [← length_slots]
  exact (distinct.subperm inside).length_le

theorem slots_subset (distinct : names.Nodup) (inside : names ⊆ slots sizes) (many : sizes.sum ≤ names.length) :
    slots sizes ⊆ names := by
  rw [← length_slots] at many
  exact ((distinct.subperm inside).perm_of_length_le many).symm.subset

theorem length_eq_of_slots (distinct : names.Nodup) (inside : names ⊆ slots sizes)
    (every : slots sizes ⊆ names) : names.length = sizes.sum := by
  refine Nat.le_antisymm (length_le_of_slots distinct inside) ?_
  rw [← length_slots]
  exact ((nodup_slots sizes).subperm every).length_le

section Sums

variable {α κ : Type} [DecidableEq κ]

theorem sum_by_key {keys : List κ} (distinct : keys.Nodup) (key : α → κ) (weight : α → Nat) (items : List α)
    (known : ∀ item ∈ items, key item ∈ keys) :
    (keys.map fun each => (items.map fun item => if key item = each then weight item else 0).sum).sum =
      (items.map weight).sum := by
  induction items with
  | nil => simp
  | cons item rest ih =>
      have mine : (keys.map fun each => if key item = each then weight item else 0).sum = weight item := by
        rw [List.sum_map_eq_nsmul_single (key item) _ fun other different _ => if_neg (Ne.symm different),
          List.count_eq_one_of_mem distinct (known item (List.mem_cons_self ..))]
        simp
      simp only [List.map_cons, List.sum_cons, List.sum_map_add, mine]
      rw [ih fun other member => known other (List.mem_cons_of_mem _ member)]

theorem map_fst_zipIdx {β : Type} (read : α → β) (items : List α) :
    items.zipIdx.map (fun entry => read entry.1) = items.map read := by
  have both : items.zipIdx.map (fun entry => read entry.1) = (items.zipIdx.map Prod.fst).map read := by
    rw [List.map_map]
    rfl
  rw [both, List.zipIdx_map_fst]

theorem sum_map_zip {β : Type} (weight : α → β → Nat) (items : List α) (marks : List β) (start : Nat) :
    ((items.zip marks).map fun entry => weight entry.1 entry.2).sum =
      ((items.zipIdx start).map fun entry => (marks[entry.2 - start]?).elim 0 (weight entry.1)).sum := by
  induction items generalizing marks start with
  | nil => simp
  | cons item rest ih =>
      cases marks with
      | nil => simp
      | cons mark marks =>
          have later : ∀ entry ∈ rest.zipIdx (start + 1),
              ((mark :: marks)[entry.2 - start]?).elim 0 (weight entry.1) =
                (marks[entry.2 - (start + 1)]?).elim 0 (weight entry.1) := by
            intro entry member
            have after := List.le_snd_of_mem_zipIdx member
            obtain ⟨position, same⟩ : ∃ position, entry.2 - start = position + 1 :=
              ⟨entry.2 - (start + 1), by omega⟩
            rw [same, List.getElem?_cons_succ, show entry.2 - (start + 1) = position by omega]
          rw [List.zip_cons_cons, List.map_cons, List.sum_cons, ih marks (start + 1), List.zipIdx_cons,
            List.map_cons, List.sum_cons, List.map_congr_left later]
          simp

end Sums

end Phaze.Shared
