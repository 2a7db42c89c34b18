import Mathlib.Data.List.Defs

set_option autoImplicit false

/-!
# Lists in chunks
-/

namespace Phaze.Shared

variable {α : Type}

theorem flatten_toChunks_go (size : Nat) (rest : List α) (current : Array α) (closed : Array (List α)) :
    (List.toChunks.go size rest current closed).flatten =
      closed.toList.flatten ++ current.toList ++ rest := by
  induction rest generalizing current closed with
  | nil => simp [List.toChunks.go]
  | cons head rest ih =>
      rw [List.toChunks.go]
      split <;> simp [ih]

theorem flatten_toChunks (size : Nat) (items : List α) : (items.toChunks size).flatten = items := by
  cases items with
  | nil => simp [List.toChunks]
  | cons head rest =>
      cases size with
      | zero => simp [List.toChunks]
      | succ size => simp [List.toChunks, flatten_toChunks_go]

theorem ne_nil_of_mem_toChunks_go (size : Nat) {rest : List α} {current : Array α} {closed : Array (List α)}
    (started : current.toList ≠ []) (full : ∀ chunk ∈ closed.toList, chunk ≠ []) :
    ∀ chunk ∈ List.toChunks.go size rest current closed, chunk ≠ [] := by
  induction rest generalizing current closed with
  | nil =>
      intro chunk member
      simp only [List.toChunks.go, Array.toList_push, List.mem_append, List.mem_singleton] at member
      rcases member with earlier | rfl
      · exact full chunk earlier
      · exact started
  | cons head rest ih =>
      rw [List.toChunks.go]
      split
      · refine ih (by simp) ?_
        intro chunk member
        rw [Array.toList_push, List.mem_append, List.mem_singleton] at member
        rcases member with earlier | rfl
        · exact full chunk earlier
        · exact started
      · exact ih (by simp) full

theorem ne_nil_of_mem_toChunks (size : Nat) {items chunk : List α} (member : chunk ∈ items.toChunks size) :
    chunk ≠ [] := by
  cases items with
  | nil => simp [List.toChunks] at member
  | cons head rest =>
      cases size with
      | zero => simp_all [List.toChunks]
      | succ size => exact ne_nil_of_mem_toChunks_go _ (by simp) (by simp) chunk member

/-! ## At most so many slices of one size -/

def slices (size : Nat) : Nat → List α → List (List α)
  | 0, _ => []
  | count + 1, items =>
      if (items.take size).isEmpty then [] else items.take size :: slices size count (items.drop size)

theorem flatten_slices (size count : Nat) (items : List α) :
    (slices size count items).flatten = items.take (count * size) := by
  induction count generalizing items with
  | zero => simp [slices]
  | succ count ih =>
      rw [slices, Nat.succ_mul, Nat.add_comm, List.take_add]
      split
      next none =>
        obtain rfl | rfl := List.take_eq_nil_iff.mp (List.isEmpty_iff.mp none) <;> simp
      next => rw [List.flatten_cons, ih]

theorem mem_slices {size count : Nat} {items slice : List α} (member : slice ∈ slices size count items) :
    slice ≠ [] ∧ slice.length ≤ size := by
  induction count generalizing items with
  | zero => simp [slices] at member
  | succ count ih =>
      rw [slices] at member
      split at member
      next => simp at member
      next present =>
        rcases List.mem_cons.mp member with rfl | later
        · exact ⟨by simpa using present, List.length_take_le size items⟩
        · exact ih later

theorem slices_nil (size count : Nat) : slices size count ([] : List α) = [] := by
  cases count <;> simp [slices]

-- Another slice follows only where the items go on.
theorem length_of_mem_dropLast_slices {size count : Nat} {items slice : List α}
    (member : slice ∈ (slices size count items).dropLast) : slice.length = size := by
  induction count generalizing items with
  | zero => simp [slices] at member
  | succ count ih =>
      rw [slices] at member
      split at member
      next => simp at member
      next =>
        by_cases last : slices size count (items.drop size) = []
        next => simp [last] at member
        next =>
          rw [List.dropLast_cons_of_ne_nil last] at member
          rcases List.mem_cons.mp member with rfl | later
          · have rest : items.drop size ≠ [] := fun none => last (none ▸ slices_nil size count)
            have longer : size < items.length := by simpa using rest
            rw [List.length_take, Nat.min_eq_left (Nat.le_of_lt longer)]
          · exact ih later

theorem slices_eq_nil_iff {size count : Nat} {items : List α} (sized : 0 < size) (counted : 0 < count) :
    slices size count items = [] ↔ items = [] := by
  cases count with
  | zero => omega
  | succ count => simp [slices, Nat.ne_of_gt sized]

end Phaze.Shared
