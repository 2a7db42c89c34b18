import Mathlib.Data.List.Nodup
import Mathlib.Data.List.Basic

set_option autoImplicit false

/-!
# Dictionaries in the order of insertion

A key that is set again keeps its place; one that was taken out comes back at the end.
-/

namespace Phaze

structure Dict (Key Value : Type) where
  items : List (Key × Value)
  distinct : (items.map Prod.fst).Nodup

namespace Dict

variable {Key Value : Type}

def empty : Dict Key Value := ⟨[], List.nodup_nil⟩

def keys (dict : Dict Key Value) : List Key := dict.items.map Prod.fst

variable [DecidableEq Key]

def get? (dict : Dict Key Value) (key : Key) : Option Value :=
  (dict.items.find? fun item => item.1 = key).map Prod.snd

theorem map_fst_replace (items : List (Key × Value)) (key : Key) (value : Value) :
    (items.map fun item => if item.1 = key then (key, value) else item).map Prod.fst = items.map Prod.fst := by
  rw [List.map_map]
  apply List.map_congr_left
  intro item _
  rw [Function.comp_apply]
  split
  next same => exact same.symm
  next => rfl

def set (dict : Dict Key Value) (key : Key) (value : Value) : Dict Key Value :=
  if present : key ∈ dict.keys then
    { items := dict.items.map fun item => if item.1 = key then (key, value) else item
      distinct := by
        rw [map_fst_replace]
        exact dict.distinct }
  else
    { items := dict.items ++ [(key, value)]
      distinct := by
        rw [List.map_append, List.nodup_append]
        refine ⟨dict.distinct, List.nodup_singleton _, ?_⟩
        rintro name member _ last rfl
        rw [List.map_singleton, List.mem_singleton] at last
        subst last
        exact present member }

def pop (dict : Dict Key Value) (key : Key) : Dict Key Value where
  items := dict.items.filter fun item => item.1 ≠ key
  distinct := dict.distinct.sublist (List.filter_sublist.map Prod.fst)

/-! ## Reading -/

variable {dict : Dict Key Value} {key other : Key} {value : Value}

@[simp]
theorem get?_empty : (empty : Dict Key Value).get? key = none := rfl

theorem mem_items : (key, value) ∈ dict.items ↔ dict.get? key = some value := by
  obtain ⟨items, distinct⟩ := dict
  rw [get?]
  induction items with
  | nil => simp
  | cons item rest ih =>
    obtain ⟨fresh, distinct⟩ := List.nodup_cons.mp distinct
    rw [List.mem_cons, List.find?_cons]
    by_cases same : item.1 = key
    next =>
      subst same
      have absent : (item.1, value) ∉ rest := fun member => fresh (List.mem_map.mpr ⟨_, member, rfl⟩)
      simp [absent, Prod.ext_iff, eq_comm]
    next =>
      have apart : (key, value) ≠ item := fun equal => same (equal ▸ rfl)
      simpa [same, apart] using ih distinct

theorem get?_eq_none : dict.get? key = none ↔ key ∉ dict.keys := by
  simp only [get?, keys, Option.map_eq_none_iff, List.find?_eq_none, List.mem_map, decide_eq_true_eq]
  constructor
  · rintro absent ⟨item, member, same⟩
    exact absent item member same
  · intro absent item member same
    exact absent ⟨item, member, same⟩

theorem mem_keys : key ∈ dict.keys ↔ ∃ value, dict.get? key = some value := by
  rw [← not_iff_not, ← get?_eq_none, ← Option.isSome_iff_exists, Option.not_isSome_iff_eq_none]

@[simp]
theorem get?_set : (dict.set key value).get? other = if other = key then some value else dict.get? other := by
  ext found
  rw [← mem_items, set]
  split
  next present =>
    rw [List.mem_map]
    by_cases same : other = key
    next =>
      rw [if_pos same]
      obtain ⟨item, member, named⟩ := List.mem_map.mp present
      constructor
      · rintro ⟨before, -, became⟩
        split at became
        next => simp_all
        next apart => exact absurd (became ▸ same) apart
      · rintro ⟨⟩
        exact ⟨item, member, by rw [if_pos named, same]⟩
    next =>
      rw [if_neg same, ← mem_items]
      constructor
      · rintro ⟨before, member, became⟩
        split at became
        next => exact absurd (congrArg Prod.fst became).symm same
        next => exact became ▸ member
      · intro member
        exact ⟨_, member, if_neg same⟩
  next fresh =>
    rw [List.mem_append, List.mem_singleton, mem_items]
    by_cases same : other = key
    next =>
      have absent : dict.get? other = none := get?_eq_none.mpr (same ▸ fresh)
      simp [same ▸ absent, same, eq_comm]
    next => simp [same]

@[simp]
theorem get?_pop : (dict.pop key).get? other = if other = key then none else dict.get? other := by
  ext found
  rw [← mem_items, pop, List.mem_filter, mem_items]
  by_cases same : other = key
  next => simp [same]
  next => simp [same]

/-! ## All the values at once -/

def mapValues (dict : Dict Key Value) (change : Key → Value → Value) : Dict Key Value where
  items := dict.items.map fun item => (item.1, change item.1 item.2)
  distinct := by
    rw [List.map_map]
    exact dict.distinct

def filter (dict : Dict Key Value) (keeps : Key → Value → Bool) : Dict Key Value where
  items := dict.items.filter fun item => keeps item.1 item.2
  distinct := dict.distinct.sublist (List.filter_sublist.map Prod.fst)

variable {change : Key → Value → Value} {keeps : Key → Value → Bool}

@[simp]
theorem get?_mapValues : (dict.mapValues change).get? key = (dict.get? key).map (change key) := by
  ext found
  rw [← mem_items, mapValues, List.mem_map, Option.map_eq_some_iff]
  constructor
  · rintro ⟨item, member, same⟩
    obtain ⟨rfl, rfl⟩ := Prod.mk.inj same
    exact ⟨item.2, mem_items.mp member, rfl⟩
  · rintro ⟨value, there, rfl⟩
    exact ⟨(key, value), mem_items.mpr there, rfl⟩

omit [DecidableEq Key] in
@[simp]
theorem keys_mapValues : (dict.mapValues change).keys = dict.keys := by
  rw [keys, mapValues, List.map_map]
  rfl

theorem countP_items {holds : Value → Bool} :
    dict.items.countP (fun item => holds item.2) = dict.keys.countP fun key => (dict.get? key).any holds := by
  rw [keys, List.countP_map]
  refine List.countP_congr fun item member => ?_
  rw [Function.comp_apply, mem_items.mp member, Option.any_some]

theorem get?_filter : (dict.filter keeps).get? key = some value ↔ dict.get? key = some value ∧ keeps key value = true := by
  rw [← mem_items, filter, List.mem_filter, mem_items]

end Dict

end Phaze
