import Mathlib

set_option autoImplicit false

/-!
# Groups in order

Items grouped by a key, the groups in the order of their keys and each group in an order of its own. Where that order tells
all items apart, the whole depends on nothing but which items there are.
-/

namespace Phaze.Ranking

variable {Item Key Order : Type}

section

variable [DecidableEq Key]

-- `groups.setdefault(key, []).append(item)`
def setdefaultAppend (groups : List (Key × List Item)) (key : Key) (item : Item) : List (Key × List Item) :=
  if key ∈ groups.map Prod.fst then groups.map fun entry => if entry.1 = key then (key, entry.2 ++ [item]) else entry
  else groups ++ [(key, [item])]

def grouped (key : Item → Key) (items : List Item) : List (Key × List Item) :=
  items.foldl (fun groups item => setdefaultAppend groups (key item) item) []

structure Groups (key : Item → Key) (items : List Item) (groups : List (Key × List Item)) : Prop where
  distinct : (groups.map Prod.fst).Nodup
  members : ∀ entry ∈ groups, entry.2 = items.filter fun item => key item = entry.1
  known : ∀ item, item ∈ items → key item ∈ groups.map Prod.fst
  present : ∀ name ∈ groups.map Prod.fst, ∃ item ∈ items, key item = name

variable {key : Item → Key} {items : List Item} {groups : List (Key × List Item)}

theorem map_fst_update (groups : List (Key × List Item)) (name : Key) (item : Item) :
    (groups.map fun entry => if entry.1 = name then (name, entry.2 ++ [item]) else entry).map Prod.fst = groups.map Prod.fst := by
  rw [List.map_map]
  apply List.map_congr_left
  intro entry _
  rw [Function.comp_apply]
  split
  next same => exact same.symm
  next => rfl

theorem Groups.snoc (holds : Groups key items groups) (item : Item) :
    Groups key (items ++ [item]) (setdefaultAppend groups (key item) item) := by
  unfold setdefaultAppend
  split
  next seen =>
    have names := map_fst_update groups (key item) item
    exact
      { distinct := names ▸ holds.distinct
        members := by
          intro entry member
          obtain ⟨before, inside, rfl⟩ := List.mem_map.mp member
          rw [List.filter_append]
          split
          next same => simp [← holds.members before inside, ← same]
          next other =>
            rw [holds.members before inside]
            have apart : ¬ key item = before.1 := fun same => other same.symm
            simp [apart]
        known := by
          intro other member
          rw [names]
          obtain earlier | last := List.mem_append.mp member
          · exact holds.known other earlier
          · rwa [List.mem_singleton.mp last]
        present := by
          intro name member
          rw [names] at member
          obtain ⟨other, earlier, same⟩ := holds.present name member
          exact ⟨other, List.mem_append_left _ earlier, same⟩ }
  next unseen =>
    have none : items.filter (fun other => key other = key item) = [] := by
      rw [List.filter_eq_nil_iff]
      intro other member same
      exact unseen (of_decide_eq_true same ▸ holds.known other member)
    exact
      { distinct := by
          rw [List.map_append, List.nodup_append]
          refine ⟨holds.distinct, List.nodup_singleton _, ?_⟩
          intro name member other last same
          rw [List.map_singleton, List.mem_singleton] at last
          rw [same, last] at member
          exact unseen member
        members := by
          intro entry member
          rw [List.filter_append]
          obtain earlier | last := List.mem_append.mp member
          · have apart : ¬ key item = entry.1 := fun same => unseen (same ▸ List.mem_map_of_mem earlier)
            simp [holds.members entry earlier, apart]
          · rw [List.mem_singleton.mp last, none]
            simp
        known := by
          intro other member
          rw [List.map_append, List.mem_append]
          obtain earlier | last := List.mem_append.mp member
          · exact .inl (holds.known other earlier)
          · rw [List.mem_singleton.mp last]
            exact .inr (List.mem_singleton_self _)
        present := by
          intro name member
          rw [List.map_append, List.mem_append] at member
          obtain earlier | last := member
          · obtain ⟨other, inside, same⟩ := holds.present name earlier
            exact ⟨other, List.mem_append_left _ inside, same⟩
          · exact ⟨item, List.mem_append_right _ (List.mem_singleton_self _), (List.mem_singleton.mp last).symm⟩ }

theorem grouped_groups (key : Item → Key) (items : List Item) : Groups key items (grouped key items) := by
  induction items using List.reverseRecOn with
  | nil => exact { distinct := List.nodup_nil, members := by simp [grouped], known := by simp, present := by simp [grouped] }
  | append_singleton items item ih =>
    have next := ih.snoc item
    rwa [grouped, List.foldl_append]

theorem lookup_of_mem (distinct : (groups.map Prod.fst).Nodup) {entry : Key × List Item} (member : entry ∈ groups) :
    groups.lookup entry.1 = some entry.2 := by
  induction groups with
  | nil => exact absurd member List.not_mem_nil
  | cons first rest ih =>
    obtain ⟨absent, later⟩ := List.nodup_cons.mp distinct
    rw [List.lookup_cons]
    obtain rfl | inside := List.mem_cons.mp member
    · simp
    · have apart : (entry.1 == first.1) = false := beq_false_of_ne fun same => absent (same ▸ List.mem_map_of_mem inside)
      rw [apart]
      exact ih later inside

theorem grouped_lookup {name : Key} (member : name ∈ (grouped key items).map Prod.fst) :
    (grouped key items).lookup name = some (items.filter fun item => key item = name) := by
  obtain ⟨entry, inside, rfl⟩ := List.mem_map.mp member
  rw [lookup_of_mem (grouped_groups key items).distinct inside, (grouped_groups key items).members entry inside]

-- Every item is in the group of its key, and in no other.
theorem flatMap_filter_perm {names : List Key} (distinct : names.Nodup) (known : ∀ item ∈ items, key item ∈ names) :
    (names.flatMap fun name => items.filter fun item => key item = name).Perm items := by
  induction names generalizing items with
  | nil =>
    cases items with
    | nil => exact List.Perm.refl _
    | cons item rest => exact absurd (known item List.mem_cons_self) List.not_mem_nil
  | cons name rest ih =>
    obtain ⟨absent, later⟩ := List.nodup_cons.mp distinct
    have others : ∀ item ∈ items.filter (fun item => !decide (key item = name)), key item ∈ rest := by
      intro item member
      obtain ⟨inside, other⟩ := List.mem_filter.mp member
      exact (List.mem_cons.mp (known item inside)).resolve_left (by simpa using other)
    have same : (rest.flatMap fun other => (items.filter fun item => !decide (key item = name)).filter fun item => key item = other) =
        rest.flatMap fun other => items.filter fun item => key item = other := by
      apply List.flatMap_congr
      intro other member
      rw [List.filter_filter]
      apply List.filter_congr
      intro item _
      by_cases hit : key item = other
      · have apart : ¬ key item = name := fun clash => absent (clash ▸ hit ▸ member)
        simp [hit, hit ▸ apart]
      · simp [hit]
    have tail := ih later others
    rw [same] at tail
    rw [List.flatMap_cons]
    exact (tail.append_left _).trans (List.filter_append_perm _ items)

end

/-! ## In order -/

variable [LinearOrder Key] [LinearOrder Order]

def sortedKeys (key : Item → Key) (items : List Item) : List Key := ((grouped key items).map Prod.fst).insertionSort (· ≤ ·)

-- `sorted(members, key=order)`
def sortedBy (order : Item → Order) (items : List Item) : List Item := items.insertionSort fun item other => order item ≤ order other

-- `for key in sorted(groups): sorted(groups[key], key=order)`
def ranked (key : Item → Key) (order : Item → Order) (items : List Item) : List (List Item) :=
  (sortedKeys key items).map fun name => sortedBy order (((grouped key items).lookup name).getD [])

variable {key : Item → Key} {order : Item → Order} {items others : List Item}

theorem mem_sortedKeys {name : Key} : name ∈ sortedKeys key items ↔ ∃ item ∈ items, key item = name := by
  rw [sortedKeys, List.mem_insertionSort]
  constructor
  · exact (grouped_groups key items).present name
  · rintro ⟨item, member, rfl⟩
    exact (grouped_groups key items).known item member

theorem nodup_sortedKeys : (sortedKeys key items).Nodup :=
  (List.perm_insertionSort _ _).nodup_iff.mpr (grouped_groups key items).distinct

theorem ranked_eq : ranked key order items = (sortedKeys key items).map fun name => sortedBy order (items.filter fun item => key item = name) := by
  apply List.map_congr_left
  intro name member
  have known : name ∈ (grouped key items).map Prod.fst := (List.perm_insertionSort _ _).mem_iff.mp member
  rw [grouped_lookup known, Option.getD_some]

theorem sortedBy_perm (order : Item → Order) (items : List Item) : (sortedBy order items).Perm items := List.perm_insertionSort _ items

theorem flatten_ranked : (ranked key order items).flatten.Perm items := by
  rw [ranked_eq, ← List.flatMap_def]
  have groups : ((sortedKeys key items).flatMap fun name => items.filter fun item => key item = name).Perm items :=
    flatMap_filter_perm nodup_sortedKeys fun item member => mem_sortedKeys.mpr ⟨item, member, rfl⟩
  refine List.Perm.trans ?_ groups
  exact List.Perm.flatMap_left _ fun name _ => sortedBy_perm order _

theorem sortedBy_congr (perm : items.Perm others) (apart : (items.map order).Nodup) : sortedBy order items = sortedBy order others := by
  have sorted (values : List Item) : (sortedBy order values).Pairwise fun item other => order item ≤ order other :=
    List.pairwise_insertionSort _ _
  refine List.Perm.eq_of_pairwise ?_ (sorted items) (sorted others) ?_
  · intro item other inside inside' less more
    have first : item ∈ items := (sortedBy_perm order items).mem_iff.mp inside
    have second : other ∈ items := perm.mem_iff.mpr ((sortedBy_perm order others).mem_iff.mp inside')
    exact List.inj_on_of_nodup_map apart first second (le_antisymm less more)
  · exact (sortedBy_perm order items).trans (perm.trans (sortedBy_perm order others).symm)

theorem sortedKeys_congr (perm : items.Perm others) : sortedKeys key items = sortedKeys key others := by
  have sorted (values : List Item) : (sortedKeys key values).Pairwise (· ≤ ·) := List.pairwise_insertionSort _ _
  refine List.Perm.eq_of_pairwise (fun name other _ _ => le_antisymm) (sorted items) (sorted others) ?_
  rw [List.perm_ext_iff_of_nodup nodup_sortedKeys nodup_sortedKeys]
  intro name
  simp only [mem_sortedKeys, perm.mem_iff]

theorem ranked_congr (perm : items.Perm others) (apart : (items.map order).Nodup) : ranked key order items = ranked key order others := by
  rw [ranked_eq, ranked_eq, sortedKeys_congr perm]
  apply List.map_congr_left
  intro name _
  exact sortedBy_congr (perm.filter _) (apart.sublist (List.filter_sublist.map order))

-- A group is all the items of one key.
theorem mem_ranked {members : List Item} (member : members ∈ ranked key order items) :
    ∃ name, ∀ item, item ∈ members ↔ item ∈ items ∧ key item = name := by
  rw [ranked_eq] at member
  obtain ⟨name, _, rfl⟩ := List.mem_map.mp member
  refine ⟨name, fun item => ?_⟩
  rw [(sortedBy_perm order _).mem_iff, List.mem_filter, decide_eq_true_eq]

end Phaze.Ranking
