import Mathlib.Data.Finset.Sort

set_option autoImplicit false

/-!
# Walks by pages

A loop that reads the least keys behind a cursor, at most `limit` of them, works on that page, and goes on behind
the last of them. It stops at a short page. Where work on a page leaves the other keys to be read as they were,
every key is come past.
-/

namespace Phaze.Pages

section Page

variable {Key : Type} [LinearOrder Key]

def behind (keys : Finset Key) : Option Key → Finset Key
  | none => keys
  | some after => keys.filter fun key => after < key

def ordered (keys : Finset Key) : List Key := keys.sort (· ≤ ·)

-- `GROUP BY key … AND key > after ORDER BY key LIMIT limit`
def page (keys : Finset Key) (limit : Nat) (after : Option Key) : List Key := (ordered (behind keys after)).take limit

variable {keys : Finset Key} {limit : Nat} {after : Option Key} {key last : Key}

theorem mem_behind : key ∈ behind keys after ↔ key ∈ keys ∧ ∀ last ∈ after, last < key := by
  cases after with
  | none => simp [behind]
  | some after => simp [behind]

theorem mem_ordered : key ∈ ordered keys ↔ key ∈ keys := Finset.mem_sort (· ≤ ·)

theorem ordered_sorted : (ordered keys).Pairwise (· < ·) := (Finset.sortedLT_sort keys).pairwise

theorem toFinset_ordered : (ordered keys).toFinset = keys := Finset.sort_toFinset keys (· ≤ ·)

theorem mem_of_page (member : key ∈ page keys limit after) : key ∈ behind keys after :=
  mem_ordered.mp (List.mem_of_mem_take member)

theorem page_sorted : (page keys limit after).Pairwise (· < ·) := ordered_sorted.sublist (List.take_sublist _ _)

theorem le_getLast (found : (page keys limit after).getLast? = some last) (member : key ∈ page keys limit after) :
    key ≤ last := by
  obtain ⟨front, split⟩ := List.getLast?_eq_some_iff.mp found
  have sorted := @page_sorted _ _ keys limit after
  rw [split] at member sorted
  rcases List.mem_append.mp member with member | member
  next => exact ((List.pairwise_append.mp sorted).2.2 key member last (List.mem_singleton_self _)).le
  next => exact (List.mem_singleton.mp member).le

-- A key behind the cursor that a page leaves out comes after all of it, and the page is full.
theorem page_covers (member : key ∈ behind keys after) (missed : key ∉ page keys limit after) :
    limit ≤ (page keys limit after).length ∧ ∀ other ∈ page keys limit after, other < key := by
  have whole := mem_ordered.mpr member
  rw [← List.take_append_drop limit (ordered (behind keys after)), List.mem_append] at whole
  have rest := whole.resolve_left missed
  constructor
  next =>
    have long := List.length_pos_of_mem rest
    rw [List.length_drop] at long
    rw [page, List.length_take]
    omega
  next =>
    have sorted := @ordered_sorted _ _ (behind keys after)
    rw [← List.take_append_drop limit (ordered (behind keys after)), List.pairwise_append] at sorted
    exact fun other inside => sorted.2.2 other inside key rest

end Page

section Walk

variable {Key State : Type} [LinearOrder Key]
variable (keys : State → Finset Key) (visit : State → List Key → State) (limit : Nat)

def walk : Nat → Option Key → State → State
  | 0, _, state => state
  | fuel + 1, after, state =>
      let found := page (keys state) limit after
      match found.getLast? with
      | none => state
      | some last => if found.length < limit then visit state found else walk fuel (some last) (visit state found)

variable {keys visit limit} {motive : State → Key → Prop} {state : State} {fuel : Nat} {after : Option Key}

theorem behind_card_lt {last : Key} {found : List Key} {others : Finset Key}
    (page : found = page (keys state) limit after) (nonempty : found.getLast? = some last)
    (same : ∀ key, key ∉ found → key ∈ others → key ∈ keys state) :
    (behind others (some last)).card < (behind (keys state) after).card := by
  subst page
  have inside := mem_of_page (List.mem_of_getLast? nonempty)
  refine Finset.card_lt_card ⟨fun key member => ?_, fun subset => ?_⟩
  next =>
    obtain ⟨there, later⟩ := mem_behind.mp member
    have beyond : last < key := later last rfl
    have fresh : key ∉ Pages.page (keys state) limit after := fun listed => absurd (le_getLast nonempty listed) (not_le.mpr beyond)
    exact mem_behind.mpr ⟨same key fresh there, fun earlier cursor => ((mem_behind.mp inside).2 earlier cursor).trans beyond⟩
  next => exact lt_irrefl last ((mem_behind.mp (subset inside)).2 last rfl)

-- What a visit makes of the keys of its page, the walk makes of every key it has to come past.
theorem walk_covers (positive : 0 < limit)
    (visits : ∀ state found key, key ∈ found → motive (visit state found) key)
    (leaves : ∀ state found key, key ∉ found →
      (motive state key → motive (visit state found) key) ∧ (key ∈ keys (visit state found) ↔ key ∈ keys state))
    (enough : (behind (keys state) after).card < fuel)
    (before : ∀ key, motive state key ∨ key ∈ behind (keys state) after) :
    ∀ key, motive (walk keys visit limit fuel after state) key := by
  induction fuel generalizing after state with
  | zero => exact absurd enough (Nat.not_lt_zero _)
  | succ fuel ih =>
    rw [walk]
    cases nonempty : (page (keys state) limit after).getLast? with
    | none =>
      have empty := List.getLast?_eq_none_iff.mp nonempty
      intro key
      refine (before key).resolve_right fun member => ?_
      have full := (page_covers member (by rw [empty]; exact List.not_mem_nil)).1
      rw [empty, List.length_nil] at full
      omega
    | some last =>
      have after_visit : ∀ key, key ∈ page (keys state) limit after ∨ key ∉ behind (keys state) after →
          motive (visit state (page (keys state) limit after)) key := by
        intro key done
        by_cases listed : key ∈ page (keys state) limit after
        next => exact visits _ _ _ listed
        next => exact (leaves _ _ _ listed).1 ((before key).resolve_right (done.resolve_left listed))
      simp only
      split
      next short =>
        intro key
        by_cases listed : key ∈ page (keys state) limit after
        next => exact after_visit key (.inl listed)
        next => exact after_visit key (.inr fun member => absurd (page_covers member listed).1 (not_le.mpr short))
      next =>
        refine ih ?_ ?_
        next =>
          have smaller := behind_card_lt rfl nonempty fun key fresh => (leaves state _ key fresh).2.mp
          omega
        next =>
          intro key
          by_cases listed : key ∈ page (keys state) limit after
          next => exact .inl (after_visit key (.inl listed))
          next =>
            by_cases member : key ∈ behind (keys state) after
            next =>
              refine .inr (mem_behind.mpr ⟨(leaves _ _ _ listed).2.mpr (mem_behind.mp member).1, ?_⟩)
              rintro _ ⟨⟩
              exact (page_covers member listed).2 last (List.mem_of_getLast? nonempty)
            next => exact .inl (after_visit key (.inr member))

-- What every visit of a page keeps, the walk keeps.
theorem walk_keeps {kept : State → Prop}
    (each : ∀ state found, (∀ key ∈ found, key ∈ keys state) → kept state → kept (visit state found))
    (start : kept state) : kept (walk keys visit limit fuel after state) := by
  induction fuel generalizing after state with
  | zero => exact start
  | succ fuel ih =>
    have visited := each state (page (keys state) limit after) (fun _ member => (mem_behind.mp (mem_of_page member)).1) start
    rw [walk]
    cases (page (keys state) limit after).getLast? with
    | none => exact start
    | some last =>
      simp only
      split
      next => exact visited
      next => exact ih visited

end Walk

end Phaze.Pages
