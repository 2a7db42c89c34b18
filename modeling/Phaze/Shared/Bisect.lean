import Mathlib.Data.List.Sort

set_option autoImplicit false

/-!
# Slices of a sorted list by two bisections

`bisect_left` over keys in order, and the rows whose key lies in a half-open range as one slice.
-/

namespace Phaze.Bisect

variable {Key Row : Type} [LinearOrder Key]

def bisectFrom (keys : List Key) (bound : Key) : Nat → Nat → Nat → Nat
  | 0, low, _ => low
  | fuel + 1, low, high =>
      if low < high then
        match keys[(low + high) / 2]? with
        | some key =>
            if key < bound then bisectFrom keys bound fuel ((low + high) / 2 + 1) high
            else bisectFrom keys bound fuel low ((low + high) / 2)
        | none => low
      else low

def bisectLeft (keys : List Key) (bound : Key) : Nat := bisectFrom keys bound keys.length 0 keys.length

-- Everything before the place is below the bound and nothing from it on is.
structure Cuts (keys : List Key) (bound : Key) (low high : Nat) : Prop where
  ordered : low ≤ high
  inside : high ≤ keys.length
  below : ∀ place (present : place < keys.length), place < low → keys[place] < bound
  above : ∀ place (present : place < keys.length), high ≤ place → bound ≤ keys[place]

variable {keys : List Key} {bound : Key} {low high : Nat}

/-! ## The loop -/

-- The same loop for any test; `bisect_right` goes on past the keys up to the bound.
def searchFrom (small : Key → Bool) (keys : List Key) : Nat → Nat → Nat → Nat
  | 0, low, _ => low
  | fuel + 1, low, high =>
      if low < high then
        match keys[(low + high) / 2]? with
        | some key =>
            if small key then searchFrom small keys fuel ((low + high) / 2 + 1) high
            else searchFrom small keys fuel low ((low + high) / 2)
        | none => low
      else low

def bisectRight (keys : List Key) (bound : Key) : Nat := searchFrom (fun key => decide (key ≤ bound)) keys keys.length 0 keys.length

-- The keys before `low` pass the test and those from `high` on do not.
structure Splits (small : Key → Bool) (keys : List Key) (low high : Nat) : Prop where
  ordered : low ≤ high
  inside : high ≤ keys.length
  below : ∀ place (present : place < keys.length), place < low → small keys[place] = true
  above : ∀ place (present : place < keys.length), high ≤ place → small keys[place] = false

variable {small : Key → Bool}

-- A key that passes the test is only behind others that pass it.
def Falling (small : Key → Bool) (keys : List Key) : Prop := keys.Pairwise fun key other => small other = true → small key = true

omit [LinearOrder Key] in
theorem Falling.earlier (falling : Falling small keys) {place other : Nat} (here : place < keys.length) (there : other < keys.length)
    (order : place ≤ other) (passes : small keys[other] = true) : small keys[place] = true := by
  obtain same | less := Nat.eq_or_lt_of_le order
  · subst same
    exact passes
  · exact List.pairwise_iff_getElem.mp falling place other here there less passes

omit [LinearOrder Key] in
theorem searchFrom_splits (falling : Falling small keys) (fuel : Nat) (splits : Splits small keys low high) (enough : high - low ≤ fuel) :
    Splits small keys (searchFrom small keys fuel low high) (searchFrom small keys fuel low high) := by
  induction fuel generalizing low high with
  | zero =>
    obtain rfl : low = high := Nat.le_antisymm splits.ordered (by omega)
    exact splits
  | succ fuel ih =>
    rw [searchFrom]
    split
    next wide =>
      have within := splits.inside
      have present : (low + high) / 2 < keys.length := by omega
      rw [List.getElem?_eq_getElem present]
      dsimp only
      split
      next passes =>
        apply ih _ (by omega)
        refine ⟨by omega, splits.inside, ?_, splits.above⟩
        intro place there before
        exact falling.earlier there present (by omega) passes
      next fails =>
        apply ih _ (by omega)
        refine ⟨by omega, by omega, splits.below, ?_⟩
        intro place there after
        rw [Bool.eq_false_iff]
        intro passes
        exact fails (falling.earlier present there after passes)
    next closed =>
      obtain rfl : low = high := Nat.le_antisymm splits.ordered (by omega)
      exact splits

omit [LinearOrder Key] in
theorem search_splits (falling : Falling small keys) :
    Splits small keys (searchFrom small keys keys.length 0 keys.length) (searchFrom small keys keys.length 0 keys.length) := by
  have whole : Splits small keys 0 keys.length := by
    refine ⟨Nat.zero_le _, le_refl _, ?_, ?_⟩
    · intro place there before
      omega
    · intro place there after
      omega
  exact searchFrom_splits falling keys.length whole (by omega)

theorem bisectFrom_eq (keys : List Key) (bound : Key) (fuel low high : Nat) :
    bisectFrom keys bound fuel low high = searchFrom (fun key => decide (key < bound)) keys fuel low high := by
  induction fuel generalizing low high with
  | zero => rfl
  | succ fuel ih =>
    rw [bisectFrom, searchFrom]
    simp only [ih, decide_eq_true_eq]

theorem bisectLeft_cuts (sorted : keys.Pairwise (· ≤ ·)) (bound : Key) :
    Cuts keys bound (bisectLeft keys bound) (bisectLeft keys bound) := by
  have falling : Falling (fun key => decide (key < bound)) keys :=
    sorted.imp fun order passes => decide_eq_true (lt_of_le_of_lt order (of_decide_eq_true passes))
  have splits := search_splits falling
  rw [bisectLeft, bisectFrom_eq]
  exact
    { ordered := splits.ordered
      inside := splits.inside
      below := fun place present before => of_decide_eq_true (splits.below place present before)
      above := fun place present after => not_lt.mp (of_decide_eq_false (splits.above place present after)) }

theorem bisectRight_splits (sorted : keys.Pairwise (· ≤ ·)) (bound : Key) :
    Splits (fun key => decide (key ≤ bound)) keys (bisectRight keys bound) (bisectRight keys bound) :=
  search_splits (sorted.imp fun order passes => decide_eq_true (le_trans order (of_decide_eq_true passes)))

/-! ## The slice -/

variable {key : Row → Key} {rows : List Row} {start stop : Key}

def slice (rows : List Row) (low high : Nat) : List Row := (rows.take high).drop low

private theorem take_filter {inside : Row → Bool} {count : Nat}
    (none : ∀ place (present : place < rows.length), place < count → inside rows[place] = false) :
    (rows.take count).filter inside = [] := by
  rw [List.filter_eq_nil_iff]
  intro row member
  obtain ⟨place, there, rfl⟩ := List.getElem_of_mem member
  rw [List.length_take] at there
  simp [none place (by omega) (by omega)]

private theorem drop_filter {inside : Row → Bool} {count : Nat}
    (none : ∀ place (present : place < rows.length), count ≤ place → inside rows[place] = false) :
    (rows.drop count).filter inside = [] := by
  rw [List.filter_eq_nil_iff]
  intro row member
  obtain ⟨place, there, rfl⟩ := List.getElem_of_mem member
  rw [List.length_drop] at there
  simp [none (count + place) (by omega) (by omega)]

/-- A slice holds the rows that lie between its two places. -/
theorem slice_eq_filter_of {inside : Row → Bool} {low high : Nat}
    (between : ∀ place (present : place < rows.length), inside rows[place] = true ↔ low ≤ place ∧ place < high) :
    (if low ≥ high then [] else slice rows low high) = rows.filter inside := by
  have outside : ∀ place (present : place < rows.length), ¬ (low ≤ place ∧ place < high) → inside rows[place] = false :=
    fun place present apart => Bool.eq_false_iff.mpr fun holds => apart ((between place present).mp holds)
  split
  next empty =>
    symm
    rw [List.filter_eq_nil_iff]
    intro row member
    obtain ⟨place, present, rfl⟩ := List.getElem_of_mem member
    rw [outside place present (by omega)]
    exact Bool.false_ne_true
  next filled =>
    have whole : rows = rows.take low ++ (slice rows low high ++ rows.drop high) := by
      have front : rows.take low = (rows.take high).take low := by
        rw [List.take_take, Nat.min_eq_left (by omega)]
      rw [slice, front, ← List.append_assoc, List.take_append_drop, List.take_append_drop]
    have left : (rows.take low).filter inside = [] :=
      take_filter fun place present less => outside place present (by omega)
    have right : (rows.drop high).filter inside = [] :=
      drop_filter fun place present more => outside place present (by omega)
    have middle : (slice rows low high).filter inside = slice rows low high := by
      rw [List.filter_eq_self]
      intro row member
      obtain ⟨place, there, rfl⟩ := List.getElem_of_mem member
      simp only [slice, List.length_drop, List.length_take] at there
      simp only [slice, List.getElem_drop, List.getElem_take]
      exact (between _ (by omega)).mpr ⟨by omega, by omega⟩
    conv_rhs => rw [whole, List.filter_append, List.filter_append, left, middle, right]
    simp

/-- Two bisections name the rows of a half-open range. -/
theorem slice_eq_filter (sorted : (rows.map key).Pairwise (· ≤ ·)) (start stop : Key) :
    (if bisectLeft (rows.map key) start ≥ bisectLeft (rows.map key) stop then []
      else slice rows (bisectLeft (rows.map key) start) (bisectLeft (rows.map key) stop)) =
      rows.filter fun row => start ≤ key row ∧ key row < stop := by
  have first := bisectLeft_cuts sorted start
  have last := bisectLeft_cuts sorted stop
  generalize bisectLeft (rows.map key) start = low at first ⊢
  generalize bisectLeft (rows.map key) stop = high at last ⊢
  apply slice_eq_filter_of
  intro place present
  have there : place < (rows.map key).length := by rwa [List.length_map]
  have under := first.below place there
  have beyond := first.above place there
  have before := last.below place there
  have after := last.above place there
  rw [List.getElem_map] at under beyond before after
  rw [decide_eq_true_eq]
  constructor
  · rintro ⟨reached, ahead⟩
    constructor
    · by_contra early
      exact not_lt.mpr reached (under (by omega))
    · by_contra late
      exact not_lt.mpr (after (by omega)) ahead
  · rintro ⟨reached, ahead⟩
    exact ⟨beyond reached, before ahead⟩

/-- Sorting the rows of a range by their arrival gives them as they arrived. -/
theorem sorted_slice {arrival : Row → Nat} {arrived chosen : List Row} (order : arrived.Pairwise (arrival · < arrival ·))
    (same : chosen.Perm arrived) : chosen.insertionSort (fun row other => arrival row ≤ arrival other) = arrived := by
  have unique : ∀ row ∈ arrived, ∀ other ∈ arrived, arrival row = arrival other → row = other := by
    intro row here other there alike
    obtain ⟨place, present, rfl⟩ := List.getElem_of_mem here
    obtain ⟨spot, found, rfl⟩ := List.getElem_of_mem there
    obtain less | rfl | more := Nat.lt_trichotomy place spot
    · have := List.pairwise_iff_getElem.mp order place spot present found less
      omega
    · rfl
    · have := List.pairwise_iff_getElem.mp order spot place found present more
      omega
  have total : Std.Total (fun row other : Row => arrival row ≤ arrival other) := ⟨fun row other => Nat.le_total _ _⟩
  have transitive : IsTrans Row (fun row other => arrival row ≤ arrival other) := ⟨fun _ _ _ => Nat.le_trans⟩
  have sorted := List.pairwise_insertionSort (fun row other => arrival row ≤ arrival other) chosen
  have perm := (List.perm_insertionSort (fun row other => arrival row ≤ arrival other) chosen).trans same
  apply List.Perm.eq_of_pairwise _ sorted (order.imp Nat.le_of_lt) perm
  intro row other here there le ge
  exact unique row (perm.mem_iff.mp here) other there (Nat.le_antisymm le ge)

end Phaze.Bisect
