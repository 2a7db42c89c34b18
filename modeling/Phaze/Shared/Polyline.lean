import Mathlib

set_option autoImplicit false

/-!
# Interpolation over knots

A walk over pairs of neighbouring knots, flat before the first and after the last, and where it finds its pair when
the knots are in order of time.
-/

namespace Phaze.Polyline

variable {K : Type} [Field K] [LinearOrder K] [IsStrictOrderedRing K]

def between (left right : K × K) (time : K) : K :=
  if right.1 = left.1 then left.2 else left.2 + (time - left.1) / (right.1 - left.1) * (right.2 - left.2)

-- The first pair of neighbours around the time.
def walk (left : K × K) : List (K × K) → K → K
  | [], _ => left.2
  | right :: rest, time => if left.1 ≤ time ∧ time ≤ right.1 then between left right time else walk right rest time

def interpolate : List (K × K) → K → Option K
  | [], _ => none
  | first :: rest, time =>
      if time ≤ first.1 then some first.2
      else if ((first :: rest).getLast (List.cons_ne_nil _ _)).1 ≤ time then some ((first :: rest).getLast (List.cons_ne_nil _ _)).2
      else some (walk first rest time)

/-! ## Bounds -/

omit [IsStrictOrderedRing K] in
theorem between_eq {left right : K × K} {time : K} (apart : right.1 ≠ left.1) :
    between left right time = (1 - (time - left.1) / (right.1 - left.1)) * left.2 + (time - left.1) / (right.1 - left.1) * right.2 := by
  rw [between, if_neg apart]
  ring

theorem share_within {left right : K × K} {time : K} (apart : right.1 ≠ left.1) (early : left.1 ≤ time) (late : time ≤ right.1) :
    0 ≤ (time - left.1) / (right.1 - left.1) ∧ (time - left.1) / (right.1 - left.1) ≤ 1 := by
  have wide : 0 < right.1 - left.1 := sub_pos.mpr (lt_of_le_of_ne (early.trans late) apart.symm)
  constructor
  · exact div_nonneg (sub_nonneg.mpr early) wide.le
  · rw [div_le_one wide]
    linarith

theorem le_between {left right : K × K} {time low : K} (early : left.1 ≤ time) (late : time ≤ right.1) (first : low ≤ left.2)
    (second : low ≤ right.2) : low ≤ between left right time := by
  by_cases apart : right.1 = left.1
  · rwa [between, if_pos apart]
  · obtain ⟨least, most⟩ := share_within apart early late
    rw [between_eq apart]
    nlinarith

theorem between_le {left right : K × K} {time high : K} (early : left.1 ≤ time) (late : time ≤ right.1) (first : left.2 ≤ high)
    (second : right.2 ≤ high) : between left right time ≤ high := by
  by_cases apart : right.1 = left.1
  · rwa [between, if_pos apart]
  · obtain ⟨least, most⟩ := share_within apart early late
    rw [between_eq apart]
    nlinarith

-- Between two knots, each of them weighs on the value.
theorem between_pos {left right : K × K} {time : K} (early : left.1 < time) (late : time < right.1) (first : 0 ≤ left.2) (second : 0 ≤ right.2)
    (some : 0 < left.2 ∨ 0 < right.2) : 0 < between left right time := by
  have apart : right.1 ≠ left.1 := (early.trans late).ne'
  have wide : 0 < right.1 - left.1 := sub_pos.mpr (early.trans late)
  have share : 0 < (time - left.1) / (right.1 - left.1) := div_pos (sub_pos.mpr early) wide
  have rest : (time - left.1) / (right.1 - left.1) < 1 := by
    rw [div_lt_one wide]
    linarith
  rw [between_eq apart]
  obtain here | there := some
  · have weight := mul_pos (sub_pos.mpr rest) here
    have other := mul_nonneg share.le second
    linarith
  · have weight := mul_pos share there
    have other := mul_nonneg (sub_pos.mpr rest).le first
    linarith

theorem walk_bounds {left : K × K} {rest : List (K × K)} {time low high : K} (within : ∀ knot ∈ left :: rest, low ≤ knot.2 ∧ knot.2 ≤ high) :
    low ≤ walk left rest time ∧ walk left rest time ≤ high := by
  induction rest generalizing left with
  | nil => exact within left List.mem_cons_self
  | cons right rest ih =>
    have here := within left List.mem_cons_self
    have next := within right (by simp)
    rw [walk]
    split
    next around => exact ⟨le_between around.1 around.2 here.1 next.1, between_le around.1 around.2 here.2 next.2⟩
    next => exact ih fun knot member => within knot (List.mem_cons_of_mem _ member)

theorem interpolate_bounds {knots : List (K × K)} {time value low high : K} (found : interpolate knots time = some value)
    (within : ∀ knot ∈ knots, low ≤ knot.2 ∧ knot.2 ≤ high) : low ≤ value ∧ value ≤ high := by
  cases knots with
  | nil => cases found
  | cons first rest =>
    rw [interpolate] at found
    split at found
    next =>
      obtain rfl := Option.some.inj found
      exact within first List.mem_cons_self
    next =>
      split at found
      next =>
        obtain rfl := Option.some.inj found
        exact within _ (List.getLast_mem _)
      next =>
        obtain rfl := Option.some.inj found
        exact walk_bounds within

omit [IsStrictOrderedRing K] in
theorem interpolate_some {knots : List (K × K)} (filled : knots ≠ []) (time : K) : ∃ value, interpolate knots time = some value := by
  obtain ⟨first, rest, rfl⟩ := List.exists_cons_of_ne_nil filled
  rw [interpolate]
  split
  · exact ⟨_, rfl⟩
  · split
    · exact ⟨_, rfl⟩
    · exact ⟨_, rfl⟩

-- No value lies below all knots or above all of them.
theorem interpolate_within {knots : List (K × K)} {time value : K} (found : interpolate knots time = some value) :
    (∃ low ∈ knots, low.2 ≤ value) ∧ ∃ high ∈ knots, value ≤ high.2 := by
  have filled : knots.toFinset.Nonempty := by
    rw [List.toFinset_nonempty_iff]
    rintro rfl
    cases found
  obtain ⟨low, here, least⟩ := Finset.exists_min_image knots.toFinset Prod.snd filled
  obtain ⟨high, there, most⟩ := Finset.exists_max_image knots.toFinset Prod.snd filled
  rw [List.mem_toFinset] at here there
  have bounds := interpolate_bounds found fun knot member => ⟨least knot (List.mem_toFinset.mpr member), most knot (List.mem_toFinset.mpr member)⟩
  exact ⟨⟨low, here, bounds.1⟩, high, there, bounds.2⟩

/-! ## The pair around a time -/

def Timed (knots : List (K × K)) : Prop := knots.Pairwise fun knot other => knot.1 ≤ other.1

omit [IsStrictOrderedRing K] in
theorem walk_around {left : K × K} {rest : List (K × K)} {time : K} (timed : Timed (left :: rest)) (early : left.1 < time)
    (off : ∀ knot ∈ rest, knot.1 ≠ time) (late : ∃ knot ∈ rest, time < knot.1) :
    ∃ before here there after, left :: rest = before ++ here :: there :: after ∧ here.1 < time ∧ time < there.1 ∧
      walk left rest time = between here there time := by
  induction rest generalizing left with
  | nil =>
    obtain ⟨knot, member, -⟩ := late
    exact absurd member List.not_mem_nil
  | cons right rest ih =>
    rw [walk]
    obtain ahead | behind := lt_or_gt_of_ne (off right List.mem_cons_self)
    · have later : ∃ knot ∈ rest, time < knot.1 := by
        obtain ⟨knot, member, more⟩ := late
        obtain rfl | inner := List.mem_cons.mp member
        · exact absurd more (not_lt.mpr ahead.le)
        · exact ⟨knot, inner, more⟩
      obtain ⟨before, here, there, after, same, less, more, value⟩ :=
        ih (List.pairwise_cons.mp timed).2 ahead (fun knot member => off knot (List.mem_cons_of_mem _ member)) later
      have missed : ¬ (left.1 ≤ time ∧ time ≤ right.1) := fun around => not_lt.mpr around.2 ahead
      rw [if_neg missed]
      exact ⟨left :: before, here, there, after, by rw [same, List.cons_append], less, more, value⟩
    · rw [if_pos ⟨early.le, behind.le⟩]
      exact ⟨[], left, right, rest, rfl, early, behind, rfl⟩

omit [IsStrictOrderedRing K] in
theorem interpolate_around {knots : List (K × K)} {time : K} (timed : Timed knots) (off : ∀ knot ∈ knots, knot.1 ≠ time)
    (early : ∃ knot ∈ knots, knot.1 < time) (late : ∃ knot ∈ knots, time < knot.1) :
    ∃ before here there after, knots = before ++ here :: there :: after ∧ here.1 < time ∧ time < there.1 ∧
      interpolate knots time = some (between here there time) := by
  obtain ⟨low, below, less⟩ := early
  obtain ⟨first, rest, rfl⟩ := List.exists_cons_of_ne_nil (List.ne_nil_of_mem below)
  have head : first.1 < time := by
    obtain rfl | inner := List.mem_cons.mp below
    · exact less
    · exact ((List.pairwise_cons.mp timed).1 low inner).trans_lt less
  obtain ⟨high, above, more⟩ := late
  have inner : high ∈ rest := by
    obtain rfl | inner := List.mem_cons.mp above
    · exact absurd more (not_lt.mpr head.le)
    · exact inner
  have last : ¬ ((first :: rest).getLast (List.cons_ne_nil _ _)).1 ≤ time := by
    have ends : high.1 ≤ ((first :: rest).getLast (List.cons_ne_nil _ _)).1 := timed.rel_getLast_of_rel_getLast_getLast above le_rfl
    exact not_le.mpr (more.trans_le ends)
  obtain ⟨before, here, there, after, same, least, most, value⟩ :=
    walk_around timed head (fun knot member => off knot (List.mem_cons_of_mem _ member)) ⟨high, inner, more⟩
  refine ⟨before, here, there, after, same, least, most, ?_⟩
  rw [interpolate, if_neg (not_le.mpr head), if_neg last, value]

-- The walk stops within a stretch of zeros that reaches the time.
theorem walk_zero {left : K × K} {stretch rest : List (K × K)} {time : K} (here : left.2 = 0) (zero : ∀ knot ∈ stretch, knot.2 = 0)
    (early : left.1 < time) (late : ∃ knot ∈ stretch, time ≤ knot.1) : walk left (stretch ++ rest) time = 0 := by
  induction stretch generalizing left with
  | nil =>
    obtain ⟨knot, member, -⟩ := late
    exact absurd member List.not_mem_nil
  | cons right stretch ih =>
    have next := zero right List.mem_cons_self
    rw [List.cons_append, walk]
    split
    next around =>
      have low := le_between around.1 around.2 here.ge next.ge
      have high := between_le around.1 around.2 here.le next.le
      exact le_antisymm high low
    next missed =>
      have ahead : right.1 < time := not_le.mp fun more => missed ⟨early.le, more⟩
      apply ih next (fun knot member => zero knot (List.mem_cons_of_mem _ member)) ahead
      obtain ⟨knot, member, more⟩ := late
      obtain rfl | inner := List.mem_cons.mp member
      · exact absurd more (not_le.mpr ahead)
      · exact ⟨knot, inner, more⟩

/-! ## Sorted knots -/

-- A sort leaves the members of one class in their order.
theorem filter_insertionSort {Item : Type} {order : Item → Item → Prop} [DecidableRel order] {items : List Item} {keep : Item → Bool}
    (sorted : (items.filter keep).Pairwise order) : (items.insertionSort order).filter keep = items.filter keep := by
  have part : (items.filter keep).Sublist (items.insertionSort order) := List.sublist_insertionSort sorted List.filter_sublist
  have inner := part.filter keep
  simp only [List.filter_filter, Bool.and_self] at inner
  have long : ((items.insertionSort order).filter keep).length = (items.filter keep).length :=
    ((List.perm_insertionSort order items).filter keep).length_eq
  exact (inner.eq_of_length long.symm).symm

-- Between two times there is one that no knot has.
theorem exists_off {low high : K} (less : low < high) (knots : List (K × K)) : ∃ time, low < time ∧ time < high ∧ ∀ knot ∈ knots, knot.1 ≠ time := by
  obtain ⟨time, within, off⟩ := (Set.Ioo_infinite less).exists_notMem_finset (knots.map Prod.fst).toFinset
  refine ⟨time, within.1, within.2, fun knot member same => off ?_⟩
  rw [List.mem_toFinset, ← same]
  exact List.mem_map_of_mem member

end Phaze.Polyline
