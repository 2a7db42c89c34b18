import Mathlib
import Phaze.Shared.Bisect

set_option autoImplicit false

/-!
# Windows by midpoint

`_MidpointIndex` and the aggregates of `services/track_segments.py`, over windows whose times are exact rationals.
A float that is not finite is `none`.
-/

namespace Phaze.Tracklist

open Phaze.Bisect

abbrev FloatValue := Option ℚ

structure AnalysisWindow where
  tier : String
  startSec : FloatValue
  endSec : FloatValue
  bpm : Option FloatValue
  -- The property of the row, read off its key.
  camelot : Option String
  energy : Option FloatValue
  -- `mood_scores`, when it is an object; a score that is not a finite number is `none`.
  moodScores : Option (List (String × Option ℚ))
deriving DecidableEq

def midpoint (window : AnalysisWindow) : Option ℚ :=
  match window.startSec, window.endSec with
  | some start, some stop => some ((start + stop) / 2)
  | _, _ => none

/-! ## The index -/

structure Placed where
  midpoint : ℚ
  arrival : Nat
  window : AnalysisWindow
deriving DecidableEq

def placeable (windows : List AnalysisWindow) : List Placed :=
  windows.zipIdx.filterMap fun entry => (midpoint entry.1).map fun centre => ⟨centre, entry.2, entry.1⟩

structure MidpointIndex where
  rows : List Placed
  midpoints : List ℚ

def MidpointIndex.build (windows : List AnalysisWindow) : MidpointIndex :=
  let rows := (placeable windows).insertionSort fun row other => row.midpoint ≤ other.midpoint
  { rows, midpoints := rows.map Placed.midpoint }

def MidpointIndex.within (index : MidpointIndex) (start : ℚ) : Option ℚ → List AnalysisWindow
  | none => []
  | some stop =>
      let low := bisectLeft index.midpoints start
      let high := bisectLeft index.midpoints stop
      if low ≥ high then []
      else ((slice index.rows low high).insertionSort fun row other => row.arrival ≤ other.arrival).map Placed.window

/-! ## The scan it replaces -/

-- The midpoint lies in `[start, stop)`.
def inside (start : ℚ) (stop : Option ℚ) (window : AnalysisWindow) : Bool :=
  (midpoint window).any fun centre => start ≤ centre && stop.any fun stop => centre < stop

theorem placeable_arrivals (windows : List AnalysisWindow) :
    (placeable windows).Pairwise (·.arrival < ·.arrival) := by
  rw [placeable, List.pairwise_filterMap]
  refine (List.pairwise_iff_getElem.mpr ?_ : windows.zipIdx.Pairwise (·.2 < ·.2)).imp ?_
  · intro place spot present found less
    simpa using less
  · intro entry other less row placed next placedNext
    obtain ⟨_, _, rfl⟩ := Option.map_eq_some_iff.mp placed
    obtain ⟨_, _, rfl⟩ := Option.map_eq_some_iff.mp placedNext
    exact less

theorem placeable_windows (windows : List AnalysisWindow) (start stop : ℚ) :
    ((placeable windows).filter fun row => start ≤ row.midpoint ∧ row.midpoint < stop).map Placed.window =
      windows.filter (inside start (some stop)) := by
  have shifted : ∀ first : Nat,
      (((windows.zipIdx first).filterMap fun entry => (midpoint entry.1).map fun centre => Placed.mk centre entry.2 entry.1).filter
        fun row => start ≤ row.midpoint ∧ row.midpoint < stop).map Placed.window = windows.filter (inside start (some stop)) := by
    induction windows with
    | nil => intro first; rfl
    | cons window rest ih =>
      intro first
      rw [List.zipIdx_cons, List.filterMap_cons, List.filter_cons]
      cases centre : midpoint window with
      | none => simpa [inside, centre] using ih (first + 1)
      | some middle =>
        have tail := ih (first + 1)
        by_cases holds : start ≤ middle ∧ middle < stop
        · simpa [inside, centre, holds.1, holds.2] using tail
        · have out : inside start (some stop) window = false := by simpa [inside, centre] using holds
          simp only [Option.map_some, List.filter_cons, holds, decide_false, Bool.false_eq_true, if_false, out]
          exact tail
  exact shifted 0

/-- Two bisects over the sorted copy find what a scan of the windows finds, in the order of the windows. -/
theorem within_build (windows : List AnalysisWindow) (start : ℚ) (stop : Option ℚ) :
    (MidpointIndex.build windows).within start stop = windows.filter (inside start stop) := by
  cases stop with
  | none =>
    have out : ∀ window, inside start none window = false := by
      intro window
      cases centre : midpoint window <;> simp [inside, centre]
    simp [MidpointIndex.within, out]
  | some stop =>
    let sorted := (placeable windows).insertionSort fun row other => row.midpoint ≤ other.midpoint
    have total : Std.Total (fun row other : Placed => row.midpoint ≤ other.midpoint) := ⟨fun _ _ => le_total _ _⟩
    have transitive : IsTrans Placed (fun row other => row.midpoint ≤ other.midpoint) := ⟨fun _ _ _ => le_trans⟩
    have ordered : (sorted.map Placed.midpoint).Pairwise (· ≤ ·) := by
      rw [List.pairwise_map]
      exact List.pairwise_insertionSort _ _
    have found := slice_eq_filter ordered start stop
    have arrived : ((placeable windows).filter fun row => start ≤ row.midpoint ∧ row.midpoint < stop).Pairwise
        (·.arrival < ·.arrival) := (placeable_arrivals windows).filter _
    have same : (sorted.filter fun row => start ≤ row.midpoint ∧ row.midpoint < stop).Perm
        ((placeable windows).filter fun row => start ≤ row.midpoint ∧ row.midpoint < stop) :=
      (List.perm_insertionSort _ _).filter _
    rw [← placeable_windows, ← sorted_slice arrived same, ← found]
    by_cases empty : bisectLeft (sorted.map Placed.midpoint) start ≥ bisectLeft (sorted.map Placed.midpoint) stop
    · rw [if_pos empty]
      exact if_pos empty
    · rw [if_neg empty]
      exact if_neg empty

end Phaze.Tracklist
