import Phaze.Projection.Overlap
import Phaze.Shared.Polyline

set_option autoImplicit false

/-!
# The energy arc

`_linear_interp`, `_resample_energy_arc` and `_peak_sec` of `services/set_projection.py`, with times and energies as
exact rationals; a sample of `NaN` is `none`.
-/

namespace Phaze.Projection

open Phaze.Polyline

def gapToleranceSec : ℚ := 1

def arcPoints : Nat := 64

-- A usable window: its start, end and energy.
@[ext]
structure Span where
  startSec : ℚ
  endSec : ℚ
  energy : ℚ
  wide : startSec < endSec
deriving DecidableEq

def Window.span (window : Window) : Option Span :=
  window.energy.bind fun energy =>
    if wide : window.startSec < window.endSec then some { startSec := window.startSec, endSec := window.endSec, energy, wide } else none

-- The order of the tuples `(start_sec, end_sec, energy)`.
def tupleOrder (span other : Span) : Prop :=
  span.startSec < other.startSec ∨ span.startSec = other.startSec ∧
    (span.endSec < other.endSec ∨ span.endSec = other.endSec ∧ span.energy ≤ other.energy)

instance : DecidableRel tupleOrder := fun span other =>
  inferInstanceAs (Decidable (span.startSec < other.startSec ∨ span.startSec = other.startSec ∧
    (span.endSec < other.endSec ∨ span.endSec = other.endSec ∧ span.energy ≤ other.energy)))

def usable (windows : List Window) : List Span := (windows.filterMap Window.span).insertionSort tupleOrder

-- `start - runs[-1][-1][1] <= GAP_TOLERANCE_SEC`
def near (span next : Span) : Bool := decide (next.startSec - span.endSec ≤ gapToleranceSec)

def runs (spans : List Span) : List (List Span) := spans.splitBy near

def Span.middle (span : Span) : ℚ := (span.startSec + span.endSec) / 2

def Span.knot (span : Span) : ℚ × ℚ := (span.middle, span.energy)

def linearInterp (knots : List (ℚ × ℚ)) (time : ℚ) : Option ℚ := interpolate knots time

-- `lo <= t <= hi`, of the first start and the last end.
def holds (time : ℚ) (run : List Span) : Bool :=
  run.head?.any (fun first => first.startSec ≤ time) && run.getLast?.any fun last => time ≤ last.endSec

def valueAt (spans : List Span) (time : ℚ) : Option ℚ :=
  ((runs spans).find? (holds time)).bind fun run => linearInterp (run.map Span.knot) time

def sampleTime (total : ℚ) (place : Nat) : ℚ := place / (arcPoints - 1 : Nat) * total

def resampleEnergyArc (windows : List Window) (total : ℚ) : Option (List (Option ℚ)) :=
  if usable windows = [] ∨ total ≤ 0 then none
  else some ((List.range arcPoints).map fun place => valueAt (usable windows) (sampleTime total place))

-- The place and value of the largest sample so far, the first of those alike.
def better (best : Option (Nat × ℚ)) (entry : Option ℚ × Nat) : Option (Nat × ℚ) :=
  entry.1.elim best fun value => if best.all (fun before => before.2 < value) then some (entry.2, value) else best

def peakSec (arc : Option (List (Option ℚ))) (total : ℚ) : Option ℚ :=
  arc.bind fun samples =>
    if samples = [] ∨ total ≤ 0 then none
    else (samples.zipIdx.foldl better none).map fun best => sampleTime total best.1

-- `max((w.end_sec for w in windows), default=0.0)`
def totalSec (windows : List Window) : ℚ := (windows.map Window.endSec).max?.getD 0

def profileArc (windows : List Window) : Option (List (Option ℚ)) := resampleEnergyArc (ofTier "coarse" windows) (totalSec windows)

def profilePeak (windows : List Window) : Option ℚ := peakSec (profileArc windows) (totalSec windows)

-- The sample of one place, where a missing arc has none.
def sample (windows : List Window) (total : ℚ) (place : Nat) : Option ℚ :=
    (resampleEnergyArc windows total).bind fun samples => samples[place]?.join

variable {windows : List Window} {spans : List Span} {total time : ℚ}

theorem sample_eq (positive : 0 < total) {place : Nat} (inside : place < arcPoints) :
    sample windows total place = valueAt (usable windows) (sampleTime total place) := by
  rw [sample, resampleEnergyArc]
  by_cases empty : usable windows = []
  · rw [if_pos (.inl empty), empty]
    rfl
  · rw [if_neg (not_or.mpr ⟨empty, not_le.mpr positive⟩), Option.bind_some, List.getElem?_map, List.getElem?_range inside]
    rfl

-- The best sample is one of those read.
theorem better_fold {samples : List (Option ℚ × Nat)} {best : Option (Nat × ℚ)} {place : Nat} {value : ℚ}
    (found : samples.foldl better best = some (place, value)) : best = some (place, value) ∨ (some value, place) ∈ samples := by
  induction samples generalizing best with
  | nil => exact .inl found
  | cons entry rest ih =>
    obtain before | later := ih found
    · obtain ⟨reading, position⟩ := entry
      cases reading with
      | none => exact .inl before
      | some read =>
        rw [better, Option.elim_some] at before
        split at before
        next =>
          obtain ⟨rfl, rfl⟩ := Prod.mk.inj (Option.some.inj before)
          exact .inr List.mem_cons_self
        next => exact .inl before
    · exact .inr (List.mem_cons_of_mem _ later)

theorem peakSec_sampled {peak : ℚ} (found : peakSec (resampleEnergyArc windows total) total = some peak) :
    ∃ place value, sampleTime total place = peak ∧ valueAt (usable windows) peak = some value := by
  obtain ⟨samples, arc, rest⟩ := Option.bind_eq_some_iff.mp found
  rw [resampleEnergyArc] at arc
  split at arc
  next => cases arc
  next =>
    split at rest
    next => cases rest
    next =>
      obtain ⟨⟨place, value⟩, best, rfl⟩ := Option.map_eq_some_iff.mp rest
      obtain early | member := better_fold best
      · cases early
      · obtain rfl := Option.some.inj arc
        have read := List.mem_zipIdx_iff_getElem?.mp member
        rw [List.getElem?_map, Option.map_eq_some_iff] at read
        obtain ⟨other, at', same⟩ := read
        have inside : place < arcPoints := by
          by_contra outside
          rw [List.getElem?_eq_none (by simpa using outside)] at at'
          cases at'
        rw [List.getElem?_range inside] at at'
        obtain rfl := Option.some.inj at'
        exact ⟨place, value, rfl, same⟩

end Phaze.Projection
