import Phaze.Projection.Windows
import Phaze.Shared.Bisect

set_option autoImplicit false

/-!
# Overlapping ranges

`OverlapIndex` and `_glyph_cells` of `services/set_projection.py`: two bisections over sorted ranges, or the scan
where the ends are not in order.
-/

namespace Phaze.Projection

open Phaze.Bisect

variable {Payload : Type}

structure Range (Payload : Type) where
  startSec : ℚ
  endSec : ℚ
  arrival : Nat
  payload : Payload

structure OverlapIndex (Payload : Type) where
  ranges : List (Range Payload)
  starts : List ℚ
  ends : List ℚ
  sortedByEnd : Bool

def arrivals (items : List (ℚ × ℚ × Payload)) : List (Range Payload) :=
  items.zipIdx.map fun entry => ⟨entry.1.1, entry.1.2.1, entry.2, entry.1.2.2⟩

def byStart (range other : Range Payload) : Prop := range.startSec ≤ other.startSec

instance : DecidableRel (@byStart Payload) := fun range other => inferInstanceAs (Decidable (range.startSec ≤ other.startSec))

def byArrival (range other : Range Payload) : Prop := range.arrival ≤ other.arrival

instance : DecidableRel (@byArrival Payload) := fun range other => inferInstanceAs (Decidable (range.arrival ≤ other.arrival))

def OverlapIndex.build (items : List (ℚ × ℚ × Payload)) : OverlapIndex Payload :=
  let ranges := (arrivals items).insertionSort byStart
  let ends := ranges.map Range.endSec
  { ranges, starts := ranges.map Range.startSec, ends, sortedByEnd := (ends.zip ends.tail).all fun pair => pair.1 ≤ pair.2 }

def overlaps (start stop : ℚ) (range : Range Payload) : Bool := range.startSec < stop && start < range.endSec

def OverlapIndex.overlapping (index : OverlapIndex Payload) (start stop : ℚ) : List Payload :=
  if !index.sortedByEnd then ((index.ranges.insertionSort byArrival).filter (overlaps start stop)).map Range.payload
  else
    let high := bisectLeft index.starts stop
    let low := bisectRight index.ends start
    if low ≥ high then [] else ((slice index.ranges low high).insertionSort byArrival).map Range.payload

/-! ## The scan -/

theorem arrivals_ordered (items : List (ℚ × ℚ × Payload)) : (arrivals items).Pairwise (·.arrival < ·.arrival) := by
  rw [arrivals, List.pairwise_map, List.pairwise_iff_getElem]
  intro place other present found less
  simpa using less

theorem arrivals_scan (items : List (ℚ × ℚ × Payload)) (start stop : ℚ) :
    ((arrivals items).filter (overlaps start stop)).map Range.payload =
      (items.filter fun item => item.1 < stop && start < item.2.1).map fun item => item.2.2 := by
  have shifted : ∀ first : Nat, (((items.zipIdx first).map fun entry => Range.mk entry.1.1 entry.1.2.1 entry.2 entry.1.2.2).filter
      (overlaps start stop)).map Range.payload = (items.filter fun item => item.1 < stop && start < item.2.1).map fun item => item.2.2 := by
    induction items with
    | nil => exact fun _ => rfl
    | cons item rest ih =>
      intro first
      have same : overlaps start stop (Range.mk item.1 item.2.1 first item.2.2) = (item.1 < stop && start < item.2.1) := rfl
      rw [List.zipIdx_cons, List.map_cons, List.filter_cons, List.filter_cons, same]
      by_cases inside : (item.1 < stop && start < item.2.1) = true
      · rw [if_pos inside, if_pos inside, List.map_cons, List.map_cons, ih (first + 1)]
      · rw [if_neg inside, if_neg inside, ih (first + 1)]
  exact shifted 0

theorem sortedByEnd_pairwise {ends : List ℚ} (sorted : ((ends.zip ends.tail).all fun pair => decide (pair.1 ≤ pair.2)) = true) :
    ends.Pairwise (· ≤ ·) := by
  rw [← List.isChain_iff_pairwise]
  induction ends with
  | nil => exact .nil
  | cons first rest ih =>
    cases rest with
    | nil => exact .singleton _
    | cons second rest =>
      rw [List.tail_cons, List.zip_cons_cons, List.all_cons, Bool.and_eq_true] at sorted
      exact .cons_cons (of_decide_eq_true sorted.1) (ih sorted.2)

-- The members of the slice are those before the first late start and after the last early end.
theorem slice_overlaps {ranges : List (Range Payload)} (starts : (ranges.map Range.startSec).Pairwise (· ≤ ·))
    (ends : (ranges.map Range.endSec).Pairwise (· ≤ ·)) (start stop : ℚ) :
    (if bisectRight (ranges.map Range.endSec) start ≥ bisectLeft (ranges.map Range.startSec) stop then []
      else slice ranges (bisectRight (ranges.map Range.endSec) start) (bisectLeft (ranges.map Range.startSec) stop)) =
      ranges.filter (overlaps start stop) := by
  have low := bisectRight_splits ends start
  have high := bisectLeft_cuts starts stop
  generalize bisectRight (ranges.map Range.endSec) start = low' at low ⊢
  generalize bisectLeft (ranges.map Range.startSec) stop = high' at high ⊢
  apply slice_eq_filter_of
  intro place present
  have ended : place < (ranges.map Range.endSec).length := by rwa [List.length_map]
  have started : place < (ranges.map Range.startSec).length := by rwa [List.length_map]
  have early := low.below place ended
  have late := low.above place ended
  have before := high.below place started
  have after := high.above place started
  rw [List.getElem_map] at early late before after
  rw [overlaps, Bool.and_eq_true, decide_eq_true_eq, decide_eq_true_eq]
  constructor
  · rintro ⟨ahead, open'⟩
    constructor
    · by_contra less
      exact not_le.mpr open' (of_decide_eq_true (early (by omega)))
    · by_contra more
      exact not_lt.mpr (after (by omega)) ahead
  · rintro ⟨least, most⟩
    exact ⟨before most, not_le.mp (of_decide_eq_false (late least))⟩

theorem insertionSort_byArrival {chosen arrived : List (Range Payload)} (order : arrived.Pairwise (·.arrival < ·.arrival))
    (same : chosen.Perm arrived) : chosen.insertionSort byArrival = arrived := sorted_slice order same

-- Both ways of answering a query give the plain scan of the items.
theorem overlapping_build (items : List (ℚ × ℚ × Payload)) (start stop : ℚ) :
    (OverlapIndex.build items).overlapping start stop =
      (items.filter fun item => item.1 < stop && start < item.2.1).map fun item => item.2.2 := by
  have total : Std.Total (@byStart Payload) := ⟨fun _ _ => le_total _ _⟩
  have transitive : IsTrans (Range Payload) byStart := ⟨fun _ _ _ => le_trans⟩
  have perm : ((arrivals items).insertionSort byStart).Perm (arrivals items) := List.perm_insertionSort _ _
  have starts : (((arrivals items).insertionSort byStart).map Range.startSec).Pairwise (· ≤ ·) := by
    rw [List.pairwise_map]
    exact List.pairwise_insertionSort byStart _
  have arrived : ((arrivals items).filter (overlaps start stop)).Pairwise (·.arrival < ·.arrival) := (arrivals_ordered items).filter _
  rw [← arrivals_scan, OverlapIndex.overlapping]
  split
  · have restored : ((OverlapIndex.build items).ranges.insertionSort byArrival) = arrivals items :=
      insertionSort_byArrival (arrivals_ordered items) perm
    rw [restored]
  next fast =>
    have sorted : (OverlapIndex.build items).sortedByEnd = true := by simpa using fast
    have found := slice_overlaps starts (sortedByEnd_pairwise sorted) start stop
    have chosen : (((arrivals items).insertionSort byStart).filter (overlaps start stop)).Perm
        ((arrivals items).filter (overlaps start stop)) := perm.filter _
    rw [← insertionSort_byArrival arrived chosen, ← found]
    dsimp only [OverlapIndex.build]
    split
    · rfl
    · rfl

/-! ## Glyph cells -/

structure GlyphCell where
  camelotNumber : Option Nat
  energy : Option ℚ
deriving DecidableEq

-- `key=lambda w: (w.window_index, w.start_sec)`
def inOrder (window other : Window) : Prop :=
  window.windowIndex < other.windowIndex ∨ window.windowIndex = other.windowIndex ∧ window.startSec ≤ other.startSec

instance : DecidableRel inOrder := fun window other =>
  inferInstanceAs (Decidable (window.windowIndex < other.windowIndex ∨ window.windowIndex = other.windowIndex ∧ window.startSec ≤ other.startSec))

def glyphCells (coarse fine : List Window) : Option (List GlyphCell) :=
  if coarse = [] then none
  else
    let index := OverlapIndex.build ((fine.filter Window.keyed).map fun window => (window.startSec, window.endSec, window))
    some ((coarse.insertionSort inOrder).map fun window =>
      { camelotNumber := camelotNumber (modalCamelot (index.overlapping window.startSec window.endSec)), energy := window.energy })

def ofTier (tier : String) (windows : List Window) : List Window := windows.filter fun window => window.tier = tier

-- The glyph of `build_profile`.
def glyph (windows : List Window) : Option (List GlyphCell) := glyphCells (ofTier "coarse" windows) (ofTier "fine" windows)

-- The keyed fine windows over a coarse one.
def keyedOver (windows : List Window) (coarse : Window) : List Window :=
  windows.filter fun window => window.tier = "fine" && window.keyed && (window.startSec < coarse.endSec && coarse.startSec < window.endSec)

-- A code that has the most seconds among the windows, or none without a keyed window.
structure Modal (windows : List Window) (code : Option String) : Prop where
  present : ∀ found, code = some found → (∃ window ∈ windows, window.camelot = some found) ∧
    ∀ window ∈ windows, ∀ other, window.camelot = some other → totalWeight other windows ≤ totalWeight found windows
  absent : code = none ↔ ∀ window ∈ windows, window.camelot = none

theorem modalCamelot_modal (windows : List Window) : Modal windows (modalCamelot windows) :=
  ⟨fun _ => modalCamelot_most, modalCamelot_none⟩

theorem over_eq (windows : List Window) (coarse : Window) :
    (OverlapIndex.build (((ofTier "fine" windows).filter Window.keyed).map fun window => (window.startSec, window.endSec, window))).overlapping
      coarse.startSec coarse.endSec = keyedOver windows coarse := by
  rw [overlapping_build, List.filter_map, List.map_map, ofTier, List.filter_filter, List.filter_filter, keyedOver]
  have whole : ∀ chosen : List Window, chosen.map ((fun item : ℚ × ℚ × Window => item.2.2) ∘
      fun window => (window.startSec, window.endSec, window)) = chosen := fun chosen => List.map_id chosen
  rw [whole]
  congr 1
  funext window
  simp only [Function.comp_apply, Bool.and_comm, Bool.and_left_comm, Bool.and_assoc]

-- A query is the filter of the items in their order, and each cell has the modal code of the windows over its own.
theorem overlaps_are_scans (items : List (ℚ × ℚ × Payload)) (start stop : ℚ) (windows : List Window) :
    (OverlapIndex.build items).overlapping start stop =
        (items.filter fun item => item.1 < stop && start < item.2.1).map (fun item => item.2.2) ∧
      glyph windows = (if ofTier "coarse" windows = [] then none
        else some (((ofTier "coarse" windows).insertionSort inOrder).map fun coarse =>
          { camelotNumber := camelotNumber (modalCamelot (keyedOver windows coarse)), energy := coarse.energy })) ∧
      ∀ coarse, Modal (keyedOver windows coarse) (modalCamelot (keyedOver windows coarse)) := by
  refine ⟨overlapping_build items start stop, ?_, fun coarse => modalCamelot_modal _⟩
  rw [glyph, glyphCells]
  simp only [over_eq]

end Phaze.Projection
