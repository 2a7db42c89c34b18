import Phaze.Projection.Overlap
import Phaze.Shared.Coalesce

set_option autoImplicit false

/-!
# Key runs

`flicker_filtered_key_runs`, `placeable_key_runs` and `harmonic_discipline` of `services/set_projection.py`.
-/

namespace Phaze.Projection

open Phaze.Coalesce

structure KeyRun where
  code : String
  startSec : ℚ
  endSec : ℚ
  windowCount : Nat
deriving DecidableEq

def ordered (fine : List Window) : List Window := (fine.filter Window.keyed).insertionSort inOrder

-- `[window.camelot, window.start_sec, window.end_sec, 1]`
def windowRun (window : Window) : Option KeyRun :=
  window.camelot.map fun code => { code, startSec := window.startSec, endSec := window.endSec, windowCount := 1 }

def sameCode (run other : KeyRun) : Bool := decide (run.code = other.code)

def joinRun (run other : KeyRun) : KeyRun :=
  { run with endSec := max run.endSec other.endSec, windowCount := run.windowCount + other.windowCount }

def lasting (run : KeyRun) : Bool := decide (2 ≤ run.windowCount)

def mergedRuns (windows : List Window) : List KeyRun :=
  coalesce sameCode joinRun ((coalesce sameCode joinRun (windows.filterMap windowRun)).filter lasting)

def flickerFilteredKeyRuns (fine : List Window) : List KeyRun := mergedRuns (ordered fine)

def placeable (run : KeyRun) : Option (KeyRun × Nat) :=
  (camelotNumber (some run.code)).bind fun number => if 1 ≤ number ∧ number ≤ 12 then some (run, number) else none

def placeableKeyRuns (runs : List KeyRun) : List (KeyRun × Nat) := runs.filterMap placeable

-- `itertools.pairwise`
def pairwise (codes : List String) : List (String × String) := codes.zip codes.tail

def transitions (fine : List Window) : List (String × String) := pairwise ((flickerFilteredKeyRuns fine).map KeyRun.code)

def harmonicDiscipline (fine : List Window) : Option ℚ :=
  if flickerFilteredKeyRuns fine = [] then none
  else if transitions fine = [] then some 1
  else some (((transitions fine).countP fun pair => wheelAdjacent pair.1 pair.2) / (transitions fine).length)

def wheelCodes (fine : List Window) : List String := (placeableKeyRuns (flickerFilteredKeyRuns fine)).map fun node => node.1.code

-- The edges of the wheel, one for each pair of neighbouring nodes, and its share where no figure is stored.
def wheelTransitions (fine : List Window) : List (String × String) := pairwise (wheelCodes fine)

def wheelShare (fine : List Window) : Option ℚ :=
  if wheelCodes fine = [] then none
  else if wheelTransitions fine = [] then some 1
  else some (((wheelTransitions fine).countP fun edge => wheelAdjacent edge.1 edge.2) / (wheelTransitions fine).length)

/-! ## Blocks of windows -/

abbrev Placed := Window × Nat

def placed (fine : List Window) : List Placed := (ordered fine).zipIdx

def keyOf (entry : Placed) : Option String := entry.1.camelot

def kept (block : List Placed) : Bool := decide (2 ≤ block.length)

-- The key of a block is that of its first window.
def blockKey (block : List Placed) : Option String := block.head?.bind keyOf

def keptBlocks (windows : List Placed) : List (List Placed) := (blocksOf keyOf windows).filter kept

-- The surviving blocks of each run.
def groups (windows : List Placed) : List (List (List Placed)) := blocksOf blockKey (keptBlocks windows)

def groupKey (group : List (List Placed)) : Option String := group.head?.bind blockKey

structure Extent (entries : List Placed) (run : KeyRun) : Prop where
  first : entries.head?.map (fun entry => entry.1.startSec) = some run.startSec
  latest : ∃ entry ∈ entries, entry.1.endSec = run.endSec
  within : ∀ entry ∈ entries, entry.1.endSec ≤ run.endSec
  count : run.windowCount = entries.length

structure BlockStands (block : List Placed) (run : KeyRun) : Prop where
  code : Constant keyOf block (some run.code)
  extent : Extent block run

structure Stands (group : List (List Placed)) (run : KeyRun) : Prop where
  filled : group ≠ []
  code : ∀ block ∈ group, Constant keyOf block (some run.code)
  extent : Extent group.flatten run

theorem Extent.join {front back : List Placed} {run other : KeyRun} (before : Extent front run) (after : Extent back other) :
    Extent (front ++ back) (joinRun run other) where
  first := by
    obtain ⟨entry, at', same⟩ := Option.map_eq_some_iff.mp before.first
    obtain ⟨rest, rfl⟩ := List.head?_eq_some_iff.mp at'
    exact congrArg some same
  latest := by
    obtain ⟨entry, here, same⟩ := before.latest
    obtain ⟨next, there, last⟩ := after.latest
    obtain high | high := le_total run.endSec other.endSec
    · exact ⟨next, List.mem_append_right _ there, last.trans (max_eq_right high).symm⟩
    · exact ⟨entry, List.mem_append_left _ here, same.trans (max_eq_left high).symm⟩
  within := by
    intro entry member
    obtain here | there := List.mem_append.mp member
    · exact (before.within entry here).trans (le_max_left _ _)
    · exact (after.within entry there).trans (le_max_right _ _)
  count := by
    rw [List.length_append, ← before.count, ← after.count]
    rfl

variable {windows : List Placed} {block : List Placed} {group : List (List Placed)} {fine : List Window}

theorem constant_blockKey {code : Option String} (constant : Constant keyOf block code) : blockKey block = code := by
  obtain ⟨first, rest, rfl⟩ := List.exists_cons_of_ne_nil constant.1
  exact constant.2 first List.mem_cons_self

theorem Stands.key {run : KeyRun} (standing : Stands group run) : groupKey group = some run.code := by
  obtain ⟨block, rest, rfl⟩ := List.exists_cons_of_ne_nil standing.filled
  exact constant_blockKey (standing.code block List.mem_cons_self)

theorem windowRun_stands {entry : Placed} {run : KeyRun} (same : windowRun entry.1 = some run) : BlockStands [entry] run := by
  obtain ⟨code, found, rfl⟩ := Option.map_eq_some_iff.mp same
  refine ⟨⟨List.cons_ne_nil _ _, fun other member => List.mem_singleton.mp member ▸ found⟩, rfl, ?_, ?_, rfl⟩
  · exact ⟨entry, List.mem_singleton_self entry, rfl⟩
  · intro other member
    rw [List.mem_singleton.mp member]

theorem sameCode_iff {run other : KeyRun} {key rival : Option String} (here : key = some run.code) (there : rival = some other.code) :
    sameCode run other = decide (key = rival) := by
  rw [sameCode, here, there]
  simp

theorem windowTells : Tells sameCode joinRun (sameKey keyOf) (fun entry run => windowRun entry.1 = some run) BlockStands where
  single entry run same := windowRun_stands same
  alike block entry current run standing next unit := by
    have here : keyOf entry = some current.code := standing.code.2 entry (by simp)
    have there : keyOf next = some run.code := (windowRun_stands unit).code.2 next (by simp)
    exact sameCode_iff here there
  joins block entry current run standing unit same := by
    have added := windowRun_stands unit
    refine ⟨⟨by simp, fun other member => ?_⟩, standing.extent.join added.extent⟩
    obtain here | there := List.mem_append.mp member
    · exact standing.code.2 other here
    · rw [added.code.2 other there, ← of_decide_eq_true same]
      rfl

theorem blockTells : Tells sameCode joinRun (sameKey blockKey) BlockStands Stands where
  single block run standing := by
    refine ⟨List.cons_ne_nil _ _, fun other member => List.mem_singleton.mp member ▸ standing.code, ?_⟩
    rw [List.flatten_singleton]
    exact standing.extent
  alike group block current run standing next unit := by
    have here : blockKey block = some current.code := constant_blockKey (standing.code block (by simp))
    exact sameCode_iff here (constant_blockKey unit.code)
  joins group block current run standing unit same := by
    refine ⟨by simp, fun other member => ?_, ?_⟩
    · obtain here | there := List.mem_append.mp member
      · exact standing.code other here
      · rw [List.mem_singleton.mp there, joinRun, of_decide_eq_true same]
        exact unit.code
    · rw [List.flatten_append, List.flatten_singleton]
      exact standing.extent.join unit.extent

def AllKeyed (windows : List Placed) : Prop := ∀ entry ∈ windows, entry.1.keyed = true

theorem window_units (keyed : AllKeyed windows) :
    List.Forall₂ (fun entry run => windowRun entry.1 = some run) windows ((windows.map Prod.fst).filterMap windowRun) := by
  induction windows with
  | nil => exact .nil
  | cons entry rest ih =>
    obtain ⟨code, found⟩ := Option.isSome_iff_exists.mp (keyed entry List.mem_cons_self)
    have run : windowRun entry.1 = some ⟨code, entry.1.startSec, entry.1.endSec, 1⟩ := by rw [windowRun, found, Option.map_some]
    rw [List.map_cons, List.filterMap_cons_some run]
    exact .cons run (ih fun other member => keyed other (List.mem_cons_of_mem _ member))

-- Each run of the filter stands for one group of surviving blocks, in their order.
theorem mergedRuns_stands (keyed : AllKeyed windows) : List.Forall₂ Stands (groups windows) (mergedRuns (windows.map Prod.fst)) := by
  have encoded := coalesce_stands windowTells (window_units keyed)
  have survived : List.Forall₂ BlockStands (keptBlocks windows)
      ((coalesce sameCode joinRun ((windows.map Prod.fst).filterMap windowRun)).filter lasting) := by
    have alike : ∀ block run, BlockStands block run → (kept block = true ↔ lasting run = true) := by
      intro block run standing
      rw [kept, lasting, standing.extent.count]
    exact List.rel_filter (fun block run => alike block run) encoded
  exact coalesce_stands blockTells survived

theorem mergedRuns_codes (keyed : AllKeyed windows) :
    (mergedRuns (windows.map Prod.fst)).map (fun run => some run.code) = (groups windows).map groupKey := by
  apply Eq.symm
  rw [← List.forall₂_eq_eq_eq, List.forall₂_map_left_iff, List.forall₂_map_right_iff]
  exact (mergedRuns_stands keyed).imp fun _ _ => Stands.key

end Phaze.Projection
