import Phaze.Projection.KeyRuns

set_option autoImplicit false

/-!
# The flicker filter

What the runs of the filter say of the keyed windows, and when the count of a run has the blips inside it.
-/

namespace Phaze.Projection

open Phaze.Coalesce

variable {windows : List Placed} {block : List Placed} {group whole : List (List Placed)} {fine : List Window}

def Rising (windows : List Placed) : Prop := windows.Pairwise fun entry other => entry.2 < other.2

-- At or between two windows of the run.
def inside (group : List (List Placed)) (entry : Placed) : Bool :=
  (group.flatten.any fun first => first.2 ≤ entry.2) && group.flatten.any fun last => entry.2 ≤ last.2

-- The keyed windows from the first to the last of a run.
def spanned (windows : List Placed) (group : List (List Placed)) : List Placed := windows.filter (inside group)

def spannedWindows (windows : List Placed) : List Placed := (groups windows).flatMap (spanned windows)

structure FilteredRuns (fine : List Window) : Prop where
  order : (groups (placed fine)).flatten.flatten.Sublist (placed fine)
  stands : List.Forall₂ Stands (groups (placed fine)) (flickerFilteredKeyRuns fine)
  differ : ((flickerFilteredKeyRuns fine).map KeyRun.code).IsChain (· ≠ ·)
  lasting : ∀ run ∈ flickerFilteredKeyRuns fine, 2 ≤ run.windowCount
  encoded : (blocksOf keyOf (keptBlocks (placed fine)).flatten).map blockKey = (flickerFilteredKeyRuns fine).map fun run => some run.code
  again : (flickerFilteredKeyRuns ((keptBlocks (placed fine)).flatten.map Prod.fst)).map KeyRun.code =
    (flickerFilteredKeyRuns fine).map KeyRun.code
  spannedAgain : (flickerFilteredKeyRuns ((spannedWindows (placed fine)).map Prod.fst)).map KeyRun.code =
    (flickerFilteredKeyRuns fine).map KeyRun.code
  edges : wheelTransitions fine = transitions fine
  share : wheelShare fine = harmonicDiscipline fine

-- With the blips inside a run in its count, as `KeyRun` documents it.
structure Filtered (fine : List Window) : Prop extends FilteredRuns fine where
  counted : (flickerFilteredKeyRuns fine).map KeyRun.windowCount = (groups (placed fine)).map fun group => (spanned (placed fine) group).length

/-! ## Blocks and groups -/

theorem constant_groupKey {code : Option String} (constant : Constant blockKey group code) : groupKey group = code := by
  obtain ⟨first, rest, rfl⟩ := List.exists_cons_of_ne_nil constant.1
  exact constant.2 first List.mem_cons_self

theorem block_constant (member : block ∈ blocksOf keyOf windows) : Constant keyOf block (blockKey block) := by
  obtain ⟨code, constant⟩ := blocksOf_constant member
  rwa [constant_blockKey constant]

theorem group_constant (member : group ∈ groups windows) : Constant blockKey group (groupKey group) := by
  obtain ⟨code, constant⟩ := blocksOf_constant member
  rwa [constant_groupKey constant]

theorem blocks_apart (windows : List Placed) : (blocksOf keyOf windows).IsChain fun block other => blockKey block ≠ blockKey other :=
  blocksOf_differ fun _ _ => constant_blockKey

theorem groups_apart (windows : List Placed) : (groups windows).IsChain fun group other => groupKey group ≠ groupKey other :=
  blocksOf_differ fun _ _ => constant_groupKey

theorem groups_flatten (windows : List Placed) : (groups windows).flatten = keptBlocks windows :=
  List.flatten_splitBy (sameKey blockKey) (keptBlocks windows)

theorem blocks_flatten (windows : List Placed) : (blocksOf keyOf windows).flatten = windows := List.flatten_splitBy (sameKey keyOf) windows

theorem mem_groups {other : List Placed} (member : group ∈ groups windows) (here : other ∈ group) :
    other ∈ blocksOf keyOf windows ∧ kept other = true := by
  have present : other ∈ keptBlocks windows := by
    rw [← groups_flatten]
    exact List.mem_flatten_of_mem member here
  exact List.mem_filter.mp present

theorem flatten_constant (member : group ∈ groups windows) : Constant keyOf group.flatten (groupKey group) := by
  have constant := group_constant member
  obtain ⟨first, rest, rfl⟩ := List.exists_cons_of_ne_nil constant.1
  have head := block_constant (mem_groups member List.mem_cons_self).1
  refine ⟨by simp [head.1], fun entry present => ?_⟩
  obtain ⟨block, here, inner⟩ := List.mem_flatten.mp present
  rw [← constant.2 block here]
  exact (block_constant (mem_groups member here).1).2 entry inner

theorem flatten_blockKey (member : group ∈ groups windows) : blockKey group.flatten = groupKey group :=
  constant_blockKey (flatten_constant member)

theorem flatten_kept (member : group ∈ groups windows) : kept group.flatten = true := by
  obtain ⟨first, rest, rfl⟩ := List.exists_cons_of_ne_nil (group_constant member).1
  have long := of_decide_eq_true (mem_groups member List.mem_cons_self).2
  apply decide_eq_true
  rw [List.flatten_cons, List.length_append]
  omega

-- What is left after the blips has a block for each run.
theorem blocksOf_keptBlocks (windows : List Placed) : blocksOf keyOf (keptBlocks windows).flatten = (groups windows).map List.flatten := by
  have whole : (keptBlocks windows).flatten = ((groups windows).map List.flatten).flatten := by
    rw [← groups_flatten, List.flatten_flatten]
  rw [whole]
  apply blocksOf_flatten
  · intro block member
    obtain ⟨group, here, rfl⟩ := List.mem_map.mp member
    exact ⟨groupKey group, flatten_constant here⟩
  · rw [List.isChain_map]
    apply (groups_apart windows).imp_of_mem_imp
    intro group other here there differ value rival first second
    rwa [first.unique (flatten_constant here), second.unique (flatten_constant there)]

theorem encoded_codes (windows : List Placed) :
    (blocksOf keyOf (keptBlocks windows).flatten).map blockKey = (groups windows).map groupKey := by
  rw [blocksOf_keptBlocks, List.map_map]
  apply List.map_congr_left
  intro group member
  exact flatten_blockKey member

-- The filter finds the same codes among the windows that it kept.
theorem groups_keptBlocks (windows : List Placed) :
    (groups (keptBlocks windows).flatten).map groupKey = (groups windows).map groupKey := by
  have all : keptBlocks (keptBlocks windows).flatten = (groups windows).map List.flatten := by
    rw [keptBlocks, blocksOf_keptBlocks, List.filter_eq_self]
    intro block member
    obtain ⟨group, here, rfl⟩ := List.mem_map.mp member
    exact flatten_kept here
  have apart : ((groups windows).map List.flatten).IsChain fun block other => blockKey block ≠ blockKey other := by
    rw [List.isChain_map]
    apply (groups_apart windows).imp_of_mem_imp
    intro group other here there differ
    rwa [flatten_blockKey here, flatten_blockKey there]
  rw [groups, all, blocksOf_singles apart, List.map_map, List.map_map]
  apply List.map_congr_left
  intro group member
  exact flatten_blockKey member

/-! ## Spans -/

theorem span_constant (part : whole <:+: blocksOf keyOf windows) (member : block ∈ whole) : Constant keyOf block (blockKey block) :=
  block_constant (part.subset member)

theorem span_windows (part : whole <:+: blocksOf keyOf windows) : ∃ early late, windows = early ++ (whole.flatten ++ late) := by
  obtain ⟨left, right, same⟩ := part
  refine ⟨left.flatten, right.flatten, ?_⟩
  have pieces := blocks_flatten windows
  rw [← same, List.flatten_append, List.flatten_append, List.append_assoc] at pieces
  exact pieces.symm

theorem span_rising (rising : Rising windows) (part : whole <:+: blocksOf keyOf windows) : Rising whole.flatten := by
  obtain ⟨early, late, rfl⟩ := span_windows part
  exact (List.pairwise_append.mp (List.pairwise_append.mp rising).2.1).1

theorem group_subset (spans : Spans kept (blocksOf keyOf windows) group whole) {entry : Placed} (member : entry ∈ group.flatten) :
    entry ∈ whole.flatten := by
  obtain ⟨block, here, inner⟩ := List.mem_flatten.mp member
  rw [← spans.chosen] at here
  exact List.mem_flatten_of_mem (List.mem_filter.mp here).1 inner

-- Everything of a span lies between its first and last blocks, which the run has.
theorem inside_span (rising : Rising windows) (filled : group ≠ []) (spans : Spans kept (blocksOf keyOf windows) group whole)
    {entry : Placed} (member : entry ∈ whole.flatten) : inside group entry = true := by
  have sorted := span_rising rising spans.part
  rw [inside, Bool.and_eq_true, List.any_eq_true, List.any_eq_true]
  constructor
  · obtain ⟨first, rest, rfl⟩ := List.exists_cons_of_ne_nil filled
    obtain ⟨later, rfl⟩ := List.head?_eq_some_iff.mp spans.first
    have own : ∀ other ∈ first, other ∈ (first :: rest).flatten := fun other here => List.mem_flatten_of_mem List.mem_cons_self here
    rw [List.flatten_cons] at member sorted
    obtain here | there := List.mem_append.mp member
    · exact ⟨entry, own entry here, decide_eq_true le_rfl⟩
    · have constant : Constant keyOf first (blockKey first) := span_constant spans.part List.mem_cons_self
      obtain ⟨other, others, same⟩ := List.exists_cons_of_ne_nil constant.1
      have head : other ∈ first := same ▸ List.mem_cons_self
      exact ⟨other, own other head, decide_eq_true ((List.pairwise_append.mp sorted).2.2 other head entry there).le⟩
  · obtain ⟨earlier, last, rfl⟩ := (List.eq_nil_or_concat' group).resolve_left filled
    have final := spans.last
    rw [List.getLast?_concat] at final
    obtain ⟨before, rfl⟩ := List.getLast?_eq_some_iff.mp final
    have own : ∀ other ∈ last, other ∈ (earlier ++ [last]).flatten := fun other here => List.mem_flatten_of_mem (by simp) here
    rw [List.flatten_append, List.flatten_singleton] at member sorted
    obtain here | there := List.mem_append.mp member
    · have constant : Constant keyOf last (blockKey last) := span_constant spans.part (by simp)
      obtain ⟨other, others, same⟩ := List.exists_cons_of_ne_nil constant.1
      have head : other ∈ last := same ▸ List.mem_cons_self
      exact ⟨other, own other head, decide_eq_true ((List.pairwise_append.mp sorted).2.2 entry here other head).le⟩
    · exact ⟨entry, own entry there, decide_eq_true le_rfl⟩

theorem spanned_eq (rising : Rising windows) (filled : group ≠ []) (spans : Spans kept (blocksOf keyOf windows) group whole) :
    spanned windows group = whole.flatten := by
  obtain ⟨early, late, same⟩ := span_windows spans.part
  have order := rising
  rw [same] at order
  obtain ⟨-, later, before⟩ := List.pairwise_append.mp order
  obtain ⟨-, -, after⟩ := List.pairwise_append.mp later
  have middle : whole.flatten.filter (inside group) = whole.flatten := List.filter_eq_self.mpr fun entry => inside_span rising filled spans
  have front : early.filter (inside group) = [] := by
    rw [List.filter_eq_nil_iff]
    intro entry member found
    rw [inside, Bool.and_eq_true, List.any_eq_true] at found
    obtain ⟨⟨first, here, least⟩, -⟩ := found
    have less := before entry member first (List.mem_append_left _ (group_subset spans here))
    exact absurd (of_decide_eq_true least) (by omega)
  have back : late.filter (inside group) = [] := by
    rw [List.filter_eq_nil_iff]
    intro entry member found
    rw [inside, Bool.and_eq_true, List.any_eq_true, List.any_eq_true] at found
    obtain ⟨-, ⟨last, here, most⟩⟩ := found
    have more := after last (group_subset spans here) entry member
    exact absurd (of_decide_eq_true most) (by omega)
  rw [spanned, same, List.filter_append, List.filter_append, front, middle, back, List.nil_append, List.append_nil]

-- The span of each run, chosen once.
theorem exists_wholes (windows : List Placed) :
    ∃ whole : List (List Placed) → List (List Placed), ∀ group ∈ groups windows, Spans kept (blocksOf keyOf windows) group (whole group) := by
  have each : ∀ group ∈ groups windows, ∃ whole, Spans kept (blocksOf keyOf windows) group whole := fun group member =>
    exists_spans (infix_of_mem_blocksOf member) (group_constant member).1
  choose! whole spans using each
  exact ⟨whole, spans⟩

-- A span that is as long as its group leaves nothing out.
theorem span_full (spans : Spans kept (blocksOf keyOf windows) group whole) : group.flatten.length = whole.flatten.length ↔
    whole = group := by
  constructor
  · intro long
    rw [← spans.chosen, eq_comm, List.filter_eq_self]
    intro block member
    by_contra left
    have filled : 0 < block.length := List.length_pos_of_ne_nil (span_constant spans.part member).1
    obtain ⟨before, after, rfl⟩ := List.append_of_mem member
    have front : (before.filter kept).flatten.length ≤ before.flatten.length := List.filter_sublist.flatten.length_le
    have back : (after.filter kept).flatten.length ≤ after.flatten.length := List.filter_sublist.flatten.length_le
    rw [← spans.chosen, List.filter_append, List.filter_cons, if_neg left] at long
    simp only [List.flatten_append, List.flatten_cons, List.length_append] at long
    omega
  · rintro rfl
    rfl

/-! ## Again over the spans -/

theorem spannedWindows_eq (rising : Rising windows) {wholes : List (List Placed) → List (List Placed)}
    (spans : ∀ group ∈ groups windows, Spans kept (blocksOf keyOf windows) group (wholes group)) :
    spannedWindows windows = ((groups windows).map wholes).flatten.flatten := by
  rw [spannedWindows, List.flatMap_def, List.flatten_flatten, List.map_map]
  congr 1
  apply List.map_congr_left
  intro group member
  exact spanned_eq rising (group_constant member).1 (spans group member)

theorem blocksOf_spanned {wholes : List (List Placed) → List (List Placed)}
    (spans : ∀ group ∈ groups windows, Spans kept (blocksOf keyOf windows) group (wholes group)) :
    blocksOf keyOf ((groups windows).map wholes).flatten.flatten = ((groups windows).map wholes).flatten := by
  apply blocksOf_flatten
  · intro block member
    obtain ⟨whole, here, inner⟩ := List.mem_flatten.mp member
    obtain ⟨group, there, rfl⟩ := List.mem_map.mp here
    exact ⟨blockKey block, span_constant (spans group there).part inner⟩
  · have filled : [] ∉ (groups windows).map wholes := by
      intro empty
      obtain ⟨group, here, same⟩ := List.mem_map.mp empty
      have first := (spans group here).first
      rw [same] at first
      exact (group_constant here).1 (List.head?_eq_none_iff.mp first.symm)
    rw [List.isChain_flatten filled]
    constructor
    · intro whole here
      obtain ⟨group, there, rfl⟩ := List.mem_map.mp here
      exact List.IsChain.infix (blocksOf_apart keyOf windows) (spans group there).part
    · rw [List.isChain_map]
      apply (groups_apart windows).imp_of_mem_imp
      intro group other here there differ last at' head at'' value rival first second
      rw [(spans group here).last] at at'
      rw [(spans other there).first] at at''
      have left := (group_constant here).2 last (List.mem_of_getLast? at')
      have right := (group_constant there).2 head (List.mem_of_head? at'')
      rw [constant_blockKey first] at left
      rw [constant_blockKey second] at right
      rwa [left, right]

-- The filter finds the same groups among the windows from the first to the last of each run.
theorem groups_spanned (rising : Rising windows) : groups (spannedWindows windows) = groups windows := by
  obtain ⟨wholes, spans⟩ := exists_wholes windows
  have kept' : keptBlocks (spannedWindows windows) = keptBlocks windows := by
    rw [keptBlocks, spannedWindows_eq rising spans, blocksOf_spanned spans, List.filter_flatten, List.map_map, ← groups_flatten]
    congr 1
    have chosen : (groups windows).map (List.filter kept ∘ wholes) = (groups windows).map id := by
      apply List.map_congr_left
      intro group member
      exact (spans group member).chosen
    rw [chosen, List.map_id]
  rw [groups, kept', groups]

/-! ## Keyed windows in order -/

theorem placed_keyed (fine : List Window) : AllKeyed (placed fine) := by
  intro entry member
  have present : entry.1 ∈ ordered fine := by
    rw [← List.zipIdx_map_fst 0 (ordered fine)]
    exact List.mem_map_of_mem member
  rw [ordered, List.mem_insertionSort] at present
  exact (List.mem_filter.mp present).2

theorem placed_rising (fine : List Window) : Rising (placed fine) := by
  rw [Rising, placed, List.pairwise_iff_getElem]
  intro place other here there less
  simpa using less

theorem placed_fst (fine : List Window) : (placed fine).map Prod.fst = ordered fine := List.zipIdx_map_fst 0 (ordered fine)

theorem ordered_sorted (fine : List Window) : (ordered fine).Pairwise inOrder := by
  have total : Std.Total inOrder := by
    constructor
    intro window other
    obtain less | same | more := lt_trichotomy window.windowIndex other.windowIndex
    · exact .inl (.inl less)
    · obtain early | late := le_total window.startSec other.startSec
      · exact .inl (.inr ⟨same, early⟩)
      · exact .inr (.inr ⟨same.symm, late⟩)
    · exact .inr (.inl more)
  have transitive : IsTrans Window inOrder := by
    constructor
    intro window other third
    rintro (less | ⟨same, early⟩) (next | ⟨alike, late⟩)
    · exact .inl (less.trans next)
    · exact .inl (less.trans_eq alike)
    · exact .inl (same.trans_lt next)
    · exact .inr ⟨same.trans alike, early.trans late⟩
  exact List.pairwise_insertionSort inOrder _

-- Keyed windows that are in order stay as they are.
theorem ordered_of_rising {chosen : List Placed} (rising : Rising chosen) (part : ∀ entry ∈ chosen, entry ∈ placed fine) :
    ordered (chosen.map Prod.fst) = chosen.map Prod.fst := by
  have keyed : (chosen.map Prod.fst).filter Window.keyed = chosen.map Prod.fst := by
    rw [List.filter_eq_self]
    intro window member
    obtain ⟨entry, here, rfl⟩ := List.mem_map.mp member
    exact placed_keyed fine entry (part entry here)
  have sorted : (chosen.map Prod.fst).Pairwise inOrder := by
    rw [List.pairwise_map]
    apply List.Pairwise.imp_of_mem _ rising
    intro entry other here there less
    obtain ⟨early, same⟩ := List.getElem?_eq_some_iff.mp (List.mem_zipIdx_iff_getElem?.mp (part entry here))
    obtain ⟨late, alike⟩ := List.getElem?_eq_some_iff.mp (List.mem_zipIdx_iff_getElem?.mp (part other there))
    rw [← same, ← alike]
    exact List.pairwise_iff_getElem.mp (ordered_sorted fine) _ _ early late less
  rw [ordered, keyed, sorted.insertionSort_eq]

theorem flicker_stands (fine : List Window) : List.Forall₂ Stands (groups (placed fine)) (flickerFilteredKeyRuns fine) := by
  have standing := mergedRuns_stands (placed_keyed fine)
  rwa [placed_fst] at standing

theorem flicker_codes {chosen : List Placed} (rising : Rising chosen) (part : ∀ entry ∈ chosen, entry ∈ placed fine) :
    (flickerFilteredKeyRuns (chosen.map Prod.fst)).map (fun run => some run.code) = (groups chosen).map groupKey := by
  rw [flickerFilteredKeyRuns, ordered_of_rising rising part]
  exact mergedRuns_codes fun entry member => placed_keyed fine entry (part entry member)

theorem placed_codes (fine : List Window) : (flickerFilteredKeyRuns fine).map (fun run => some run.code) =
    (groups (placed fine)).map groupKey := by
  have codes := mergedRuns_codes (placed_keyed fine)
  rwa [placed_fst] at codes

theorem codes_of_groups {runs others : List KeyRun} (same : runs.map (fun run => some run.code) = others.map fun run => some run.code) :
    runs.map KeyRun.code = others.map KeyRun.code := by
  have injective : Function.Injective (List.map (some : String → Option String)) := List.map_injective_iff.mpr (Option.some_injective String)
  apply injective
  rwa [List.map_map, List.map_map]

/-! ## The wheel -/

-- Every code of the table is at one of the twelve hours.
theorem table_placeable : ∀ entry ∈ camelotTable, (camelotNumber (some entry.2)).any
    (fun number => decide (1 ≤ number ∧ number ≤ 12)) = true := by
  decide +kernel

theorem camelot_placeable {window : Window} {code : String} (found : window.camelot = some code) :
    ∃ number, camelotNumber (some code) = some number ∧ 1 ≤ number ∧ number ≤ 12 := by
  obtain ⟨key, -, read⟩ := Option.bind_eq_some_iff.mp found
  by_cases empty : key = ""
  · rw [if_pos empty] at read
    cases read
  · rw [if_neg empty] at read
    obtain ⟨before, after, same, -⟩ := List.lookup_eq_some_iff.mp read
    have member : (((enharmonicAliases.lookup key).getD key), code) ∈ camelotTable := by
      rw [same]
      exact List.mem_append_right _ List.mem_cons_self
    have test := table_placeable _ member
    cases number : camelotNumber (some code) with
    | none =>
      rw [number] at test
      cases test
    | some hour =>
      rw [number, Option.any_some] at test
      exact ⟨hour, rfl, of_decide_eq_true test⟩

theorem run_keyed {run : KeyRun} (member : run ∈ flickerFilteredKeyRuns fine) : ∃ window : Window, window.camelot = some run.code := by
  have present : some run.code ∈ (groups (placed fine)).map groupKey := by
    rw [← placed_codes]
    exact List.mem_map_of_mem member
  obtain ⟨group, here, same⟩ := List.mem_map.mp present
  have constant := flatten_constant here
  obtain ⟨entry, rest, whole⟩ := List.exists_cons_of_ne_nil constant.1
  have read := constant.2 entry (whole ▸ List.mem_cons_self)
  exact ⟨entry.1, read.trans same⟩

theorem placeable_all (fine : List Window) : (placeableKeyRuns (flickerFilteredKeyRuns fine)).map Prod.fst = flickerFilteredKeyRuns fine := by
  have each : ∀ run ∈ flickerFilteredKeyRuns fine, ∃ number, camelotNumber (some run.code) = some number ∧ 1 ≤ number ∧ number ≤ 12 := by
    intro run member
    obtain ⟨window, code⟩ := run_keyed member
    exact camelot_placeable code
  generalize flickerFilteredKeyRuns fine = runs at each
  induction runs with
  | nil => rfl
  | cons run rest ih =>
    obtain ⟨number, read, within⟩ := each run List.mem_cons_self
    have node : placeable run = some (run, number) := by rw [placeable, read, Option.bind_some, if_pos within]
    rw [placeableKeyRuns, List.filterMap_cons_some node, List.map_cons]
    exact congrArg (run :: ·) (ih fun other later => each other (List.mem_cons_of_mem _ later))

theorem wheelCodes_eq (fine : List Window) : wheelCodes fine = (flickerFilteredKeyRuns fine).map KeyRun.code := by
  have inner := congrArg (List.map KeyRun.code) (placeable_all fine)
  rwa [List.map_map] at inner

theorem wheelTransitions_eq (fine : List Window) : wheelTransitions fine = transitions fine := by
  rw [wheelTransitions, wheelCodes_eq, transitions]

theorem wheelShare_eq (fine : List Window) : wheelShare fine = harmonicDiscipline fine := by
  rw [wheelShare, harmonicDiscipline, wheelTransitions_eq, wheelCodes_eq]
  simp only [List.map_eq_nil_iff]

/-! ## Counts -/

theorem counts_eq (fine : List Window) :
    (flickerFilteredKeyRuns fine).map KeyRun.windowCount = (groups (placed fine)).map fun group => group.flatten.length := by
  apply Eq.symm
  rw [← List.forall₂_eq_eq_eq, List.forall₂_map_left_iff, List.forall₂_map_right_iff]
  exact (flicker_stands fine).imp fun _ _ standing => standing.extent.count.symm

-- The counts have the blips exactly when no run has any inside.
theorem counted_iff (fine : List Window) :
    ((flickerFilteredKeyRuns fine).map KeyRun.windowCount = (groups (placed fine)).map fun group => (spanned (placed fine) group).length) ↔
      ¬ Bridged blockKey kept (blocksOf keyOf (placed fine)) := by
  rw [counts_eq, List.map_inj_left, ← groups_full_iff (blocks_apart (placed fine))]
  constructor
  · intro same group member whole spans
    have long := same group member
    rw [spanned_eq (placed_rising fine) (group_constant member).1 spans] at long
    exact (span_full spans).mp long
  · intro full group member
    obtain ⟨whole, spans⟩ := exists_spans (infix_of_mem_blocksOf member) (group_constant member).1
    rw [spanned_eq (placed_rising fine) (group_constant member).1 spans]
    exact (span_full spans).mpr (full group member whole spans)

theorem groups_sublist (windows : List Placed) : (groups windows).flatten.flatten.Sublist windows := by
  have part : (keptBlocks windows).flatten.Sublist (blocksOf keyOf windows).flatten := List.filter_sublist.flatten
  rwa [blocks_flatten, ← groups_flatten] at part

theorem spannedWindows_rising (rising : Rising windows) : Rising (spannedWindows windows) := by
  have order : (groups windows).Pairwise fun group other => ∀ entry ∈ group.flatten, ∀ next ∈ other.flatten, entry.2 < next.2 := by
    have sorted := rising.sublist (groups_sublist windows)
    rw [List.flatten_flatten, List.pairwise_flatten, List.pairwise_map] at sorted
    exact sorted.2
  rw [Rising, spannedWindows, List.pairwise_flatMap]
  refine ⟨fun group _ => rising.sublist List.filter_sublist, order.imp ?_⟩
  intro group other apart entry here next there
  have early := (List.mem_filter.mp here).2
  have late := (List.mem_filter.mp there).2
  rw [inside, Bool.and_eq_true, List.any_eq_true, List.any_eq_true] at early late
  obtain ⟨-, last, inner, most⟩ := early
  obtain ⟨⟨first, outer, least⟩, -⟩ := late
  have between := apart last inner first outer
  have most := of_decide_eq_true most
  have least := of_decide_eq_true least
  omega

theorem mem_spannedWindows {entry : Placed} (member : entry ∈ spannedWindows windows) : entry ∈ windows := by
  obtain ⟨group, -, inner⟩ := List.mem_flatMap.mp member
  exact (List.mem_filter.mp inner).1

theorem codes_differ (fine : List Window) : ((flickerFilteredKeyRuns fine).map KeyRun.code).IsChain (· ≠ ·) := by
  have chain : ((groups (placed fine)).map groupKey).IsChain (· ≠ ·) := by
    rw [List.isChain_map]
    exact groups_apart (placed fine)
  rw [← placed_codes, List.isChain_map] at chain
  rw [List.isChain_map]
  exact chain.imp fun _ _ apart same => apart (congrArg some same)

theorem counts_lasting (fine : List Window) : ∀ run ∈ flickerFilteredKeyRuns fine, 2 ≤ run.windowCount := by
  intro run member
  have present := List.mem_map_of_mem (f := KeyRun.windowCount) member
  rw [counts_eq] at present
  obtain ⟨group, here, same⟩ := List.mem_map.mp present
  rw [← same]
  exact of_decide_eq_true (flatten_kept here)

theorem filtered_runs (fine : List Window) : FilteredRuns fine := by
  have rising := placed_rising fine
  constructor
  · exact groups_sublist (placed fine)
  · exact flicker_stands fine
  · exact codes_differ fine
  · exact counts_lasting fine
  · rw [encoded_codes, placed_codes]
  · apply codes_of_groups
    have part := groups_sublist (placed fine)
    rw [groups_flatten] at part
    rw [flicker_codes (rising.sublist part) fun entry member => part.subset member, groups_keptBlocks, placed_codes]
  · apply codes_of_groups
    rw [flicker_codes (spannedWindows_rising rising) fun entry => mem_spannedWindows, groups_spanned rising, placed_codes]
  · exact wheelTransitions_eq fine
  · exact wheelShare_eq fine

-- Each count is of the windows of the surviving blocks of its run.
theorem filter_counts_survivors (fine : List Window) : FilteredRuns fine ∧
    (flickerFilteredKeyRuns fine).map KeyRun.windowCount = (groups (placed fine)).map fun group => group.flatten.length :=
  ⟨filtered_runs fine, counts_eq fine⟩

-- The blips are in the counts exactly when no run bridges one.
theorem filter_counts_unbridged (fine : List Window) : Filtered fine ↔ ¬ Bridged blockKey kept (blocksOf keyOf (placed fine)) := by
  constructor
  · exact fun filtered => (counted_iff fine).mp filtered.counted
  · exact fun unbridged => ⟨filtered_runs fine, (counted_iff fine).mpr unbridged⟩

/-! ## A dropped blip -/

def keyedWindow (index : Nat) (musicalKey : String) : Window :=
  { tier := "fine", windowIndex := index, startSec := 30 * index, endSec := 30 * index + 30, musicalKey := some musicalKey, energy := none }

def bridgedKeys : List Window :=
  [keyedWindow 0 "A minor", keyedWindow 1 "A minor", keyedWindow 2 "A# minor", keyedWindow 3 "A minor", keyedWindow 4 "A minor"]

theorem bridged_count : (flickerFilteredKeyRuns bridgedKeys).map KeyRun.windowCount = [4] := by decide +kernel

theorem bridged_extent : ((groups (placed bridgedKeys)).map fun group => (spanned (placed bridgedKeys) group).length) = [5] :=
    by decide +kernel

-- Five windows from the first to the last, and a count of four.
theorem blip_is_not_counted : ¬ Filtered bridgedKeys := by
  intro filtered
  have counted := filtered.counted
  rw [bridged_count, bridged_extent] at counted
  exact absurd counted (by decide)

end Phaze.Projection
