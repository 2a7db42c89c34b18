import Phaze.Projection.Coverage

set_option autoImplicit false

/-!
# Nested windows

The arc is right for every choice of energies exactly when no window of a run is passed over: where the spans are
nested, some energies show it.
-/

namespace Phaze.Projection

open Phaze.Polyline

variable {spans others run : List Span} {time : ℚ}

def Span.extent (span : Span) : ℚ × ℚ := (span.startSec, span.endSec)

-- The spans of the windows and which of them have an energy.
def layout (windows : List Window) : List (ℚ × ℚ × Bool) := windows.map fun window => (window.startSec, window.endSec, window.energy.isSome)

/-! ## Extents -/

theorem extent_eq {span other : Span} (same : span.extent = other.extent) : span.startSec = other.startSec ∧ span.endSec = other.endSec :=
  Prod.mk.inj same

theorem middle_eq {span other : Span} (same : span.extent = other.extent) : span.middle = other.middle := by
  obtain ⟨starts, ends⟩ := extent_eq same
  rw [Span.middle, Span.middle, starts, ends]

theorem EndsLast.transfer (ends : EndsLast spans) (same : others.map Span.extent = spans.map Span.extent) : EndsLast others := by
  rintro before last after rfl gap earlier member
  rw [List.map_append, List.map_cons] at same
  obtain ⟨before', rest, rfl, front, back⟩ := List.map_eq_append_iff.mp same.symm
  obtain ⟨last', after', rfl, final, later⟩ := List.map_eq_cons_iff.mp back
  have gap' : ∀ next ∈ after'.head?, gapToleranceSec < next.startSec - last'.endSec := by
    intro next head
    have heads := congrArg List.head? later
    rw [List.head?_map, List.head?_map, Option.mem_def.mp head, Option.map_some] at heads
    obtain ⟨other, head', alike⟩ := Option.map_eq_some_iff.mp heads.symm
    have far := gap other head'
    rwa [(extent_eq alike).1, ← (extent_eq final).2] at far
  have present : earlier.extent ∈ before'.map Span.extent := by
    rw [front]
    exact List.mem_map_of_mem member
  obtain ⟨earlier', member', alike⟩ := List.mem_map.mp present
  have reached := ends before' last' after' rfl gap' earlier' member'
  rwa [(extent_eq alike).2, (extent_eq final).2] at reached

theorem MiddlesRise.transfer (middles : MiddlesRise spans) (same : others.map Span.extent = spans.map Span.extent) : MiddlesRise others := by
  rintro before span next after rfl close
  rw [List.map_append, List.map_cons, List.map_cons] at same
  obtain ⟨before', rest, rfl, -, back⟩ := List.map_eq_append_iff.mp same.symm
  obtain ⟨span', rest', rfl, first, back'⟩ := List.map_eq_cons_iff.mp back
  obtain ⟨next', after', rfl, second, -⟩ := List.map_eq_cons_iff.mp back'
  rw [← middle_eq first, ← middle_eq second]
  apply middles before' span' next' after' rfl
  rwa [(extent_eq second).1, (extent_eq first).2]

theorem Unnested.transfer (unnested : Unnested spans) (same : others.map Span.extent = spans.map Span.extent) : Unnested others :=
  ⟨unnested.ends.transfer same, unnested.middles.transfer same⟩

def extentOrder (extent other : ℚ × ℚ) : Prop := extent.1 < other.1 ∨ extent.1 = other.1 ∧ extent.2 ≤ other.2

theorem tupleOrder.extents {span other : Span} (order : tupleOrder span other) : extentOrder span.extent other.extent := by
  obtain less | ⟨same, less | ⟨same', -⟩⟩ := order
  · exact .inl less
  · exact .inr ⟨same, less.le⟩
  · exact .inr ⟨same, same'.le⟩

theorem extentOrder_antisymm {extent other : ℚ × ℚ} (here : extentOrder extent other) (there : extentOrder other extent) :
    extent = other := by
  obtain less | ⟨same, low⟩ := here
  · obtain more | ⟨same, -⟩ := there
    · exact absurd less more.asymm
    · exact absurd same less.ne'
  · obtain more | ⟨-, high⟩ := there
    · exact absurd same more.ne'
    · exact Prod.ext same (le_antisymm low high)

theorem usable_extents (windows : List Window) : ((usable windows).map Span.extent).Pairwise extentOrder := by
  rw [List.pairwise_map]
  exact (usable_sorted windows).imp tupleOrder.extents

theorem span_extent (window : Window) : window.span.map Span.extent =
    if window.energy.isSome = true ∧ window.startSec < window.endSec then some (window.startSec, window.endSec) else none := by
  rw [Window.span]
  cases window.energy with
  | none => rfl
  | some energy =>
    rw [Option.bind_some]
    by_cases wide : window.startSec < window.endSec
    · rw [dif_pos wide, if_pos ⟨rfl, wide⟩]
      rfl
    · rw [dif_neg wide, if_neg fun both => wide both.2]
      rfl

theorem layout_extents {windows rivals : List Window} (same : layout rivals = layout windows) :
    (usable rivals).map Span.extent = (usable windows).map Span.extent := by
  have read : ∀ chosen : List Window, (chosen.filterMap Window.span).map Span.extent = (layout chosen).filterMap fun entry =>
      if entry.2.2 = true ∧ entry.1 < entry.2.1 then some (entry.1, entry.2.1) else none := by
    intro chosen
    rw [layout, List.map_filterMap, List.filterMap_map]
    congr 1
    funext window
    exact span_extent window
  have perm : ∀ chosen : List Window, ((usable chosen).map Span.extent).Perm ((chosen.filterMap Window.span).map Span.extent) :=
    fun chosen => (List.perm_insertionSort tupleOrder _).map _
  apply ((perm rivals).trans _).eq_of_pairwise _ (usable_extents rivals) (usable_extents windows)
  · exact fun _ _ _ _ => extentOrder_antisymm
  · rw [read, same, ← read]
    exact (perm windows).symm

/-! ## New energies -/

def Span.recoloured (energy : ℚ × ℚ → ℚ) (span : Span) : Span := { span with energy := energy span.extent }

def recoloured (energy : ℚ × ℚ → ℚ) (windows : List Window) : List Window :=
  windows.map fun window => { window with energy := window.energy.map fun _ => energy (window.startSec, window.endSec) }

theorem layout_recoloured (energy : ℚ × ℚ → ℚ) (windows : List Window) : layout (recoloured energy windows) = layout windows := by
  rw [layout, layout, recoloured, List.map_map]
  apply List.map_congr_left
  intro window _
  simp

theorem recoloured_extents (energy : ℚ × ℚ → ℚ) (spans : List Span) :
    (spans.map (Span.recoloured energy)).map Span.extent = spans.map Span.extent := by
  rw [List.map_map]
  rfl

theorem span_recoloured (energy : ℚ × ℚ → ℚ) (window : Window) :
    ({ window with energy := window.energy.map fun _ => energy (window.startSec, window.endSec) } : Window).span =
      window.span.map (Span.recoloured energy) := by
  rw [Window.span, Window.span]
  cases window.energy with
  | none => rfl
  | some value =>
    rw [Option.map_some, Option.bind_some, Option.bind_some]
    by_cases wide : window.startSec < window.endSec
    · rw [dif_pos wide, dif_pos wide]
      rfl
    · rw [dif_neg wide, dif_neg wide]
      rfl

theorem tupleOrder_antisymm {span other : Span} (here : tupleOrder span other) (there : tupleOrder other span) : span = other := by
  obtain ⟨starts, ends⟩ := extent_eq (extentOrder_antisymm here.extents there.extents)
  obtain less | ⟨-, less | ⟨-, low⟩⟩ := here
  · exact absurd starts less.ne
  · exact absurd ends less.ne
  · obtain less | ⟨-, less | ⟨-, high⟩⟩ := there
    · exact absurd starts less.ne'
    · exact absurd ends less.ne'
    · exact Span.ext starts ends (le_antisymm low high)

theorem tupleOrder.recoloured {span other : Span} (order : tupleOrder span other) (energy : ℚ × ℚ → ℚ) :
    tupleOrder (span.recoloured energy) (other.recoloured energy) := by
  obtain less | ⟨same, less | ⟨same', -⟩⟩ := order
  · exact .inl less
  · exact .inr ⟨same, .inl less⟩
  · have extents : span.extent = other.extent := Prod.ext same same'
    exact .inr ⟨same, .inr ⟨same', le_of_eq (congrArg energy extents)⟩⟩

theorem usable_recoloured (energy : ℚ × ℚ → ℚ) (windows : List Window) :
    usable (recoloured energy windows) = (usable windows).map (Span.recoloured energy) := by
  have measured : (recoloured energy windows).filterMap Window.span = (windows.filterMap Window.span).map (Span.recoloured energy) := by
    rw [recoloured, List.filterMap_map, List.map_filterMap]
    congr 1
    funext window
    exact span_recoloured energy window
  have sorted : ((usable windows).map (Span.recoloured energy)).Pairwise tupleOrder := by
    rw [List.pairwise_map]
    exact (usable_sorted windows).imp fun order => order.recoloured energy
  apply List.Perm.eq_of_pairwise (fun _ _ _ _ => tupleOrder_antisymm) (usable_sorted _) sorted
  have perm := List.perm_insertionSort tupleOrder ((recoloured energy windows).filterMap Window.span)
  rw [measured] at perm
  rw [usable, measured]
  exact perm.trans ((List.perm_insertionSort tupleOrder (windows.filterMap Window.span)).map _).symm

theorem runs_recoloured (energy : ℚ × ℚ → ℚ) (spans : List Span) :
    runs (spans.map (Span.recoloured energy)) = (runs spans).map (List.map (Span.recoloured energy)) := by
  obtain ⟨whole, filled, chains, parted⟩ : spans = (runs spans).flatten ∧ [] ∉ runs spans ∧ _ := List.splitBy_eq_iff.mp rfl
  apply List.splitBy_eq_iff.mpr
  refine ⟨?_, ?_, ?_, ?_⟩
  · rw [← List.map_flatten, ← whole]
  · intro empty
    obtain ⟨run, member, same⟩ := List.mem_map.mp empty
    exact filled (List.map_eq_nil_iff.mp same ▸ member)
  · intro run member
    obtain ⟨inner, here, rfl⟩ := List.mem_map.mp member
    rw [List.isChain_map]
    exact chains inner here
  · rw [List.isChain_map]
    apply parted.imp
    rintro run other ⟨here, there, far⟩
    refine ⟨by simpa using here, by simpa using there, ?_⟩
    rw [List.getLast_map, List.head_map]
    exact far

/-! ## A window that ends a run early -/

theorem runs_append {early late : List Span} (far : ∀ last ∈ early.getLast?, ∀ next ∈ late.head?, gapToleranceSec < next.startSec - last.endSec) :
    runs (early ++ late) = runs early ++ runs late :=
  List.splitBy_append fun last final next head => decide_eq_false (not_le.mpr (far last final next head))

-- The end of the window passed over is covered, and no run goes so far.
theorem passed_over {before after : List Span} {last earlier : Span} (starts : Starts spans) (whole : spans = before ++ last :: after)
    (gap : ∀ next ∈ after.head?, gapToleranceSec < next.startSec - last.endSec) (member : earlier ∈ before) (longer : last.endSec < earlier.endSec) :
    ∃ time, last.endSec < time ∧ Covered spans time ∧ valueAt spans time = none := by
  have tolerance : (0 : ℚ) < gapToleranceSec := by norm_num [gapToleranceSec]
  have parts : spans = (before ++ [last]) ++ after := by rw [whole, List.append_assoc, List.singleton_append]
  have order := starts
  rw [parts] at order
  obtain ⟨front, later, -⟩ := List.pairwise_append.mp order
  obtain ⟨-, -, begun⟩ := List.pairwise_append.mp front
  have ahead : ∀ span ∈ before ++ [last], span.startSec ≤ last.startSec := by
    intro span inner
    obtain here | there := List.mem_append.mp inner
    · exact begun span here last (List.mem_singleton_self last)
    · rw [List.mem_singleton.mp there]
  have wide := last.wide
  have start := ahead earlier (List.mem_append_left _ member)
  refine ⟨min earlier.endSec (last.endSec + gapToleranceSec), lt_min longer (by linarith), ?_, ?_⟩
  · refine .inl ⟨earlier, by rw [whole]; exact List.mem_append_left _ member, ?_, min_le_left _ _⟩
    exact le_min earlier.wide.le (by linarith)
  · have past : last.endSec < min earlier.endSec (last.endSec + gapToleranceSec) := lt_min longer (by linarith)
    have short : min earlier.endSec (last.endSec + gapToleranceSec) ≤ last.endSec + gapToleranceSec := min_le_right _ _
    have none : (runs spans).find? (holds (min earlier.endSec (last.endSec + gapToleranceSec))) = none := by
      rw [List.find?_eq_none, parts, runs_append (by simpa using gap)]
      intro run inner held
      obtain ⟨first, final, head, ends, low, high⟩ := holds_iff.mp held
      obtain here | there := List.mem_append.mp inner
      · -- A run before the gap ends with `last` or well before its start.
        obtain ⟨ahead', back, piece⟩ := piece_of_mem here
        cases back with
        | nil =>
          have same := piece.whole
          rw [List.append_nil] at same
          have tail := congrArg List.getLast? same
          rw [List.getLast?_concat, List.getLast?_append_of_ne_nil _ piece.filled, ends] at tail
          obtain rfl := Option.some.inj tail
          linarith
        | cons next rest =>
          have far := piece.after final ends next rfl
          have present : next ∈ before ++ [last] := by
            rw [piece.whole]
            simp
          have early := ahead next present
          linarith
      · have present : first ∈ after := by
          rw [← runs_flatten after]
          exact List.mem_flatten_of_mem there (List.mem_of_head? head)
        obtain ⟨next, rest, rfl⟩ := List.exists_cons_of_ne_nil (List.ne_nil_of_mem present)
        have far := gap next rfl
        have least : next.startSec ≤ first.startSec := by
          obtain rfl | deeper := List.mem_cons.mp present
          · exact le_rfl
          · exact (List.pairwise_cons.mp later).1 first deeper
        linarith
    rw [valueAt, none]
    rfl

/-! ## A midpoint out of order -/

-- Within a run that is out of order, two neighbours show it.
theorem exists_descent (falls : ¬ MiddlesRise spans) :
    ∃ run ∈ runs spans, ∃ before span next after, run = before ++ span :: next :: after ∧ next.middle < span.middle := by
  by_contra none
  push Not at none
  apply falls
  have inner : ∀ run ∈ runs spans, run.IsChain fun span next => near span next = true → span.middle ≤ next.middle := by
    intro run member
    apply (List.isChain_isInfix run).imp
    rintro span next ⟨before, after, same⟩ -
    exact none run member before span next after (by rw [← same]; simp)
  have chain : (runs spans).flatten.IsChain fun span next => near span next = true → span.middle ≤ next.middle := by
    rw [List.isChain_flatten fun empty => run_filled empty rfl]
    refine ⟨inner, (List.isChain_getLast_head_splitBy near spans).imp ?_⟩
    rintro run other ⟨here, there, far⟩ last final first head close
    rw [Option.mem_def, List.getLast?_eq_some_getLast here, Option.some.injEq] at final
    rw [Option.mem_def, List.head?_eq_some_head there, Option.some.injEq] at head
    rw [final, head, close] at far
    cases far
  rw [runs_flatten] at chain
  rintro before span next after rfl close
  have rest := (List.isChain_append.mp chain).2.1
  exact (List.isChain_cons_cons.mp rest).1 (decide_eq_true close)

theorem timed_sort (knots : List (ℚ × ℚ)) : Timed (knots.insertionSort byTime) := by
  have total : Std.Total byTime := ⟨fun _ _ => le_total _ _⟩
  have transitive : IsTrans (ℚ × ℚ) byTime := ⟨fun _ _ _ => le_trans⟩
  exact List.pairwise_insertionSort byTime knots

-- In order of time, a knot above zero beside the time shows in the value.
theorem sorted_positive {knots : List (ℚ × ℚ)} (off : ∀ knot ∈ knots, knot.1 ≠ time) (early : ∃ knot ∈ knots, knot.1 < time)
    (late : ∃ knot ∈ knots, time < knot.1) (least : ∀ knot ∈ knots, 0 ≤ knot.2)
    (some : ∀ before here there after, knots.insertionSort byTime = before ++ here :: there :: after → here.1 < time → time < there.1 →
      0 < here.2 ∨ 0 < there.2) : ∃ value, 0 < value ∧ interpolate (knots.insertionSort byTime) time = Option.some value := by
  have members : ∀ knot, knot ∈ knots.insertionSort byTime ↔ knot ∈ knots := fun _ => List.mem_insertionSort byTime
  have early' : ∃ knot ∈ knots.insertionSort byTime, knot.1 < time := by simpa only [members] using early
  have late' : ∃ knot ∈ knots.insertionSort byTime, time < knot.1 := by simpa only [members] using late
  obtain ⟨before, here, there, after, whole, low, high, value⟩ :=
    interpolate_around (timed_sort knots) (fun knot member => off knot ((members knot).mp member)) early' late'
  have left : here ∈ knots := (members here).mp (by rw [whole]; simp)
  have right : there ∈ knots := (members there).mp (by rw [whole]; simp)
  exact ⟨_, between_pos low high (least here left) (least there right) (some before here there after whole low high), value⟩

def coloured (energy : ℚ × ℚ → ℚ) (run : List Span) : List (ℚ × ℚ) := run.map fun span => (span.middle, energy span.extent)

theorem knots_recoloured (energy : ℚ × ℚ → ℚ) (run : List Span) : (run.map (Span.recoloured energy)).map Span.knot = coloured energy run := by
  rw [List.map_map]
  rfl

-- At a time between two midpoints of the run, the order of the run and the order of time tell different values.
structure Differs (energy : ℚ × ℚ → ℚ) (run : List Span) (time : ℚ) : Prop where
  early : ∃ span ∈ run, span.middle < time
  late : ∃ span ∈ run, time < span.middle
  ordered : ∃ value, 0 < value ∧ interpolate ((coloured energy run).insertionSort byTime) time = some value
  arrived : interpolate (coloured energy run) time = some 0

-- All but the windows of some extents have energy.
def except (extents : List (ℚ × ℚ)) (extent : ℚ × ℚ) : ℚ := if extent ∈ extents then 0 else 1

theorem except_nonneg (extents : List (ℚ × ℚ)) (extent : ℚ × ℚ) : 0 ≤ except extents extent := by
  rw [except]
  split
  · exact le_rfl
  · exact zero_le_one

theorem except_pos {extents : List (ℚ × ℚ)} {extent : ℚ × ℚ} (absent : extent ∉ extents) : 0 < except extents extent := by
  rw [except, if_neg absent]
  exact zero_lt_one

theorem coloured_nonneg {extents : List (ℚ × ℚ)} : ∀ knot ∈ coloured (except extents) run, 0 ≤ knot.2 := by
  intro knot member
  obtain ⟨span, -, rfl⟩ := List.mem_map.mp member
  exact except_nonneg extents span.extent

theorem mem_coloured {energy : ℚ × ℚ → ℚ} {span : Span} (member : span ∈ run) : (span.middle, energy span.extent) ∈ coloured energy run :=
  List.mem_map_of_mem member

-- A knot of another midpoint than the one window without energy has energy.
theorem coloured_pos {lone : Span} {knot : ℚ × ℚ} (member : knot ∈ coloured (except [lone.extent]) run)
    (apart : knot.1 ≠ lone.middle) : 0 < knot.2 := by
  obtain ⟨span, -, rfl⟩ := List.mem_map.mp member
  apply except_pos
  intro same
  exact apart (middle_eq (List.mem_singleton.mp same))

theorem lone_zero (lone : Span) : except [lone.extent] lone.extent = 0 := if_pos (List.mem_singleton_self _)

-- The arc is flat before the first window of a run, though others have their midpoints there.
theorem differs_first {first low : Span} {rest : List Span} (member : low ∈ rest) (less : low.middle < first.middle) :
    ∃ time, Differs (except [first.extent]) (first :: rest) time := by
  obtain ⟨time, above, below, off⟩ := exists_off less (coloured (except [first.extent]) (first :: rest))
  have inner : low ∈ first :: rest := List.mem_cons_of_mem _ member
  have head : first ∈ first :: rest := List.mem_cons_self
  refine ⟨time, ⟨low, inner, above⟩, ⟨first, head, below⟩, ?_, ?_⟩
  · apply sorted_positive off ⟨_, mem_coloured inner, above⟩ ⟨_, mem_coloured head, below⟩ coloured_nonneg
    intro before here there after whole less' _
    have present : here ∈ coloured (except [first.extent]) (first :: rest) := by
      rw [← List.mem_insertionSort byTime, whole]
      simp
    exact .inl (coloured_pos present (less'.trans below).ne)
  · rw [coloured, List.map_cons, interpolate, if_pos below.le, lone_zero]

-- And flat after the last window of a run.
theorem differs_last {last high : Span} {first : Span} {rest : List Span} (ends : (first :: rest).getLast? = some last)
    (member : high ∈ first :: rest)
    (less : last.middle < high.middle) (begins : first.middle ≤ last.middle) : ∃ time, Differs (except [last.extent]) (first :: rest) time := by
  obtain ⟨time, above, below, off⟩ := exists_off less (coloured (except [last.extent]) (first :: rest))
  have tail : last ∈ first :: rest := List.mem_of_getLast? ends
  refine ⟨time, ⟨last, tail, above⟩, ⟨high, member, below⟩, ?_, ?_⟩
  · apply sorted_positive off ⟨_, mem_coloured tail, above⟩ ⟨_, mem_coloured member, below⟩ coloured_nonneg
    intro before here there after whole _ more
    have present : there ∈ coloured (except [last.extent]) (first :: rest) := by
      rw [← List.mem_insertionSort byTime, whole]
      simp
    exact .inr (coloured_pos present (above.trans more).ne')
  · have final : (coloured (except [last.extent]) (first :: rest)).getLast? = some (last.middle, 0) := by
      rw [coloured, List.getLast?_map, ends, Option.map_some, lone_zero]
    have behind : ¬ time ≤ first.middle := not_le.mpr (begins.trans_lt above)
    rw [coloured, List.map_cons] at final ⊢
    rw [List.getLast?_eq_some_getLast (List.cons_ne_nil _ _), Option.some.injEq] at final
    rw [interpolate, if_neg behind, final, if_pos above.le]

-- No window from a descent on has the extent of one before it.
theorem extents_apart {span next other earlier : Span} {before after : List Span} (falls : next.middle < span.middle)
    (order : (before ++ span :: next :: after).Pairwise fun span other => extentOrder span.extent other.extent) (here : earlier ∈ before ++ [span])
    (there : other ∈ next :: after) : other.extent ≠ earlier.extent := by
  intro same
  have whole : before ++ span :: next :: after = (before ++ [span]) ++ next :: after := by simp
  rw [whole] at order
  obtain ⟨front, back, across⟩ := List.pairwise_append.mp order
  have ahead : extentOrder next.extent other.extent := by
    obtain rfl | inner := List.mem_cons.mp there
    · exact .inr ⟨rfl, le_rfl⟩
    · exact (List.pairwise_cons.mp back).1 other inner
  have behind : extentOrder earlier.extent span.extent := by
    obtain inner | final := List.mem_append.mp here
    · exact (List.pairwise_append.mp front).2.2 earlier inner span (List.mem_singleton_self span)
    · rw [List.mem_singleton.mp final]
      exact .inr ⟨rfl, le_rfl⟩
  have first : earlier.extent = next.extent := extentOrder_antisymm (across earlier here next List.mem_cons_self) (same ▸ ahead)
  have second : span.extent = next.extent :=
    extentOrder_antisymm (across span (by simp) next List.mem_cons_self) (first ▸ behind)
  exact absurd (middle_eq second) falls.ne'

-- The last of the knots at one time is the last of them to arrive.
theorem last_arrival {early late before after : List (ℚ × ℚ)} {here there : ℚ × ℚ}
    (whole : (early ++ late).insertionSort byTime = before ++ here :: there :: after) (later : here.1 < there.1)
    (present : ∃ knot ∈ late, knot.1 = here.1) : here ∈ late := by
  have timed := timed_sort (early ++ late)
  have class' : ((early ++ late).filter fun knot => decide (knot.1 = here.1)).Pairwise byTime := by
    apply List.Pairwise.imp_of_mem _ ((List.pairwise_of_forall fun _ _ => trivial : List.Pairwise (fun _ _ => True) _))
    intro knot other member member' _
    have first := of_decide_eq_true (List.mem_filter.mp member).2
    have second := of_decide_eq_true (List.mem_filter.mp member').2
    exact le_of_eq (first.trans second.symm)
  have stable := filter_insertionSort class'
  rw [whole] at timed stable
  have none : (there :: after).filter (fun knot => decide (knot.1 = here.1)) = [] := by
    rw [List.filter_eq_nil_iff]
    intro knot member same
    have back := (List.pairwise_cons.mp (List.pairwise_append.mp timed).2.1).2
    have least : there.1 ≤ knot.1 := by
      obtain rfl | inner := List.mem_cons.mp member
      · exact le_rfl
      · exact (List.pairwise_cons.mp back).1 knot inner
    exact absurd (of_decide_eq_true same) (later.trans_le least).ne'
  have ends := congrArg List.getLast? stable
  obtain ⟨knot, member, same⟩ := present
  have filled : late.filter (fun knot => decide (knot.1 = here.1)) ≠ [] :=
    List.ne_nil_of_mem (List.mem_filter.mpr ⟨member, decide_eq_true same⟩)
  rw [List.filter_append, List.filter_cons, if_pos (decide_eq_true rfl), none, List.getLast?_concat, List.filter_append,
    List.getLast?_append_of_ne_nil _ filled] at ends
  exact (List.mem_filter.mp (List.mem_of_getLast? ends.symm)).1

-- Just after a midpoint there is a time before any other.
theorem exists_next {next span : Span} (falls : next.middle < span.middle) (member : span ∈ run) :
    ∃ time, next.middle < time ∧ time < span.middle ∧ ∀ other ∈ run, other.middle ≤ next.middle ∨ time < other.middle := by
  have some : (run.filter fun other => decide (next.middle < other.middle)).toFinset.Nonempty :=
    ⟨span, List.mem_toFinset.mpr (List.mem_filter.mpr ⟨member, decide_eq_true falls⟩)⟩
  obtain ⟨least, here, below⟩ := Finset.exists_min_image _ Span.middle some
  have above := of_decide_eq_true (List.mem_filter.mp (List.mem_toFinset.mp here)).2
  have reach := below span (List.mem_toFinset.mpr (List.mem_filter.mpr ⟨member, decide_eq_true falls⟩))
  refine ⟨(next.middle + least.middle) / 2, by linarith, by linarith, fun other inner => ?_⟩
  obtain low | high := le_or_gt other.middle next.middle
  · exact .inl low
  · have more := below other (List.mem_toFinset.mpr (List.mem_filter.mpr ⟨inner, decide_eq_true high⟩))
    exact .inr (by linarith)

-- The pair that the walk finds first is not the one around the time.
theorem differs_inside {first last span next : Span} {before after : List Span} (falls : next.middle < span.middle)
    (order : (first :: before ++ span :: next :: after).Pairwise fun span other => extentOrder span.extent other.extent)
    (ends : (first :: before ++ span :: next :: after).getLast? = some last) (least : first.middle ≤ next.middle) (most : span.middle ≤ last.middle) :
    ∃ time, Differs (except ((first :: before ++ [span]).map Span.extent)) (first :: before ++ span :: next :: after) time := by
  have inner : span ∈ first :: before ++ span :: next :: after := by simp
  have follows : next ∈ first :: before ++ span :: next :: after := by simp
  have front : ∀ other ∈ first :: before ++ [span], except ((first :: before ++ [span]).map Span.extent) other.extent = 0 :=
    fun other member =>
    if_pos (List.mem_map_of_mem member)
  have back : ∀ other ∈ next :: after, 0 < except ((first :: before ++ [span]).map Span.extent) other.extent := by
    intro other member
    apply except_pos
    intro present
    obtain ⟨earlier, here, same⟩ := List.mem_map.mp present
    exact extents_apart falls order here member same.symm
  generalize except ((first :: before ++ [span]).map Span.extent) = energy at front back
  obtain ⟨time, above, below, gap⟩ := exists_next falls inner
  have parts : coloured energy (first :: before ++ span :: next :: after) =
      coloured energy (first :: before ++ [span]) ++ coloured energy (next :: after) := by
    rw [coloured, coloured, coloured, ← List.map_append]
    simp
  have off : ∀ knot ∈ coloured energy (first :: before ++ span :: next :: after), knot.1 ≤ next.middle ∨ time < knot.1 := by
    intro knot member
    obtain ⟨other, here, rfl⟩ := List.mem_map.mp member
    exact gap other here
  refine ⟨time, ⟨next, follows, above⟩, ⟨span, inner, below⟩, ?_, ?_⟩
  · apply sorted_positive _ ⟨_, mem_coloured follows, above⟩ ⟨_, mem_coloured inner, below⟩
    · intro knot member
      rw [parts] at member
      obtain here | there := List.mem_append.mp member
      · obtain ⟨other, member', rfl⟩ := List.mem_map.mp here
        exact (front other member').ge
      · obtain ⟨other, member', rfl⟩ := List.mem_map.mp there
        exact (back other member').le
    · intro left here there right whole low high
      have same : here.1 = next.middle := by
        have present : here ∈ coloured energy (first :: before ++ span :: next :: after) := by
          rw [← List.mem_insertionSort byTime, whole]
          simp
        apply le_antisymm ((off here present).resolve_right fun more => absurd low more.not_gt)
        have timed := timed_sort (coloured energy (first :: before ++ span :: next :: after))
        have knot : (next.middle, energy next.extent) ∈ (coloured energy (first :: before ++ span :: next :: after)).insertionSort byTime :=
          (List.mem_insertionSort byTime).mpr (mem_coloured follows)
        rw [whole] at timed knot
        obtain ⟨-, rest, across⟩ := List.pairwise_append.mp timed
        obtain early | late := List.mem_append.mp knot
        · exact across _ early here List.mem_cons_self
        · obtain own | later := List.mem_cons.mp late
          · rw [← own]
          · have most' : there.1 ≤ next.middle := by
              obtain own | deeper := List.mem_cons.mp later
              · rw [← own]
              · exact (List.pairwise_cons.mp (List.pairwise_cons.mp rest).2).1 _ deeper
            exact absurd (high.trans_le most') above.not_gt
      rw [parts] at whole
      have arrived := last_arrival whole (low.trans high) ⟨_, mem_coloured List.mem_cons_self, same.symm⟩
      obtain ⟨other, member, rfl⟩ := List.mem_map.mp arrived
      exact .inl (back other member)
    · intro knot member same
      obtain low | high := off knot member
      · exact absurd above (same ▸ low).not_gt
      · exact absurd high (same ▸ lt_irrefl _)
  · have head : energy first.extent = 0 := front first (by simp)
    have rest : coloured energy (first :: before ++ span :: next :: after) =
        (first.middle, energy first.extent) :: (coloured energy (before ++ [span]) ++ coloured energy (next :: after)) := parts
    have final := congrArg (Option.map fun other => (other.middle, energy other.extent)) ends
    rw [← List.getLast?_map] at final
    change (coloured energy (first :: before ++ span :: next :: after)).getLast? = _ at final
    rw [rest, List.getLast?_eq_some_getLast (List.cons_ne_nil _ _), Option.map_some, Option.some.injEq] at final
    have reach : ¬ last.middle ≤ time := not_le.mpr (below.trans_le most)
    rw [rest, interpolate, final, if_neg (not_le.mpr (least.trans_lt above)), if_neg reach, Option.some.injEq]
    apply walk_zero head _ (least.trans_lt above)
    · exact ⟨_, mem_coloured (by simp : span ∈ before ++ [span]), below.le⟩
    · intro knot member
      obtain ⟨other, here, rfl⟩ := List.mem_map.mp member
      exact front other (List.mem_cons_of_mem _ here)

theorem exists_differs {span next : Span} {before after : List Span} (falls : next.middle < span.middle)
    (order : (before ++ span :: next :: after).Pairwise fun span other => extentOrder span.extent other.extent) :
    ∃ energy time, Differs energy (before ++ span :: next :: after) time := by
  obtain ⟨first, rest, same⟩ := List.exists_cons_of_ne_nil (by simp : before ++ span :: next :: after ≠ [])
  obtain ⟨last, ends⟩ : ∃ last, (first :: rest).getLast? = some last := ⟨_, List.getLast?_eq_some_getLast (List.cons_ne_nil first rest)⟩
  by_cases under : ∃ low ∈ rest, low.middle < first.middle
  · obtain ⟨low, member, less⟩ := under
    rw [same]
    exact ⟨_, differs_first member less⟩
  · push Not at under
    have least : ∀ other ∈ first :: rest, first.middle ≤ other.middle := by
      intro other member
      obtain rfl | inner := List.mem_cons.mp member
      · exact le_rfl
      · exact under other inner
    by_cases over' : ∃ high ∈ first :: rest, last.middle < high.middle
    · obtain ⟨high, member, less⟩ := over'
      rw [same]
      exact ⟨_, differs_last ends member less (least last (List.mem_of_getLast? ends))⟩
    · push Not at over'
      rw [← same] at ends least over'
      cases before with
      | nil =>
        obtain ⟨rfl, -⟩ := List.cons.inj same
        exact absurd (least next (by simp)) falls.not_ge
      | cons other before =>
        obtain ⟨rfl, -⟩ := List.cons.inj same
        exact ⟨_, differs_inside falls order ends (least next (by simp)) (over' span (by simp))⟩

/-! ## Every choice of energies -/

theorem sampleTime_last (time : ℚ) : sampleTime time 63 = time := by
  norm_num [sampleTime, arcPoints]

theorem Right.at {windows : List Window} (right : Right windows) (positive : 0 < time) : RightAt (usable windows) time
    (valueAt (usable windows) time) := by
  have inside : 63 < arcPoints := by decide
  have last := right.samples time positive 63 inside
  rwa [sample_eq positive inside, sampleTime_last] at last

theorem usable_start {windows : List Window} (begun : ∀ window ∈ windows, 0 ≤ window.startSec) {span : Span}
    (member : span ∈ usable windows) :
    0 ≤ span.startSec := by
  rw [usable, List.mem_insertionSort, List.mem_filterMap] at member
  obtain ⟨window, here, found⟩ := member
  obtain ⟨energy, -, read⟩ := Option.bind_eq_some_iff.mp found
  split at read
  next =>
    obtain rfl := Option.some.inj read
    exact begun window here
  next => cases read

theorem middle_above (span : Span) : span.startSec < span.middle ∧ span.middle < span.endSec := by
  have wide := span.wide
  rw [Span.middle]
  constructor
  · linarith
  · linarith

-- Where a run is out of order, the two ways to read its knots cannot both be right.
theorem wrong_of_differs {windows : List Window} {energy : ℚ × ℚ → ℚ} (begun : ∀ window ∈ windows, 0 ≤ window.startSec)
    (member : run ∈ runs (usable windows))
    (ends : EndsLast (usable windows)) (differs : Differs energy run time) : ¬ Right (recoloured energy windows) := by
  intro right
  have ends' : EndsLast (usable (recoloured energy windows)) := by
    rw [usable_recoloured]
    exact ends.transfer (recoloured_extents energy _)
  have starts := usable_starts (recoloured energy windows)
  have here : run.map (Span.recoloured energy) ∈ runs (usable (recoloured energy windows)) := by
    rw [usable_recoloured, runs_recoloured]
    exact List.mem_map_of_mem member
  obtain ⟨front, back, piece⟩ := piece_of_mem here
  obtain ⟨first, last, head, final⟩ := piece.ends
  obtain ⟨low, below, early⟩ := differs.early
  obtain ⟨high, above, late⟩ := differs.late
  have held : holds time (run.map (Span.recoloured energy)) = true := by
    refine holds_iff.mpr ⟨first, last, head, final, ?_, ?_⟩
    · have begins := piece.begins starts head _ (List.mem_map_of_mem below)
      exact (begins.trans (middle_above low).1.le).trans early.le
    · have reached := piece.reached ends' final _ (List.mem_append_right _ (List.mem_map_of_mem above))
      exact (late.le.trans (middle_above high).2.le).trans reached
  have positive : 0 < time := by
    have inner : low ∈ usable windows := by
      rw [← runs_flatten (usable windows)]
      exact List.mem_flatten_of_mem member below
    exact ((usable_start begun inner).trans_lt (middle_above low).1).trans early
  obtain ⟨value, found⟩ := valueAt_covers ends' starts (piece.covered held)
  have read := valueAt_held ends' starts found
  have sorted := (right.at positive).interpolated value found
  rw [piece.runAt_eq ends' starts held] at read sorted
  rw [knotsOf, knots_recoloured] at sorted
  rw [knots_recoloured, differs.arrived, Option.some.injEq] at read
  obtain ⟨other, more, ordered⟩ := differs.ordered
  rw [sorted, Option.some.injEq] at ordered
  exact absurd (read.trans ordered) more.ne

theorem nested_shows {windows : List Window} (begun : ∀ window ∈ windows, 0 ≤ window.startSec) (nested : ¬ Unnested (usable windows)) :
    ∃ rivals, layout rivals = layout windows ∧ ¬ Right rivals := by
  by_cases ends : EndsLast (usable windows)
  · have falls : ¬ MiddlesRise (usable windows) := fun middles => nested ⟨ends, middles⟩
    obtain ⟨run, member, before, span, next, after, rfl, less⟩ := exists_descent falls
    obtain ⟨front, back, piece⟩ := piece_of_mem member
    have order := usable_sorted windows
    rw [piece.whole] at order
    have inner := (List.pairwise_append.mp (List.pairwise_append.mp order).2.1).1
    obtain ⟨energy, time, differs⟩ := exists_differs less (inner.imp tupleOrder.extents)
    exact ⟨recoloured energy windows, layout_recoloured energy windows, wrong_of_differs begun member ends differs⟩
  · refine ⟨windows, rfl, fun right => ends ?_⟩
    intro before last after whole gap earlier member
    by_contra longer
    obtain ⟨time, past, covered, none⟩ := passed_over (usable_starts windows) whole gap member (not_le.mp longer)
    have inner : last ∈ usable windows := by
      rw [whole]
      simp
    have positive : 0 < time := ((usable_start begun inner).trans_lt last.wide).trans past
    have found := (right.at positive).covered.mpr covered
    rw [none] at found
    cases found

-- Where no window is passed over the arc is right, and elsewhere some energies on the same spans are not.
theorem arc_is_right_unnested (windows : List Window) :
    (Unnested (usable windows) → Right windows) ∧
      ((∀ window ∈ windows, 0 ≤ window.startSec) →
        ((∀ rivals, layout rivals = layout windows → Right rivals) ↔ Unnested (usable windows))) ∧
      ∀ peak, profilePeak windows = some peak → Covered (usable (ofTier "coarse" windows)) peak := by
  refine ⟨right_of_unnested, fun begun => ⟨fun all => ?_, fun unnested rivals same => ?_⟩, fun peak => peak_covered⟩
  · by_contra nested
    obtain ⟨rivals, same, wrong⟩ := nested_shows begun nested
    exact wrong (all rivals same)
  · exact right_of_unnested (unnested.transfer (layout_extents same))

def measured (first last energy : ℚ) : Window :=
  { tier := "coarse", windowIndex := 0, startSec := first, endSec := last, musicalKey := none, energy := some energy }

theorem measured_span {first last energy : ℚ} (wide : first < last) :
    (measured first last energy).span = some ⟨first, last, energy, wide⟩ := dif_pos wide

def adjoining : List Window := [measured 30 60 (1 / 4), measured 0 30 (1 / 2)]

theorem usable_adjoining : usable adjoining = [⟨0, 30, 1 / 2, by norm_num⟩, ⟨30, 60, 1 / 4, by norm_num⟩] := by
  rw [usable, adjoining, List.filterMap_cons_some (measured_span (by norm_num)), List.filterMap_cons_some (measured_span (by norm_num))]
  norm_num [tupleOrder]

theorem adjoining_is_right : Right adjoining := by
  apply (arc_is_right_unnested adjoining).1
  rw [usable_adjoining]
  constructor
  · intro before last after whole gap earlier member
    rcases before with _ | ⟨first, _ | ⟨second, rest⟩⟩
    · cases member
    · obtain ⟨rfl, rfl, -⟩ : _ = first ∧ _ = last ∧ _ := by simpa using whole
      rw [List.mem_singleton.mp member]
      norm_num
    · simp at whole
  · intro before span next after whole close
    rcases before with _ | ⟨first, rest⟩
    · obtain ⟨rfl, rfl, -⟩ : _ = span ∧ _ = next ∧ _ := by simpa using whole
      norm_num [Span.middle]
    · have long := congrArg List.length whole
      simp only [List.length_append, List.length_cons, List.length_nil] at long
      omega

def nestedWindows : List Window := [measured 0 300 (1 / 2), measured 10 20 (1 / 4)]

theorem usable_nested : usable nestedWindows = [⟨0, 300, 1 / 2, by norm_num⟩, ⟨10, 20, 1 / 4, by norm_num⟩] := by
  rw [usable, nestedWindows, List.filterMap_cons_some (measured_span (by norm_num)), List.filterMap_cons_some (measured_span (by norm_num))]
  norm_num [tupleOrder]

-- A window inside another ends their run at its own end.
theorem nested_is_wrong : ¬ Right nestedWindows := by
  intro right
  have starts := usable_starts nestedWindows
  have parts : usable nestedWindows = [⟨0, 300, 1 / 2, by norm_num⟩] ++ ⟨10, 20, 1 / 4, by norm_num⟩ :: [] := usable_nested
  obtain ⟨time, past, covered, none⟩ := passed_over starts parts (by simp) (List.mem_singleton_self _) (by norm_num)
  have positive : 0 < time := lt_trans (by norm_num) past
  have found := (right.at positive).covered.mpr covered
  rw [none] at found
  cases found

end Phaze.Projection
