import Phaze.Projection.Arc

set_option autoImplicit false

/-!
# Coverage of the arc

Which times the measured windows cover, what a sample there must be, and how the runs of `_resample_energy_arc` relate
to both.
-/

namespace Phaze.Projection

open Phaze.Polyline

-- Inside a measured window, or in a hole between two that the tolerance allows.
def Covered (spans : List Span) (time : ℚ) : Prop :=
  (∃ span ∈ spans, span.startSec ≤ time ∧ time ≤ span.endSec) ∨
    ∃ span ∈ spans, ∃ next ∈ spans, span.endSec ≤ time ∧ time ≤ next.startSec ∧ next.startSec - span.endSec ≤ gapToleranceSec

-- No uncovered time parts the window from the time.
def Contiguous (spans : List Span) (time : ℚ) (span : Span) : Prop :=
  ∀ other, min time span.startSec ≤ other → other ≤ max time span.startSec → Covered spans other

open Classical in
noncomputable def runAt (spans : List Span) (time : ℚ) : List Span := spans.filter fun span => decide (Contiguous spans time span)

def byTime (knot other : ℚ × ℚ) : Prop := knot.1 ≤ other.1

instance : DecidableRel byTime := fun knot other => inferInstanceAs (Decidable (knot.1 ≤ other.1))

-- The midpoints of a run in order of time.
def knotsOf (run : List Span) : List (ℚ × ℚ) := (run.map Span.knot).insertionSort byTime

structure RightAt (spans : List Span) (time : ℚ) (value : Option ℚ) : Prop where
  covered : value.isSome = true ↔ Covered spans time
  least : ∀ found, value = some found → ∃ low ∈ runAt spans time, low.energy ≤ found
  most : ∀ found, value = some found → ∃ high ∈ runAt spans time, found ≤ high.energy
  interpolated : ∀ found, value = some found → interpolate (knotsOf (runAt spans time)) time = some found

structure Right (windows : List Window) : Prop where
  samples : ∀ total, 0 < total → ∀ place < arcPoints, RightAt (usable windows) (sampleTime total place) (sample windows total place)
  peak : ∀ total peak, peakSec (resampleEnergyArc windows total) total = some peak → Covered (usable windows) peak

/-! ## Pieces -/

variable {spans run front back : List Span} {time : ℚ}

def Starts (spans : List Span) : Prop := spans.Pairwise fun span other => span.startSec ≤ other.startSec

-- A run in its place.
structure Piece (spans front run back : List Span) : Prop where
  whole : spans = front ++ (run ++ back)
  chain : run.IsChain fun span next => near span next
  filled : run ≠ []
  before : ∀ last ∈ front.getLast?, ∀ first ∈ run.head?, gapToleranceSec < first.startSec - last.endSec
  after : ∀ last ∈ run.getLast?, ∀ next ∈ back.head?, gapToleranceSec < next.startSec - last.endSec

theorem far_of_near {span next : Span} (far : near span next = false) : gapToleranceSec < next.startSec - span.endSec :=
  not_le.mp (of_decide_eq_false far)

theorem runs_flatten (spans : List Span) : (runs spans).flatten = spans := List.flatten_splitBy near spans

theorem run_filled (member : run ∈ runs spans) : run ≠ [] := List.ne_nil_of_mem_splitBy member

theorem getLast_flatten {pieces : List (List Span)} (filled : ∀ piece ∈ pieces, piece ≠ []) {last : Span}
    (found : pieces.flatten.getLast? = some last) :
    ∃ piece, pieces.getLast? = some piece ∧ piece.getLast? = some last := by
  obtain rfl | ⟨before, piece, rfl⟩ := pieces.eq_nil_or_concat'
  · cases found
  · refine ⟨piece, List.getLast?_concat, ?_⟩
    rw [List.flatten_append, List.flatten_singleton, List.getLast?_append_of_ne_nil _ (filled piece (by simp))] at found
    exact found

theorem head_flatten {pieces : List (List Span)} (filled : ∀ piece ∈ pieces, piece ≠ []) {first : Span}
    (found : pieces.flatten.head? = some first) :
    ∃ piece, pieces.head? = some piece ∧ piece.head? = some first := by
  cases pieces with
  | nil => cases found
  | cons piece after =>
    refine ⟨piece, rfl, ?_⟩
    rw [List.flatten_cons, List.head?_append_of_ne_nil _ (filled piece List.mem_cons_self)] at found
    exact found

theorem piece_of_mem (member : run ∈ runs spans) : ∃ front back, Piece spans front run back := by
  obtain ⟨before, after, same⟩ := List.append_of_mem member
  have parted := List.isChain_getLast_head_splitBy near spans
  have filled : ∀ piece ∈ before ++ run :: after, piece ≠ [] := fun piece inner => run_filled (same ▸ inner)
  rw [← runs, same] at parted
  obtain ⟨-, chain, join⟩ := List.isChain_append.mp parted
  refine ⟨before.flatten, after.flatten, ?_, List.isChain_of_mem_splitBy member, run_filled member, ?_, ?_⟩
  · rw [← runs_flatten spans, same, List.flatten_append, List.flatten_cons]
  · intro last at' first at''
    obtain ⟨piece, here, there⟩ := getLast_flatten (fun piece inner => filled piece (List.mem_append_left _ inner)) at'
    obtain ⟨filled', next, far⟩ := join piece here run rfl
    rw [List.getLast?_eq_some_getLast filled', Option.some.injEq] at there
    rw [Option.mem_def, List.head?_eq_some_head next, Option.some.injEq] at at''
    rw [there, at''] at far
    exact far_of_near far
  · intro last at' next at''
    obtain ⟨piece, here, there⟩ := head_flatten (fun piece inner => filled piece (by simp [inner])) at''
    obtain ⟨rest, rfl⟩ := List.head?_eq_some_iff.mp here
    obtain ⟨filled', other, far⟩ := (List.isChain_cons_cons.mp chain).1
    rw [Option.mem_def, List.getLast?_eq_some_getLast filled', Option.some.injEq] at at'
    rw [List.head?_eq_some_head other, Option.some.injEq] at there
    rw [at', there] at far
    exact far_of_near far

theorem exists_piece {span : Span} (member : span ∈ spans) : ∃ front run back, Piece spans front run back ∧ run ∈ runs spans ∧
    span ∈ run := by
  rw [← runs_flatten spans] at member
  obtain ⟨run, here, inner⟩ := List.mem_flatten.mp member
  obtain ⟨front, back, piece⟩ := piece_of_mem here
  exact ⟨front, run, back, piece, here, inner⟩

theorem holds_iff : holds time run = true ↔ ∃ first last, run.head? = some first ∧ run.getLast? = some last ∧ first.startSec ≤ time ∧
    time ≤ last.endSec := by
  rw [holds, Bool.and_eq_true, Option.any_eq_true, Option.any_eq_true]
  constructor
  · rintro ⟨⟨first, head, early⟩, last, end', late⟩
    exact ⟨first, last, head, end', of_decide_eq_true early, of_decide_eq_true late⟩
  · rintro ⟨first, last, head, end', early, late⟩
    exact ⟨⟨first, head, decide_eq_true early⟩, last, end', decide_eq_true late⟩

theorem Covered.mono {chosen : List Span} (covered : Covered chosen time) (part : chosen ⊆ spans) : Covered spans time := by
  obtain ⟨span, member, within⟩ | ⟨span, here, next, there, within⟩ := covered
  · exact .inl ⟨span, part member, within⟩
  · exact .inr ⟨span, part here, next, part there, within⟩

-- From the first start to the last end of near neighbours, every time is covered.
theorem chain_covered {first last : Span} {rest : List Span} (chain : (first :: rest).IsChain fun span next => near span next)
    (ends : (first :: rest).getLast? = some last) (early : first.startSec ≤ time) (late : time ≤ last.endSec) :
    Covered (first :: rest) time := by
  induction rest generalizing first with
  | nil =>
    obtain rfl := Option.some.inj ends
    exact .inl ⟨first, List.mem_cons_self, early, late⟩
  | cons next rest ih =>
    obtain ⟨close, later⟩ := List.isChain_cons_cons.mp chain
    by_cases here : time ≤ first.endSec
    · exact .inl ⟨first, List.mem_cons_self, early, here⟩
    · by_cases hole : time ≤ next.startSec
      · exact .inr ⟨first, List.mem_cons_self, next, by simp, (not_le.mp here).le, hole, of_decide_eq_true close⟩
      · rw [List.getLast?_cons_cons] at ends
        exact (ih later ends (not_le.mp hole).le).mono (List.subset_cons_self _ _)

theorem Piece.covered (piece : Piece spans front run back) (held : holds time run = true) : Covered spans time := by
  obtain ⟨first, last, head, ends, early, late⟩ := holds_iff.mp held
  obtain ⟨rest, rfl⟩ := List.head?_eq_some_iff.mp head
  apply (chain_covered piece.chain ends early late).mono
  intro span member
  rw [piece.whole]
  exact List.mem_append_right _ (List.mem_append_left _ member)

theorem valueAt_covered {value : ℚ} (found : valueAt spans time = some value) : Covered spans time := by
  obtain ⟨run, first, -⟩ := Option.bind_eq_some_iff.mp found
  obtain ⟨front, back, piece⟩ := piece_of_mem (List.mem_of_find?_eq_some first)
  exact piece.covered (List.find?_some first)

/-! ## Spans in order -/

-- Where a run ends, no window before goes on.
def EndsLast (spans : List Span) : Prop :=
  ∀ before last after, spans = before ++ last :: after → (∀ next ∈ after.head?, gapToleranceSec < next.startSec - last.endSec) →
    ∀ earlier ∈ before, earlier.endSec ≤ last.endSec

-- Where a run goes on, so do the midpoints.
def MiddlesRise (spans : List Span) : Prop :=
  ∀ before span next after, spans = before ++ span :: next :: after → next.startSec - span.endSec ≤ gapToleranceSec →
    span.middle ≤ next.middle

structure Unnested (spans : List Span) : Prop where
  ends : EndsLast spans
  middles : MiddlesRise spans

variable {early late : List Span}

theorem boundary_far (ends : EndsLast spans) (starts : Starts spans) (same : spans = early ++ late)
    (far : ∀ last ∈ early.getLast?, ∀ next ∈ late.head?, gapToleranceSec < next.startSec - last.endSec) :
    ∀ span ∈ early, ∀ next ∈ late, gapToleranceSec < next.startSec - span.endSec := by
  intro span here next there
  obtain rfl | ⟨before, last, rfl⟩ := early.eq_nil_or_concat'
  · exact absurd here List.not_mem_nil
  · obtain ⟨head, rest, rfl⟩ := List.exists_cons_of_ne_nil (List.ne_nil_of_mem there)
    have gap := far last (by simp) head (by simp)
    have place : spans = before ++ last :: head :: rest := by simpa using same
    have reached : span.endSec ≤ last.endSec := by
      obtain inner | final := List.mem_append.mp here
      · exact ends before last (head :: rest) place (by simpa using gap) span inner
      · rw [List.mem_singleton.mp final]
    have begins : head.startSec ≤ next.startSec := by
      obtain rfl | inner := List.mem_cons.mp there
      · exact le_rfl
      · rw [same] at starts
        exact (List.pairwise_cons.mp (List.pairwise_append.mp starts).2.1).1 next inner
    linarith

theorem gap_uncovered (same : spans = early ++ late) (far : ∀ span ∈ early, ∀ next ∈ late, gapToleranceSec < next.startSec - span.endSec)
    (passed : ∀ span ∈ early, span.endSec < time) (ahead : ∀ next ∈ late, time < next.startSec) : ¬ Covered spans time := by
  have before : ∀ span ∈ spans, span.startSec ≤ time → span ∈ early := by
    intro span member begun
    rw [same] at member
    exact (List.mem_append.mp member).resolve_right fun inner => not_lt.mpr begun (ahead span inner)
  rintro (⟨span, member, begun, open'⟩ | ⟨span, here, next, there, ended, begins, close⟩)
  · exact not_lt.mpr open' (passed span (before span member begun))
  · have first := before span here (span.wide.le.trans ended)
    have second : next ∈ late := by
      rw [same] at there
      refine (List.mem_append.mp there).resolve_left fun inner => ?_
      exact not_lt.mpr begins (next.wide.trans (passed next inner))
    exact not_lt.mpr close (far span first next second)

-- Between two sides that are far apart there is a time that nothing covers.
theorem boundary_hole (ends : EndsLast spans) (starts : Starts spans) (same : spans = early ++ late)
    (far : ∀ last ∈ early.getLast?, ∀ next ∈ late.head?, gapToleranceSec < next.startSec - last.endSec) (some : early ≠ []) (more : late ≠ []) :
    ∃ hole, (∀ span ∈ early, span.endSec < hole) ∧ (∀ next ∈ late, hole < next.startSec) ∧ ¬ Covered spans hole := by
  have apart := boundary_far ends starts same far
  have tolerance : (0 : ℚ) < gapToleranceSec := by norm_num [gapToleranceSec]
  have left : early.toFinset.Nonempty := List.toFinset_nonempty_iff _ |>.mpr some
  have right : late.toFinset.Nonempty := List.toFinset_nonempty_iff _ |>.mpr more
  obtain ⟨last, here, most⟩ := Finset.exists_max_image early.toFinset Span.endSec left
  obtain ⟨first, there, least⟩ := Finset.exists_min_image late.toFinset Span.startSec right
  rw [List.mem_toFinset] at here there
  have gap := apart last here first there
  have passed : ∀ span ∈ early, span.endSec < (last.endSec + first.startSec) / 2 := by
    intro span member
    have below := most span (List.mem_toFinset.mpr member)
    linarith
  have ahead : ∀ next ∈ late, (last.endSec + first.startSec) / 2 < next.startSec := by
    intro next member
    have above := least next (List.mem_toFinset.mpr member)
    linarith
  exact ⟨_, passed, ahead, gap_uncovered same apart passed ahead⟩

theorem Piece.reached (piece : Piece spans front run back) (ends : EndsLast spans) {last : Span} (final : run.getLast? = some last) :
    ∀ span ∈ front ++ run, span.endSec ≤ last.endSec := by
  obtain ⟨before, rfl⟩ := List.getLast?_eq_some_iff.mp final
  have place : spans = (front ++ before) ++ last :: back := by rw [piece.whole]; simp
  intro span member
  rw [← List.append_assoc] at member
  obtain inner | same := List.mem_append.mp member
  · exact ends _ last back place (piece.after last final) span inner
  · rw [List.mem_singleton.mp same]

theorem Piece.begins (piece : Piece spans front run back) (starts : Starts spans) {first : Span} (head : run.head? = some first) :
    ∀ span ∈ run, first.startSec ≤ span.startSec := by
  obtain ⟨rest, rfl⟩ := List.head?_eq_some_iff.mp head
  rw [piece.whole] at starts
  have inner := (List.pairwise_append.mp (List.pairwise_append.mp starts).2.1).1
  intro span member
  obtain rfl | later := List.mem_cons.mp member
  · exact le_rfl
  · exact (List.pairwise_cons.mp inner).1 span later

theorem Piece.ends (piece : Piece spans front run back) : ∃ first last, run.head? = some first ∧ run.getLast? = some last :=
  ⟨_, _, List.head?_eq_some_head piece.filled, List.getLast?_eq_some_getLast piece.filled⟩

theorem Piece.after_front (piece : Piece spans front run back) :
    ∀ last ∈ (front ++ run).getLast?, ∀ next ∈ back.head?, gapToleranceSec < next.startSec - last.endSec := by
  rw [List.getLast?_append_of_ne_nil _ piece.filled]
  exact piece.after

theorem Piece.before_back (piece : Piece spans front run back) :
    ∀ last ∈ front.getLast?, ∀ next ∈ (run ++ back).head?, gapToleranceSec < next.startSec - last.endSec := by
  rw [List.head?_append_of_ne_nil _ piece.filled]
  exact piece.before

theorem Piece.back_far (piece : Piece spans front run back) (ends : EndsLast spans) (starts : Starts spans) :
    ∀ span ∈ front ++ run, ∀ next ∈ back, gapToleranceSec < next.startSec - span.endSec :=
  boundary_far ends starts (by rw [piece.whole, List.append_assoc]) piece.after_front

-- A covered time is within the bounds of a run.
theorem covered_held (ends : EndsLast spans) (starts : Starts spans) (covered : Covered spans time) :
    ∃ run ∈ runs spans, holds time run = true := by
  obtain ⟨span, member, begun, open'⟩ | ⟨span, member, next, there, ended, begins, close⟩ := covered
  · obtain ⟨front, run, back, piece, here, inner⟩ := exists_piece member
    obtain ⟨first, last, head, final⟩ := piece.ends
    refine ⟨run, here, holds_iff.mpr ⟨first, last, head, final, ?_, ?_⟩⟩
    · exact (piece.begins starts head span inner).trans begun
    · exact open'.trans (piece.reached ends final span (List.mem_append_right _ inner))
  · obtain ⟨front, run, back, piece, here, inner⟩ := exists_piece member
    obtain ⟨first, last, head, final⟩ := piece.ends
    have order := starts
    rw [piece.whole] at order there
    obtain before | after := List.mem_append.mp there
    · have early := (List.pairwise_append.mp order).2.2 next before span (List.mem_append_left _ inner)
      have wide := span.wide
      linarith
    · obtain same | later := List.mem_append.mp after
      · refine ⟨run, here, holds_iff.mpr ⟨first, last, head, final, ?_, ?_⟩⟩
        · exact ((piece.begins starts head span inner).trans span.wide.le).trans ended
        · exact (begins.trans next.wide.le).trans (piece.reached ends final next (List.mem_append_right _ same))
      · exact absurd (piece.back_far ends starts span (List.mem_append_right _ inner) next later) (not_lt.mpr close)

-- The windows that no uncovered time parts from a time of the run are those of the run.
theorem Piece.runAt_eq (piece : Piece spans front run back) (ends : EndsLast spans) (starts : Starts spans) (held : holds time run = true) :
    runAt spans time = run := by
  obtain ⟨first, last, head, final, begun, open'⟩ := holds_iff.mp held
  have own : ∀ span ∈ run, Contiguous spans time span := by
    intro span member other least most
    apply piece.covered
    have low := piece.begins starts head span member
    have high := span.wide.le.trans (piece.reached ends final span (List.mem_append_right _ member))
    exact holds_iff.mpr ⟨first, last, head, final, (le_min begun low).trans least, most.trans (max_le open' high)⟩
  have later : ∀ span ∈ back, ¬ Contiguous spans time span := by
    intro span member contiguous
    have place : spans = (front ++ run) ++ back := by rw [piece.whole, List.append_assoc]
    obtain ⟨hole, passed, ahead, uncovered⟩ := boundary_hole ends starts place piece.after_front (by simp [piece.filled]) (List.ne_nil_of_mem member)
    have above := passed last (List.mem_append_right _ (List.mem_of_getLast? final))
    have below := ahead span member
    exact uncovered (contiguous hole ((min_le_left _ _).trans (open'.trans above.le)) (below.le.trans (le_max_right _ _)))
  have earlier : ∀ span ∈ front, ¬ Contiguous spans time span := by
    intro span member contiguous
    obtain ⟨hole, passed, ahead, uncovered⟩ := boundary_hole ends starts piece.whole piece.before_back (List.ne_nil_of_mem member) (by simp [piece.filled])
    have above := span.wide.trans (passed span member)
    have below := ahead first (List.mem_append_left _ (List.mem_of_head? head))
    exact uncovered (contiguous hole ((min_le_right _ _).trans above.le) ((below.le.trans begun).trans (le_max_left _ _)))
  rw [runAt]
  refine (congrArg (List.filter _) piece.whole).trans ?_
  rw [List.filter_append, List.filter_append, List.filter_eq_nil_iff.mpr, List.filter_eq_self.mpr, List.filter_eq_nil_iff.mpr, List.nil_append,
    List.append_nil]
  · exact fun span member => by simpa using later span member
  · exact fun span member => by simpa using own span member
  · exact fun span member => by simpa using earlier span member

/-! ## Right samples -/

theorem valueAt_held (ends : EndsLast spans) (starts : Starts spans) {value : ℚ} (found : valueAt spans time = some value) :
    interpolate ((runAt spans time).map Span.knot) time = some value := by
  obtain ⟨run, first, read⟩ := Option.bind_eq_some_iff.mp found
  obtain ⟨front, back, piece⟩ := piece_of_mem (List.mem_of_find?_eq_some first)
  rwa [piece.runAt_eq ends starts (List.find?_some first)]

theorem valueAt_covers (ends : EndsLast spans) (starts : Starts spans) (covered : Covered spans time) :
    ∃ value, valueAt spans time = some value := by
  obtain ⟨run, member, held⟩ := covered_held ends starts covered
  obtain ⟨first, found⟩ : ∃ first, (runs spans).find? (holds time) = some first := by
    rw [← Option.isSome_iff_exists, List.find?_isSome]
    exact ⟨run, member, held⟩
  have filled : first.map Span.knot ≠ [] := by simpa using run_filled (List.mem_of_find?_eq_some found)
  obtain ⟨value, read⟩ := interpolate_some filled time
  exact ⟨value, by rw [valueAt, found, Option.bind_some]; exact read⟩

theorem Piece.middles_rise (piece : Piece spans front run back) (middles : MiddlesRise spans) :
    run.Pairwise fun span other => span.middle ≤ other.middle := by
  have transitive : IsTrans Span fun span other => span.middle ≤ other.middle := ⟨fun _ _ _ => le_trans⟩
  rw [← List.isChain_iff_pairwise]
  apply (List.isChain_isInfix run).imp
  intro span next part
  have pair := List.IsChain.infix piece.chain part
  have close := (List.isChain_cons_cons.mp pair).1
  obtain ⟨before, after, same⟩ := part
  apply middles (front ++ before) span next (after ++ back) _ (of_decide_eq_true close)
  rw [piece.whole, ← same]
  simp

theorem knotsOf_rising (rise : run.Pairwise fun span other => span.middle ≤ other.middle) : knotsOf run = run.map Span.knot := by
  apply List.Pairwise.insertionSort_eq
  rw [List.pairwise_map]
  exact rise

theorem valueAt_right (unnested : Unnested spans) (starts : Starts spans) (time : ℚ) : RightAt spans time (valueAt spans time) := by
  have read : ∀ found, valueAt spans time = some found → interpolate ((runAt spans time).map Span.knot) time = some found :=
    fun found => valueAt_held unnested.ends starts
  constructor
  · rw [Option.isSome_iff_exists]
    constructor
    · rintro ⟨value, found⟩
      exact valueAt_covered found
    · exact valueAt_covers unnested.ends starts
  · intro found value
    obtain ⟨⟨knot, member, less⟩, -⟩ := interpolate_within (read found value)
    obtain ⟨span, here, rfl⟩ := List.mem_map.mp member
    exact ⟨span, here, less⟩
  · intro found value
    obtain ⟨-, knot, member, more⟩ := interpolate_within (read found value)
    obtain ⟨span, here, rfl⟩ := List.mem_map.mp member
    exact ⟨span, here, more⟩
  · intro found value
    obtain ⟨run, first, -⟩ := Option.bind_eq_some_iff.mp value
    obtain ⟨front, back, piece⟩ := piece_of_mem (List.mem_of_find?_eq_some first)
    have same := piece.runAt_eq unnested.ends starts (List.find?_some first)
    have inner := read found value
    rw [same] at inner ⊢
    rwa [knotsOf_rising (piece.middles_rise unnested.middles)]

theorem usable_sorted (windows : List Window) : (usable windows).Pairwise tupleOrder := by
  have total : Std.Total tupleOrder := by
    constructor
    intro span other
    obtain less | same | more := lt_trichotomy span.startSec other.startSec
    · exact .inl (.inl less)
    · obtain less | same' | more := lt_trichotomy span.endSec other.endSec
      · exact .inl (.inr ⟨same, .inl less⟩)
      · obtain low | high := le_total span.energy other.energy
        · exact .inl (.inr ⟨same, .inr ⟨same', low⟩⟩)
        · exact .inr (.inr ⟨same.symm, .inr ⟨same'.symm, high⟩⟩)
      · exact .inr (.inr ⟨same.symm, .inl more⟩)
    · exact .inr (.inl more)
  have transitive : IsTrans Span tupleOrder := by
    constructor
    rintro span other third (less | ⟨same, less | ⟨same', low⟩⟩) (next | ⟨alike, next | ⟨alike', high⟩⟩)
    · exact .inl (less.trans next)
    · exact .inl (less.trans_eq alike)
    · exact .inl (less.trans_eq alike)
    · exact .inl (same.trans_lt next)
    · exact .inr ⟨same.trans alike, .inl (less.trans next)⟩
    · exact .inr ⟨same.trans alike, .inl (less.trans_eq alike')⟩
    · exact .inl (same.trans_lt next)
    · exact .inr ⟨same.trans alike, .inl (same'.trans_lt next)⟩
    · exact .inr ⟨same.trans alike, .inr ⟨same'.trans alike', low.trans high⟩⟩
  exact List.pairwise_insertionSort tupleOrder _

theorem tupleOrder.starts {span other : Span} (order : tupleOrder span other) : span.startSec ≤ other.startSec := by
  obtain less | ⟨same, -⟩ := order
  · exact less.le
  · exact same.le

theorem usable_starts (windows : List Window) : Starts (usable windows) := (usable_sorted windows).imp tupleOrder.starts

theorem peak_covered {windows : List Window} {total peak : ℚ} (found : peakSec (resampleEnergyArc windows total) total = some peak) :
    Covered (usable windows) peak := by
  obtain ⟨place, value, -, read⟩ := peakSec_sampled found
  exact valueAt_covered read

theorem right_of_unnested {windows : List Window} (unnested : Unnested (usable windows)) : Right windows := by
  constructor
  · intro total positive place inside
    rw [sample_eq positive inside]
    exact valueAt_right unnested (usable_starts windows) _
  · intro total peak found
    exact peak_covered found

end Phaze.Projection
