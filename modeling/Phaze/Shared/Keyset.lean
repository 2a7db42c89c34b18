import Mathlib

set_option autoImplicit false

/-!
# Keyset walks

A loop that reads the least row behind a cursor, one row a time, and moves the cursor to it.
Where the key tells the rows apart, it comes past every row.
-/

namespace Phaze.Keyset

section Walk

variable {Row Key State Result : Type} [LinearOrder Key] (key : Row → Key)

-- `ORDER BY key LIMIT 1`
def least : List Row → Option Row
  | [] => none
  | row :: rest =>
      match least rest with
      | none => some row
      | some other => if key other < key row then some other else some row

-- `WHERE key > after`
def behind (rows : List Row) : Option Key → List Row
  | none => rows
  | some after => rows.filter fun row => after < key row

def nextRow (rows : List Row) (after : Option Key) : Option Row :=
  least key (behind key rows after)

-- `WHERE key > after ORDER BY key LIMIT limit`
def page (rows : List Row) : Nat → Option Key → List Row
  | 0, _ => []
  | limit + 1, after =>
      match nextRow key rows after with
      | none => []
      | some row => row :: page rows limit (some (key row))

inductive Visit (State Result : Type) where
  | goOn (state : State)
  | stop (result : Result)

def walkFrom (visit : State → Row → Visit State Result) (rows : List Row) :
    Nat → Option Key → State → Visit State Result
  | 0, _, state => .goOn state
  | fuel + 1, after, state =>
      match nextRow key rows after with
      | none => .goOn state
      | some row =>
          match visit state row with
          | .stop result => .stop result
          | .goOn next => walkFrom visit rows fuel (some (key row)) next

-- A walk takes at most one turn a row, and one that finds no row.
def walk (visit : State → Row → Visit State Result) (rows : List Row) (state : State) : Visit State Result :=
  walkFrom key visit rows (rows.length + 1) none state

variable {key}

theorem least_eq_none {rows : List Row} : least key rows = none ↔ rows = [] := by
  cases rows with
  | nil => simp [least]
  | cons row rest =>
    simp only [least, reduceCtorEq, iff_false]
    split
    · simp
    · split <;> simp

theorem least_spec {rows : List Row} {row : Row} (found : least key rows = some row) :
    row ∈ rows ∧ ∀ other ∈ rows, key row ≤ key other := by
  induction rows generalizing row with
  | nil => cases found
  | cons head rest ih =>
    unfold least at found
    split at found
    next empty =>
      cases found
      rw [least_eq_none.mp empty]
      simp
    next best reads =>
      obtain ⟨member, lower⟩ := ih reads
      split at found
      next smaller =>
        cases found
        refine ⟨List.mem_cons_of_mem _ member, fun other there => ?_⟩
        rcases List.mem_cons.mp there with rfl | there
        · exact smaller.le
        · exact lower other there
      next larger =>
        cases found
        refine ⟨List.mem_cons_self, fun other there => ?_⟩
        rcases List.mem_cons.mp there with rfl | there
        · exact le_rfl
        · exact (not_lt.mp larger).trans (lower other there)

theorem mem_behind {rows : List Row} {after : Option Key} {row : Row} :
    row ∈ behind key rows after ↔ row ∈ rows ∧ ∀ last, after = some last → last < key row := by
  cases after <;> simp [behind]

theorem nextRow_mem {rows : List Row} {after : Option Key} {row : Row} (found : nextRow key rows after = some row) :
    row ∈ rows :=
  (mem_behind.mp (least_spec found).1).1

theorem behind_shorter {rows : List Row} {after : Option Key} {row : Row} (found : nextRow key rows after = some row) :
    (behind key rows (some (key row))).length < (behind key rows after).length := by
  have behindAfter := (least_spec found).1
  have filtered : behind key rows (some (key row)) =
      (behind key rows after).filter fun other => key row < key other := by
    cases after with
    | none => rfl
    | some last =>
      have past := (mem_behind.mp behindAfter).2 last rfl
      simp only [behind, List.filter_filter]
      refine List.filter_congr fun other _ => ?_
      by_cases beyond : key row < key other
      · simp [beyond, past.trans beyond]
      · simp [beyond]
  rw [filtered]
  exact List.length_filter_lt_length_iff_exists.mpr ⟨row, behindAfter, by simp⟩

/-! ## Pages -/

theorem mem_page {rows : List Row} {limit : Nat} {after : Option Key} {row : Row}
    (member : row ∈ page key rows limit after) : row ∈ behind key rows after := by
  induction limit generalizing after with
  | zero => cases member
  | succ limit ih =>
    unfold page at member
    split at member
    · cases member
    next next found =>
      have first := (least_spec found).1
      rcases List.mem_cons.mp member with rfl | later
      · exact first
      · obtain ⟨there, past⟩ := mem_behind.mp (ih later)
        refine mem_behind.mpr ⟨there, fun last same => ?_⟩
        exact ((mem_behind.mp first).2 last same).trans (past _ rfl)

theorem page_sorted (rows : List Row) (limit : Nat) (after : Option Key) :
    (page key rows limit after).Pairwise fun first second => key first < key second := by
  induction limit generalizing after with
  | zero => exact .nil
  | succ limit ih =>
    unfold page
    split
    · exact .nil
    next row found =>
      exact .cons (fun other member => (mem_behind.mp (mem_page member)).2 _ rfl) (ih _)

-- What a page leaves out lies behind its last row, and a short page leaves out nothing.
theorem page_covers {rows : List Row} {limit : Nat} {after : Option Key}
    (apart : ∀ first ∈ rows, ∀ second ∈ rows, key first = key second → first = second) {row : Row}
    (member : row ∈ behind key rows after) (missed : row ∉ page key rows limit after) :
    limit ≤ (page key rows limit after).length ∧ ∀ other ∈ page key rows limit after, key other < key row := by
  induction limit generalizing after with
  | zero => simp [page]
  | succ limit ih =>
    cases found : nextRow key rows after with
    | none =>
      rw [least_eq_none.mp found] at member
      cases member
    | some head =>
      simp only [page, found] at missed ⊢
      rw [List.mem_cons, not_or] at missed
      have past : key head < key row := by
        refine lt_of_le_of_ne ((least_spec found).2 row member) fun same => missed.1 ?_
        exact (apart head (nextRow_mem found) row (mem_behind.mp member).1 same).symm
      have later : row ∈ behind key rows (some (key head)) :=
        mem_behind.mpr ⟨(mem_behind.mp member).1, fun last same => by cases same; exact past⟩
      obtain ⟨full, before⟩ := ih later missed.2
      refine ⟨by simpa using full, fun other there => ?_⟩
      rcases List.mem_cons.mp there with rfl | there
      · exact past
      · exact before other there

/-! ## Walks -/

/-- What every visit keeps, the walk keeps. -/
theorem walkFrom_keeps {visit : State → Row → Visit State Result} {rows : List Row} {motive : State → Prop}
    (each : ∀ state row next, row ∈ rows → motive state → visit state row = .goOn next → motive next)
    {fuel : Nat} {after : Option Key} {state final : State} (start : motive state)
    (ended : walkFrom key visit rows fuel after state = .goOn final) : motive final := by
  induction fuel generalizing after state with
  | zero =>
    cases ended
    exact start
  | succ fuel ih =>
    unfold walkFrom at ended
    split at ended
    · cases ended
      exact start
    next row found =>
      split at ended
      · cases ended
      next next visited => exact ih (each state row next (nextRow_mem found) start visited) ended

theorem walkFrom_stop {visit : State → Row → Visit State Result} {rows : List Row} {fuel : Nat} {after : Option Key}
    {state : State} {result : Result} (ended : walkFrom key visit rows fuel after state = .stop result) :
    ∃ reached, ∃ row ∈ rows, visit reached row = .stop result := by
  induction fuel generalizing after state with
  | zero => cases ended
  | succ fuel ih =>
    unfold walkFrom at ended
    split at ended
    · cases ended
    next row found =>
      split at ended
      next visited =>
        cases ended
        exact ⟨state, row, nextRow_mem found, visited⟩
      · exact ih ended

theorem walkFrom_covers {visit : State → Row → Visit State Result} {rows : List Row} {motive : State → Row → Prop}
    (apart : ∀ first ∈ rows, ∀ second ∈ rows, key first = key second → first = second)
    (visits : ∀ state row next, row ∈ rows → visit state row = .goOn next →
      motive next row ∧ ∀ other, motive state other → motive next other)
    {fuel : Nat} {after : Option Key} {state final : State} (enough : (behind key rows after).length < fuel)
    (passed : ∀ row ∈ rows, row ∉ behind key rows after → motive state row)
    (ended : walkFrom key visit rows fuel after state = .goOn final) : ∀ row ∈ rows, motive final row := by
  induction fuel generalizing after state with
  | zero => omega
  | succ fuel ih =>
    unfold walkFrom at ended
    split at ended
    next empty =>
      cases ended
      intro row member
      refine passed row member ?_
      rw [least_eq_none.mp empty]
      simp
    next row found =>
      have shorter := behind_shorter found
      split at ended
      · cases ended
      next next visited =>
        obtain ⟨here, later⟩ := visits state row next (nextRow_mem found) visited
        refine ih (by omega) ?_ ended
        intro other member gone
        by_cases waiting : other ∈ behind key rows after
        · have notLater : ¬ key row < key other := fun past =>
            gone (mem_behind.mpr ⟨member, fun last same => by cases same; exact past⟩)
          have same := apart other member row (nextRow_mem found)
            (le_antisymm (not_lt.mp notLater) ((least_spec found).2 other waiting))
          rw [same]
          exact here
        · exact later other (passed other member waiting)

theorem walk_keeps {visit : State → Row → Visit State Result} {rows : List Row} {motive : State → Prop}
    (each : ∀ state row next, row ∈ rows → motive state → visit state row = .goOn next → motive next)
    {state final : State} (start : motive state) (ended : walk key visit rows state = .goOn final) : motive final :=
  walkFrom_keeps each start ended

theorem walk_stop {visit : State → Row → Visit State Result} {rows : List Row} {state : State} {result : Result}
    (ended : walk key visit rows state = .stop result) : ∃ reached, ∃ row ∈ rows, visit reached row = .stop result :=
  walkFrom_stop ended

/-- A walk that runs to its end has come past every row. -/
theorem walk_covers {visit : State → Row → Visit State Result} {rows : List Row} {motive : State → Row → Prop}
    (apart : ∀ first ∈ rows, ∀ second ∈ rows, key first = key second → first = second)
    (visits : ∀ state row next, row ∈ rows → visit state row = .goOn next →
      motive next row ∧ ∀ other, motive state other → motive next other)
    {state final : State} (ended : walk key visit rows state = .goOn final) : ∀ row ∈ rows, motive final row :=
  walkFrom_covers apart visits (by simp [behind])
    (fun row member gone => absurd (show row ∈ behind key rows none from member) gone) ended

end Walk

end Phaze.Keyset
