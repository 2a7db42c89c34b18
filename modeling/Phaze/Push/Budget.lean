import Phaze.Push.Protocol

set_option autoImplicit false

/-!
# The bounded push budget

The counter of re-drives lives on the ledger row that a successful push clears. It outlives the
clear as long as the push that owns the row is queued or active, and then every push that
`/mismatch` re-enqueued since the last dispatch is counted.
-/

namespace Phaze.Push

open Phaze.Cloud
open Phaze.Jobs (Slot)
open Phaze.Runs

-- The row is on its compute backend: `/mismatch` may spill it or re-arm it.
def onLane (row : CloudJob) : Prop :=
  row.status = .submitted ∨ row.status = .succeeded

instance (row : CloudJob) : Decidable (onLane row) := by
  unfold onLane
  infer_instance

-- A success callback whose compare-and-set hits finds a live push, or nothing to forget; a dispatch
-- finds no analysis that is still to be enqueued for the dispatch before it.
def Admitted (state : State) : Action → Prop
  | .pushed false false _ => state.row.status = .submitted → state.redriven = 0 ∨ state.pushes.live.isSome
  | .dispatch .. => state.committed = 0
  | _ => True

instance (state : State) (action : Action) : Decidable (Admitted state action) := by
  unfold Admitted
  split <;> infer_instance

-- The pushes re-enqueued since the last dispatch are on the counter, or will be.
def Counted (state : State) : Prop :=
  match state.mismatch with
  | none => state.redriven ≤ counter state.ledger
  | some (.read attempts _) => state.redriven ≤ counter state.ledger ∧ state.redriven ≤ attempts
  | some (.enqueued attempts) => state.redriven ≤ attempts + 1 ∧ state.ledger.isSome

-- What a submitted row and a committed callback may still enqueue.
def owed (state : State) : Nat :=
  state.committed + if state.row.status = .submitted then 1 else 0

structure Budgeted (settings : Settings) (state : State) : Prop where
  redriven : state.redriven ≤ settings.pushMaxAttempts
  counted : onLane state.row → Counted state
  analysed : state.analysed + owed state ≤ state.redriven + 1
  rearmed : state.rowFree = false → state.row.status = .submitted

section Steps

variable {settings : Settings} {state next : State}

@[simp]
theorem counter_hooked (ledger : Option (Option Nat)) : counter (hooked ledger) = counter ledger := by
  cases ledger <;> rfl

theorem spillAwaiting_status {row spilled : CloudJob} {attempts : Nat} {expect : List Staging.CloudJobStatus}
    {upload : Option Staging.UploadId} {clears : Bool} {now : Int}
    (spills : spillAwaiting row attempts expect upload clears now = some spilled) :
    spilled.status = .awaiting ∧ spilled.attempts = attempts ∧ row.status ∈ expect := by
  simp only [spillAwaiting, Option.ite_none_right_eq_some, Option.some.injEq] at spills
  obtain ⟨⟨expected, -⟩, rfl⟩ := spills
  exact ⟨rfl, rfl, expected⟩

theorem rowFree_open (free : state.rowFree = true) (attempts : Nat) :
    state.mismatch ≠ some (.enqueued attempts) := by
  intro locked
  simp [State.rowFree, locked] at free

-- Off its lane the row owes nothing but what is committed.
theorem budgeted_leaves {row : CloudJob} {ledger : Option (Option Nat)} {mismatch : Option Mismatch}
    (budgeted : Budgeted settings state) (awaiting : row.status = .awaiting)
    (open_ : ∀ attempts, mismatch ≠ some (.enqueued attempts)) :
    Budgeted settings { state with row := row, ledger := ledger, mismatch := mismatch } := by
  have owes := budgeted.analysed
  refine ⟨budgeted.redriven, ?_, ?_, ?_⟩
  · intro lane
    simp [onLane, awaiting] at lane
  · simp only [owed, awaiting, reduceCtorEq, if_false] at owes ⊢
    omega
  · intro locked
    simp only [State.rowFree] at locked
    cases locked

theorem counted_of_hook (counted : Counted state) :
    Counted { state with ledger := hooked state.ledger } := by
  unfold Counted at counted
  split at counted
  next idle => simpa [Counted, idle] using counted
  next reading => simpa [Counted, reading] using counted
  next locked => simpa [Counted, locked, hooked] using counted.1

theorem budgeted_hook (budgeted : Budgeted settings state) :
    Budgeted settings { state with ledger := hooked state.ledger } :=
  ⟨budgeted.redriven, fun lane => counted_of_hook (budgeted.counted lane), budgeted.analysed, budgeted.rearmed⟩

-- A callback that ends without a write frees the counter's lock.
theorem budgeted_release {ledger : Option (Option Nat)} {attempts : Nat} {attributed : Bool}
    (budgeted : Budgeted settings state) (reading : state.mismatch = some (.read attempts attributed))
    (same : counter ledger = counter state.ledger) :
    Budgeted settings { state with ledger := ledger, mismatch := none } := by
  refine ⟨budgeted.redriven, fun lane => ?_, budgeted.analysed, by simp [State.rowFree]⟩
  have counted := budgeted.counted lane
  simp only [Counted, reading] at counted
  simp only [Counted, same]
  exact counted.1

theorem budgeted_dispatch {backend : BackendId} {now : Int} (idle : state.committed = 0)
    (stepped : dispatch settings state backend now = some next) : Budgeted settings next := by
  simp only [dispatch, Option.ite_none_right_eq_some, Option.some.injEq] at stepped
  obtain ⟨⟨free, -, -⟩, rfl⟩ := stepped
  refine ⟨Nat.zero_le _, fun _ => ?_, ?_, ?_⟩
  · simp only [Counted]
    split
    · exact Nat.zero_le _
    · exact ⟨Nat.zero_le _, Nat.zero_le _⟩
    next locked => exact absurd locked (rowFree_open free _)
  · simp [owed, idle, computeUpsert]
  · simp [computeUpsert]

-- A clear forgets nothing where a push is live, or where no push was re-enqueued.
theorem counted_clear {skipped : Bool} (counted : Counted state) (free : state.rowFree = true)
    (kept : skipped ∨ state.redriven = 0 ∨ state.pushes.live.isSome) :
    Counted { state with ledger := clearLedgerEntry state skipped } := by
  by_cases stays : skipped ∨ state.pushes.live.isSome
  · have same : clearLedgerEntry state skipped = state.ledger := if_pos stays
    rw [same]
    exact counted
  · have forgotten : state.redriven = 0 := by tauto
    unfold Counted
    split
    · simp [forgotten]
    · simp [forgotten]
    next locked => exact absurd locked (rowFree_open free _)

theorem budgeted_pushed {held skipped : Bool} {now : Int} (budgeted : Budgeted settings state)
    (admitted : Admitted state (.pushed held skipped now))
    (stepped : reportPushed state held skipped now = some next) : Budgeted settings next := by
  simp only [reportPushed, Option.ite_none_right_eq_some] at stepped
  obtain ⟨-, stepped⟩ := stepped
  by_cases holds : held
  · simp only [holds, if_true, Option.some.injEq] at stepped
    subst stepped
    exact budgeted
  simp only [holds, Bool.false_eq_true, if_false, Option.ite_none_right_eq_some] at stepped
  obtain ⟨free, stepped⟩ := stepped
  cases flipped : pushedFlip state.row now with
  | none =>
    simp only [flipped, Option.some.injEq] at stepped
    subst stepped
    exact budgeted
  | some row =>
    simp only [flipped, Option.some.injEq] at stepped
    subst stepped
    simp only [pushedFlip, Option.ite_none_right_eq_some, Option.some.injEq] at flipped
    obtain ⟨submitted, rfl⟩ := flipped
    have counted := budgeted.counted (.inl submitted)
    have owes := budgeted.analysed
    refine ⟨budgeted.redriven, fun _ => ?_, ?_, ?_⟩
    · refine counted_clear counted free ?_
      cases skipped with
      | true => exact .inl rfl
      | false =>
        rw [Bool.not_eq_true] at holds
        subst holds
        exact .inr (admitted submitted)
    · simp only [owed, submitted, reduceCtorEq, if_true, if_false] at owes ⊢
      omega
    · intro locked
      simp only [State.rowFree] at locked free
      rw [locked] at free
      cases free

theorem budgeted_analyse {raises : Bool} (budgeted : Budgeted settings state)
    (stepped : analyse state raises = some next) : Budgeted settings next := by
  have owes := budgeted.analysed
  simp only [analyse, Option.ite_none_right_eq_some] at stepped
  obtain ⟨pending, stepped⟩ := stepped
  cases raises with
  | true =>
    simp only [if_true, Option.some.injEq] at stepped
    subst stepped
    refine ⟨budgeted.redriven, budgeted.counted, ?_, budgeted.rearmed⟩
    simp only [owed] at owes ⊢
    omega
  | false =>
    simp only [Bool.false_eq_true, if_false, Option.some.injEq] at stepped
    subst stepped
    refine ⟨budgeted.redriven, budgeted.counted, ?_, budgeted.rearmed⟩
    simp only [owed] at owes ⊢
    omega

theorem budgeted_failed {found skipped : Bool} {now : Int} (budgeted : Budgeted settings state)
    (stepped : reportPushFailed settings state found skipped now = some next) : Budgeted settings next := by
  simp only [reportPushFailed, Option.ite_none_right_eq_some] at stepped
  obtain ⟨-, stepped⟩ := stepped
  split at stepped
  · cases stepped
    exact budgeted
  simp only [Option.ite_none_right_eq_some] at stepped
  obtain ⟨free, stepped⟩ := stepped
  split at stepped
  next row spilled =>
    cases stepped
    exact budgeted_leaves budgeted (spillAwaiting_status spilled).1 (rowFree_open free)
  next =>
    cases stepped
    exact budgeted

theorem budgeted_reap {skipped : Bool} {now : Int} (budgeted : Budgeted settings state)
    (stepped : reap settings state skipped now = some next) : Budgeted settings next := by
  simp only [reap, Option.ite_none_right_eq_some, Option.map_eq_some_iff] at stepped
  obtain ⟨⟨free, -⟩, row, reaped, rfl⟩ := stepped
  exact budgeted_leaves budgeted (spillAwaiting_status reaped).1 (rowFree_open free)

theorem budgeted_reset {now : Int} (budgeted : Budgeted settings state)
    (stepped : reset state now = some next) : Budgeted settings next := by
  simp only [reset, Option.ite_none_right_eq_some, Option.some.injEq] at stepped
  obtain ⟨awaiting, rfl⟩ := stepped
  refine ⟨budgeted.redriven, budgeted.counted, budgeted.analysed, budgeted.rearmed⟩

theorem budgeted_mismatch {authorized attributed : Bool} (budgeted : Budgeted settings state)
    (stepped : reportPushMismatch state authorized attributed = some next) : Budgeted settings next := by
  simp only [reportPushMismatch, Option.ite_none_right_eq_some] at stepped
  obtain ⟨-, stepped⟩ := stepped
  split at stepped
  · cases stepped
    exact budgeted
  simp only [Option.ite_none_right_eq_some, Option.some.injEq] at stepped
  obtain ⟨idle, rfl⟩ := stepped
  refine ⟨budgeted.redriven, fun lane => ?_, budgeted.analysed, by simp [State.rowFree]⟩
  have counted := budgeted.counted lane
  simp only [Counted, idle] at counted
  exact ⟨counted, counted⟩

theorem budgeted_spill {attempts : Nat} {attributed : Bool} {surroundings : Surroundings} {now : Int}
    (budgeted : Budgeted settings state) (reading : state.mismatch = some (.read attempts attributed)) :
    Budgeted settings (spillOverCapPush settings state surroundings now) := by
  simp only [spillOverCapPush]
  split
  next row spilled =>
    simp only [Option.ite_none_right_eq_some] at spilled
    exact budgeted_leaves budgeted (spillAwaiting_status spilled.2).1 (by simp)
  next => exact budgeted_release budgeted reading rfl

theorem budgeted_redrive {attempts : Nat} {attributed : Bool} {surroundings : Surroundings} {now : Int}
    (budgeted : Budgeted settings state) (reading : state.mismatch = some (.read attempts attributed))
    (under : attempts + 1 ≤ settings.pushMaxAttempts) :
    Budgeted settings (redriveUnderCapPush state attempts attributed surroundings now) := by
  simp only [redriveUnderCapPush]
  split
  next =>
    split
    next => exact budgeted_release budgeted reading rfl
    next row rearmed =>
      simp only [rearm, Option.ite_none_right_eq_some, Option.some.injEq] at rearmed
      obtain ⟨lane, rfl⟩ := rearmed
      split
      next => exact budgeted_release budgeted reading (counter_hooked state.ledger)
      next =>
        have counted := budgeted.counted lane
        simp only [Counted, reading] at counted
        have owes := budgeted.analysed
        refine ⟨?_, fun _ => ⟨?_, rfl⟩, ?_, fun _ => rfl⟩
        · have read := counted.2
          show state.redriven + 1 ≤ _
          omega
        · exact Nat.succ_le_succ counted.2
        · simp only [owed, if_true] at owes ⊢
          omega
  next => exact budgeted_release budgeted reading rfl

theorem budgeted_decide {surroundings : Surroundings} {now : Int} (budgeted : Budgeted settings state)
    (stepped : decideMismatch settings state surroundings now = some next) : Budgeted settings next := by
  simp only [decideMismatch] at stepped
  split at stepped
  next attempts attributed reading =>
    split at stepped
    next =>
      cases stepped
      exact budgeted_spill budgeted reading
    next under =>
      cases stepped
      exact budgeted_redrive budgeted reading (by omega)
  next => cases stepped

theorem budgeted_stamp (budgeted : Budgeted settings state) (stepped : stamp state = some next) :
    Budgeted settings next := by
  simp only [stamp] at stepped
  split at stepped
  next attempts locked =>
    cases stepped
    refine ⟨budgeted.redriven, fun lane => ?_, budgeted.analysed, by simp [State.rowFree]⟩
    have counted := budgeted.counted lane
    simp only [Counted, locked] at counted
    obtain ⟨read, present⟩ := counted
    obtain ⟨value, found⟩ := Option.isSome_iff_exists.mp present
    simpa [Counted, counter, found] using read
  next => cases stepped

theorem step_budgeted {action : Action} (budgeted : Budgeted settings state) (admitted : Admitted state action)
    (stepped : step settings state action = some next) : Budgeted settings next := by
  cases action with
  | dispatch backend now => exact budgeted_dispatch admitted stepped
  | flushHook =>
    simp only [step, flushHook, Option.ite_none_right_eq_some, Option.some.injEq] at stepped
    obtain ⟨-, rfl⟩ := stepped
    have hook := budgeted_hook budgeted
    exact ⟨hook.redriven, hook.counted, hook.analysed, hook.rearmed⟩
  | flushEnqueue =>
    simp only [step, flushEnqueue, Option.ite_none_right_eq_some, Option.some.injEq] at stepped
    obtain ⟨-, rfl⟩ := stepped
    exact ⟨budgeted.redriven, budgeted.counted, budgeted.analysed, budgeted.rearmed⟩
  | flushFails =>
    simp only [step, Option.ite_none_right_eq_some, Option.some.injEq] at stepped
    obtain ⟨-, rfl⟩ := stepped
    exact ⟨budgeted.redriven, budgeted.counted, budgeted.analysed, budgeted.rearmed⟩
  | startPush | endPush | startAnalysis | endAnalysis =>
    simp only [step, Option.map_eq_some_iff] at stepped
    obtain ⟨jobs, -, rfl⟩ := stepped
    exact ⟨budgeted.redriven, budgeted.counted, budgeted.analysed, budgeted.rearmed⟩
  | send callback =>
    simp only [step, send, Option.ite_none_right_eq_some, Option.some.injEq] at stepped
    obtain ⟨-, rfl⟩ := stepped
    exact ⟨budgeted.redriven, budgeted.counted, budgeted.analysed, budgeted.rearmed⟩
  | pushed held skipped now => exact budgeted_pushed budgeted admitted stepped
  | analyse raises => exact budgeted_analyse budgeted stepped
  | failed found skipped now => exact budgeted_failed budgeted stepped
  | mismatch authorized attributed => exact budgeted_mismatch budgeted stepped
  | decide surroundings now => exact budgeted_decide budgeted stepped
  | stamp => exact budgeted_stamp budgeted stepped
  | reap skipped now => exact budgeted_reap budgeted stepped
  | reset now => exact budgeted_reset budgeted stepped

theorem initial_budgeted (row : CloudJob) : Budgeted settings (.initial row) := by
  refine ⟨Nat.zero_le _, fun _ => Nat.zero_le _, ?_, by simp [State.rowFree, State.initial]⟩
  by_cases submitted : row.status = .submitted <;> simp [owed, State.initial, submitted]

-- A mismatch served with the budget used up finds it used up.
theorem decide_spills {attempts : Nat} {attributed : Bool} {surroundings : Surroundings} {now : Int}
    (budgeted : Budgeted settings state) (used : state.redriven = settings.pushMaxAttempts)
    (lane : onLane state.row) (reading : state.mismatch = some (.read attempts attributed))
    (found : surroundings.found) :
    ∃ next, step settings state (.decide surroundings now) = some next ∧
      next.row.status = .awaiting ∧ next.row.attempts = settings.cloudSubmitMaxAttempts := by
  have counted := budgeted.counted lane
  simp only [Counted, reading] at counted
  have exceeds : settings.pushMaxAttempts < attempts + 1 := by
    have read := counted.2
    omega
  have expected : state.row.status ∈ [Staging.CloudJobStatus.submitted, .succeeded] := by
    simpa [onLane] using lane
  refine ⟨spillOverCapPush settings state surroundings now, ?_, ?_⟩
  · simp [step, decideMismatch, reading, exceeds]
  · simp [spillOverCapPush, found, spillAwaiting, expected]

end Steps

/-! ## The bound -/

-- Since the last dispatch; the last clause is about each mismatch that has read its counter.
structure WithinBudget (settings : Settings) (state : State) : Prop where
  redriven : state.redriven ≤ settings.pushMaxAttempts
  analysed : state.analysed ≤ settings.pushMaxAttempts + 1
  spills : state.redriven = settings.pushMaxAttempts → onLane state.row →
    ∀ attempts attributed, state.mismatch = some (.read attempts attributed) →
    ∀ surroundings now, surroundings.found → ∃ next,
      step settings state (.decide surroundings now) = some next ∧
        next.row.status = .awaiting ∧ next.row.attempts = settings.cloudSubmitMaxAttempts

/-- In every run whose success callbacks find a live push or no re-drive to forget, and whose
dispatches find no analysis outstanding, the budget of a dispatch bounds what follows it. -/
theorem push_budget_bounds {settings : Settings} {state : State} (row : CloudJob) (actions : List Action)
    (along : Along (step settings) Admitted (.initial row) actions)
    (ran : run (step settings) (.initial row) actions = some state) : WithinBudget settings state := by
  have budgeted : Budgeted settings state :=
    run_keeps (fun _ _ _ => step_budgeted) actions along (initial_budgeted row) ran
  refine ⟨budgeted.redriven, ?_, ?_⟩
  · have owes := budgeted.analysed
    have bound := budgeted.redriven
    omega
  · intro used lane attempts attributed reading surroundings now found
    exact decide_spills budgeted used lane reading found

def oneAttempt : Settings := { pushMaxAttempts := 1, cloudSubmitMaxAttempts := 3 }

def allWell : Surroundings := { found := true, online := true, raises := false, skipped := false }

-- A push that runs and reports; its callback is served before, or after, the job has settled.
def pushed (late : Bool) : List Action :=
  [.startPush, .send .pushed] ++
    (if late then [.endPush, .pushed false false 0] else [.pushed false false 0, .endPush]) ++ [.analyse false]

-- The analysis finds the copy broken, and the push is re-enqueued or the row spilled.
def mismatched : List Action :=
  [.startAnalysis, .send .mismatch, .mismatch true true, .decide allWell 0]

def brokenCopies (late : Bool) : List Action :=
  [.dispatch "compute" 0, .flushHook, .flushEnqueue] ++ pushed late ++ mismatched ++ [.stamp, .endAnalysis] ++
    pushed late ++ [.startAnalysis, .send .mismatch, .mismatch true true]

theorem broken_copies_spill : ∃ state,
    run (step oneAttempt) (.initial (.fresh .awaiting 0)) (brokenCopies false) = some state ∧
      state.redriven = 1 ∧ state.analysed = 2 ∧ WithinBudget oneAttempt state :=
  ⟨_, rfl, rfl, rfl, push_budget_bounds (.fresh .awaiting 0) (brokenCopies false) (by decide) rfl⟩

/-- The second success is served after its job has settled: the clear takes the counter with it. -/
theorem late_success_restarts_budget : ∃ state,
    run (step oneAttempt) (.initial (.fresh .awaiting 0)) (brokenCopies true ++ [.decide allWell 0]) = some state ∧
      state.redriven = 2 ∧ ¬ WithinBudget oneAttempt state := by
  refine ⟨_, rfl, rfl, fun within => ?_⟩
  have bound := within.redriven
  contradiction

end Phaze.Push
