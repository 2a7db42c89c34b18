import Phaze.Cloud.Moves
import Phaze.Shared.Runs

set_option autoImplicit false

/-!
# The durable budget ledger of one file

`services/cloud_budget.py`, the fold in the awaiting writer (`services/backends/admission.py`) and the
operator's reset (`services/cloud_attempts_reset.py`), over every writer of the file's `cloud_job` row.
A chain ends when the row enters `awaiting` with its attempts at the cap.
-/

namespace Phaze.Cloud.Chains

open Phaze.Staging (CloudJobStatus UploadId)

structure CloudBudget where
  chainsSpent : Nat
  attemptsSpent : Nat
  nodeLossSpent : Nat
  budgetSpentAt : Int
deriving DecidableEq

def chainsSpent (budget : Option CloudBudget) : Nat := budget.elim 0 CloudBudget.chainsSpent

def attemptsSpent (budget : Option CloudBudget) : Nat := budget.elim 0 CloudBudget.attemptsSpent

def nodeLossSpent (budget : Option CloudBudget) : Nat := budget.elim 0 CloudBudget.nodeLossSpent

def recordCloudBudgetSpent (budget : Option CloudBudget) (attempts nodeLossRedrives : Nat) (now : Int) :
    CloudBudget :=
  { chainsSpent := chainsSpent budget + 1
    attemptsSpent := attemptsSpent budget + attempts
    nodeLossSpent := nodeLossSpent budget + nodeLossRedrives
    budgetSpentAt := now }

-- Parked in `awaiting` with the budget marked spent.
def spent (cap : Nat) (row : Option CloudJob) : Bool :=
  row.any fun row => row.status = .awaiting && decide (cap ≤ row.attempts)

-- `_fold_spent_budget_if_edge`; `prior` is the row before the write.
def foldSpentBudgetIfEdge (cap attempts : Nat) (prior : Option CloudJob) (budget : Option CloudBudget)
    (now : Int) : Option CloudBudget :=
  if attempts < cap then budget
  else if spent cap prior then budget
  else some (recordCloudBudgetSpent budget attempts (prior.elim 0 CloudJob.nodeLossRedrives) now)

/-! ## The reset -/

inductive Disposition where
  | reset
  | excludedApplied
  | excludedAnalyzeDone
  | excludedAnalyzeInFlight
  | excludedNodeLoss
deriving DecidableEq

inductive LedgerAction where
  | noLedgerRow
  | cleared
  | decremented
  | outsideWindow
  | untouched
deriving DecidableEq

structure ResetScope where
  backendId : BackendId
  windowStart : Int
  windowEnd : Int
  attemptsFloor : Nat
  ordered : windowStart < windowEnd
  positive : 1 ≤ attemptsFloor

-- What the query reads beside the row: `applied_clause`, `domain_completed_clause`, `inflight_clause`.
structure FileFacts where
  applied : Bool
  analyzeDone : Bool
  analyzeInFlight : Bool
deriving DecidableEq

def scopeClause (scope : ResetScope) (row : CloudJob) : Bool :=
  row.status = .awaiting && scope.attemptsFloor ≤ row.attempts && row.backendId = some scope.backendId &&
    scope.windowStart ≤ row.updatedAt && row.updatedAt ≤ scope.windowEnd

def nodeLossClause (row : CloudJob) : Bool :=
  0 < row.nodeLossRedrives || row.nodeLossPending.isSome || row.inadmissible

def disposition (row : CloudJob) (facts : FileFacts) : Disposition :=
  if facts.applied then .excludedApplied
  else if facts.analyzeDone then .excludedAnalyzeDone
  else if facts.analyzeInFlight then .excludedAnalyzeInFlight
  else if nodeLossClause row then .excludedNodeLoss
  else .reset

def insideWindow (scope : ResetScope) (budget : CloudBudget) : Bool :=
  scope.windowStart ≤ budget.budgetSpentAt && budget.budgetSpentAt ≤ scope.windowEnd

def ledgerAction (scope : ResetScope) (row : CloudJob) (facts : FileFacts) (budget : Option CloudBudget) :
    LedgerAction :=
  if disposition row facts ≠ .reset then .untouched
  else
    match budget with
    | none => .noLedgerRow
    | some budget =>
        if ¬ insideWindow scope budget then .outsideWindow
        else if budget.chainsSpent ≤ 1 then .cleared
        else .decremented

-- The unfold subtracts what the row says now, not what was folded.
def unfoldChain (scope : ResetScope) (row : CloudJob) (facts : FileFacts) (budget : Option CloudBudget) :
    Option CloudBudget :=
  match ledgerAction scope row facts budget with
  | .cleared => none
  | .decremented => budget.map fun budget =>
      { budget with
        chainsSpent := budget.chainsSpent - 1
        attemptsSpent := budget.attemptsSpent - row.attempts }
  | .noLedgerRow | .outsideWindow | .untouched => budget

theorem unfoldChain_some {scope : ResetScope} {row : CloudJob} {facts : FileFacts} {budget : CloudBudget}
    (classified : disposition row facts = .reset) :
    unfoldChain scope row facts (some budget) =
      if ¬ insideWindow scope budget then some budget
      else if budget.chainsSpent ≤ 1 then none
      else some { budget with
        chainsSpent := budget.chainsSpent - 1
        attemptsSpent := budget.attemptsSpent - row.attempts } := by
  unfold unfoldChain ledgerAction
  simp only [classified, ne_eq, not_true_eq_false, if_false]
  split <;> grind

theorem unfoldChain_none {scope : ResetScope} {row : CloudJob} {facts : FileFacts} :
    unfoldChain scope row facts none = none := by
  unfold unfoldChain
  split <;> rfl

/-! ## The writers of the row -/

-- The four callers that declare the budget spent outright.
inductive SpillSite where
  | uploadFailed
  | emptyParts
  | pushFailed
  | pushMismatch
deriving DecidableEq

def SpillSite.expectStatus : SpillSite → List CloudJobStatus
  | .uploadFailed | .emptyParts => [.uploading, .uploaded]
  | .pushFailed => [.submitted]
  | .pushMismatch => [.submitted, .succeeded]

def SpillSite.clearsPhase : SpillSite → Bool
  | .uploadFailed | .emptyParts => true
  | .pushFailed | .pushMismatch => false

inductive Action where
  | hold (now : Int)
  | dispatch (backend : BackendId) (placement : Placement) (now : Int)
  | uploaded (upload : UploadId) (now : Int)
  | restage (s3Key : String) (upload : UploadId) (bucket : String) (now : Int)
  | submit (name : String) (now : Int)
  | tick (seen : Observation)
  | reapStaging (now : Int)
  | reapSubmitted (now : Int)
  | spill (site : SpillSite) (now : Int)
  | pushed (now : Int)
  | rearm (now : Int)
  | deleted
  | reset (scope : ResetScope) (facts : FileFacts) (now : Int)

def Action.isReset : Action → Bool
  | .reset .. => true
  | _ => false

structure Write where
  row : Option CloudJob
  -- The attempts `hold_awaiting_cloud` stamped, when it wrote the row.
  awaited : Option Nat
  nodeLossRedrive : Bool
  written : Int

def plain (row : CloudJob) (now : Int) : Write :=
  { row := some row, awaited := none, nodeLossRedrive := false, written := now }

def await (row : CloudJob) (now : Int) : Write :=
  { row := some row, awaited := some row.attempts, nodeLossRedrive := false, written := now }

def write (settings : Settings) (row : Option CloudJob) : Action → Option Write
  | .hold now => some (await (holdAwaiting row 0 now) now)
  | .dispatch backend placement now => row.bind fun row =>
      if row.status = .awaiting ∧ row.attempts < settings.cloudSubmitMaxAttempts then
        some (plain (dispatchRow (some row) backend placement now) now)
      else none
  | .uploaded upload now => row.bind fun row => (uploadedFlip row upload now).map fun row => plain row now
  | .restage s3Key upload bucket now => row.map fun row =>
      plain (uploadingUpsert (some row) s3Key upload bucket now) now
  | .submit name now => row.bind fun row => (submitUpsert row name now).map fun row => plain row now
  | .tick seen => row.bind fun row =>
      if row.status = .submitted ∨ row.status = .running then
        let out := reconcileOne settings row seen
        some { row := some out.row
               awaited := out.spilled
               nodeLossRedrive := out.redriven = some .nodeLossRedrives
               written := seen.now }
      else none
  | .reapStaging now => row.bind fun row =>
      (reapStaging row settings.cloudSubmitMaxAttempts now).map fun row => await row now
  | .reapSubmitted now => row.bind fun row =>
      (reapSubmitted row settings.cloudSubmitMaxAttempts now).map fun row => await row now
  | .spill site now => row.bind fun row =>
      (spillAwaiting row settings.cloudSubmitMaxAttempts site.expectStatus none site.clearsPhase now).map
        fun row => await row now
  | .pushed now => row.bind fun row =>
      if row.status = .submitted then some (plain { row with status := .succeeded, updatedAt := now } now) else none
  | .rearm now => row.bind fun row =>
      if row.status = .submitted ∨ row.status = .succeeded then
        some (plain { row with status := .submitted, updatedAt := now } now)
      else none
  -- The analyze terminal deletes an `awaiting` row.
  | .deleted => row.bind fun row =>
      if row.status = .awaiting then
        some { row := none, awaited := none, nodeLossRedrive := false, written := row.updatedAt }
      else none
  | .reset .. => none

/-! ## Runs -/

structure State where
  row : Option CloudJob
  budget : Option CloudBudget
  -- Chains ended so far, and the node-loss re-drives performed up to their ends.
  ended : Nat
  lost : Nat
  -- Node-loss re-drives performed on this row since the last chain end.
  current : Nat
  -- The ledger just before the last chain end.
  before : Option CloudBudget

def State.initial : State :=
  { row := none, budget := none, ended := 0, lost := 0, current := 0, before := none }

def edge (settings : Settings) (state : State) (row : Option CloudJob) : Bool :=
  !spent settings.cloudSubmitMaxAttempts state.row && spent settings.cloudSubmitMaxAttempts row

def advance (settings : Settings) (state : State) (write : Write) : State :=
  let ends := edge settings state write.row
  { row := write.row
    budget :=
      match write.awaited with
      | some attempts =>
          foldSpentBudgetIfEdge settings.cloudSubmitMaxAttempts attempts state.row state.budget write.written
      | none => state.budget
    ended := if ends then state.ended + 1 else state.ended
    lost := if ends then state.lost + state.current else state.lost
    current :=
      if ends ∨ write.row.isNone then 0
      else if write.nodeLossRedrive then state.current + 1 else state.current
    before := if ends then state.budget else state.before }

def resetStep (state : State) (scope : ResetScope) (facts : FileFacts) (now : Int) : State :=
  match state.row with
  | some row =>
      if scopeClause scope row ∧ disposition row facts = .reset then
        { state with
          row := some { row with attempts := 0, updatedAt := now }
          budget := unfoldChain scope row facts state.budget }
      else state
  | none => state

def step (settings : Settings) (state : State) : Action → Option State
  | .reset scope facts now => some (resetStep state scope facts now)
  | action => (write settings state.row action).map (advance settings state)

-- No write but a deletion or a reset takes a spent row with a node-loss tally out of `awaiting`.
def RetiresTally (settings : Settings) (state : State) : Action → Prop
  | .hold _ | .restage .. =>
      spent settings.cloudSubmitMaxAttempts state.row → ∀ row ∈ state.row, row.nodeLossRedrives = 0
  | _ => True

instance (settings : Settings) (state : State) : ∀ action, Decidable (RetiresTally settings state action)
  | .hold _ | .restage .. => inferInstanceAs (Decidable (_ → ∀ row ∈ state.row, _))
  | .dispatch .. | .uploaded .. | .submit .. | .tick _ | .reapStaging _ | .reapSubmitted _ | .spill .. | .pushed _
  | .rearm _ | .deleted | .reset .. => isTrue trivial

/-! ## What a write can do -/

section Writes

variable {settings : Settings} {row : Option CloudJob} {written : Write}

def losses (row : Option CloudJob) : Nat := row.elim 0 CloudJob.nodeLossRedrives

structure Written (settings : Settings) (row : Option CloudJob) (written : Write) : Prop where
  awaited : ∀ attempts, written.awaited = some attempts →
    ∃ after, written.row = some after ∧ after.status = .awaiting ∧ after.attempts = attempts
  otherwise : written.awaited = none → spent settings.cloudSubmitMaxAttempts written.row = false
  losses : ∀ after, written.row = some after →
    after.nodeLossRedrives = Chains.losses row + if written.nodeLossRedrive then 1 else 0
  within : (∀ before ∈ row, before.attempts ≤ settings.cloudSubmitMaxAttempts) →
    ∀ after ∈ written.row, after.attempts ≤ settings.cloudSubmitMaxAttempts

theorem spent_some {cap : Nat} {row : CloudJob} :
    spent cap (some row) = true ↔ row.status = .awaiting ∧ cap ≤ row.attempts := by
  simp [spent]

theorem written_plain {before after : CloudJob} {now : Int} (moved : after.status ≠ .awaiting)
    (same : after.nodeLossRedrives = before.nodeLossRedrives) (kept : after.attempts = before.attempts) :
    Written settings (some before) (plain after now) where
  awaited := by simp [plain]
  otherwise := by simp [plain, spent, moved]
  losses := by simp [plain, same, losses]
  within := by simp [plain, kept]

theorem written_await {after : CloudJob} {now : Int} (held : after.status = .awaiting)
    (same : after.nodeLossRedrives = losses row) (under : after.attempts ≤ settings.cloudSubmitMaxAttempts) :
    Written settings row (await after now) where
  awaited := by simp [await, held]
  otherwise := by simp [await]
  losses := by simp [await, same]
  within := by simp [await, under]

theorem written_spill {before after : CloudJob} {attempts : Nat} {expects : List CloudJobStatus}
    {upload : Option UploadId} {clears : Bool} {now : Int}
    (spilled : spillAwaiting before attempts expects upload clears now = some after)
    (under : attempts ≤ settings.cloudSubmitMaxAttempts) : Written settings (some before) (await after now) := by
  simp only [spillAwaiting, Option.ite_none_right_eq_some, Option.some.injEq] at spilled
  obtain ⟨-, rfl⟩ := spilled
  exact written_await rfl rfl under

theorem written_tick {before : CloudJob} (seen : Observation)
    (live : before.status = .submitted ∨ before.status = .running) :
    Written settings (some before)
      { row := some (reconcileOne settings before seen).row
        awaited := (reconcileOne settings before seen).spilled
        nodeLossRedrive := (reconcileOne settings before seen).redriven = some .nodeLossRedrives
        written := seen.now } := by
  generalize outcome : reconcileOne settings before seen = out
  have move := reconcileOne_move settings before seen
  rw [outcome] at move
  have alive : ∀ status, status = before.status → status ≠ .awaiting := by
    rintro status rfl
    rcases live with status | status <;> simp [status]
  cases move with
  | held unspent enqueued pending workload after status =>
    have moved : out.row.status ≠ .awaiting := by
      rcases status with same | ⟨running, -⟩
      · exact alive _ same
      · simp [running]
    exact ⟨by simp [unspent.spilled], by simp [spent, moved], by simp [losses, unspent.redriven, unspent.nodeLossRedrives],
      by simp [unspent.attempts]⟩
  | resumed unspent enqueued pending workload nameless waited after status =>
    have moved := alive _ status
    exact ⟨by simp [unspent.spilled], by simp [spent, moved], by simp [losses, unspent.redriven, unspent.nodeLossRedrives],
      by simp [unspent.attempts]⟩
  | finished unspent enqueued pending workload after status =>
    exact ⟨by simp [unspent.spilled], by simp [spent, status], by simp [losses, unspent.redriven, unspent.nodeLossRedrives],
      by simp [unspent.attempts]⟩
  | deferred unspent enqueued named pending workload after status =>
    have moved := alive _ status
    exact ⟨by simp [unspent.spilled], by simp [spent, moved], by simp [losses, unspent.redriven, unspent.nodeLossRedrives],
      by simp [unspent.attempts]⟩
  | charged spilled budget status =>
    split at budget
    · obtain ⟨redriven, attempts, lost, under⟩ := budget
      exact ⟨by simp [spilled], by simp [spent, status], by simp [losses, redriven, lost], by simp [attempts]⟩
    · obtain ⟨redriven, attempts, lost, under⟩ := budget
      exact ⟨by simp [spilled], by simp [spent, status], by simp [losses, redriven, lost], by simp [under]⟩
  | uncharged unreachable spilled redriven attempts lost status =>
    exact ⟨by simp [spilled], by simp [spent, status], by simp [losses, redriven, lost], by simp [attempts]⟩
  | spilt attempts ceiling redriven enqueued lost pending after workload written =>
    rw [if_pos live] at written
    obtain ⟨spilled, status, stamped⟩ := written
    refine ⟨by simp [spilled, status, stamped], by simp [spilled], by simp [losses, redriven, lost], ?_⟩
    intro within
    rcases ceiling with rfl | ⟨-, rfl⟩
    · simp [stamped]
    · simpa [stamped] using within

theorem write_written {action : Action} (wrote : write settings row action = some written) :
    Written settings row written := by
  cases action with
  | hold now =>
    cases wrote
    refine written_await rfl ?_ (Nat.zero_le _)
    cases row <;> rfl
  | dispatch backend placement now =>
    simp only [write, Option.bind_eq_some_iff, Option.ite_none_right_eq_some, Option.some.injEq] at wrote
    obtain ⟨before, rfl, -, rfl⟩ := wrote
    cases placement <;> exact written_plain (by simp [dispatchRow, stampBackend, uploadingUpsert, computeUpsert]) rfl rfl
  | uploaded upload now =>
    simp only [write, uploadedFlip, Option.bind_eq_some_iff, Option.map_eq_some_iff, Option.ite_none_right_eq_some,
      Option.some.injEq] at wrote
    obtain ⟨before, rfl, after, ⟨-, rfl⟩, rfl⟩ := wrote
    exact written_plain (by simp) rfl rfl
  | restage s3Key upload bucket now =>
    simp only [write, Option.map_eq_some_iff] at wrote
    obtain ⟨before, rfl, rfl⟩ := wrote
    exact written_plain (by simp [uploadingUpsert]) rfl rfl
  | submit name now =>
    simp only [write, submitUpsert, Option.bind_eq_some_iff, Option.map_eq_some_iff, Option.ite_none_right_eq_some,
      Option.some.injEq] at wrote
    obtain ⟨before, rfl, after, ⟨-, rfl⟩, rfl⟩ := wrote
    exact written_plain (by simp) rfl rfl
  | tick seen =>
    simp only [write, Option.bind_eq_some_iff, Option.ite_none_right_eq_some, Option.some.injEq] at wrote
    obtain ⟨before, rfl, live, rfl⟩ := wrote
    exact written_tick seen live
  | reapStaging now =>
    simp only [write, Option.bind_eq_some_iff, Option.map_eq_some_iff] at wrote
    obtain ⟨before, rfl, after, reaped, rfl⟩ := wrote
    obtain ⟨-, rfl⟩ := reapStaging_eq_some.mp reaped
    exact written_await rfl rfl (Nat.min_le_right _ _)
  | reapSubmitted now =>
    simp only [write, Option.bind_eq_some_iff, Option.map_eq_some_iff] at wrote
    obtain ⟨before, rfl, after, reaped, rfl⟩ := wrote
    exact written_spill reaped (Nat.min_le_right _ _)
  | spill site now =>
    simp only [write, Option.bind_eq_some_iff, Option.map_eq_some_iff] at wrote
    obtain ⟨before, rfl, after, spilled, rfl⟩ := wrote
    exact written_spill spilled le_rfl
  | pushed now =>
    simp only [write, Option.bind_eq_some_iff, Option.ite_none_right_eq_some, Option.some.injEq] at wrote
    obtain ⟨before, rfl, -, rfl⟩ := wrote
    exact written_plain (by simp) rfl rfl
  | rearm now =>
    simp only [write, Option.bind_eq_some_iff, Option.ite_none_right_eq_some, Option.some.injEq] at wrote
    obtain ⟨before, rfl, -, rfl⟩ := wrote
    exact written_plain (by simp) rfl rfl
  | deleted =>
    simp only [write, Option.bind_eq_some_iff, Option.ite_none_right_eq_some, Option.some.injEq] at wrote
    obtain ⟨before, rfl, -, rfl⟩ := wrote
    exact ⟨by simp, by simp [spent], by simp, by simp⟩
  | reset scope facts now => cases wrote

/-- A spent row is only held again, re-staged or deleted. -/
theorem write_of_spent {action : Action} (wrote : write settings row action = some written)
    (parked : spent settings.cloudSubmitMaxAttempts row) :
    written.row = none ∨ written.nodeLossRedrive = false ∧
      ((∃ now, action = .hold now) ∨ ∃ s3Key upload bucket now, action = .restage s3Key upload bucket now) := by
  cases row with
  | none => simp [spent] at parked
  | some before =>
    obtain ⟨held, full⟩ := spent_some.mp parked
    cases action with
    | hold now =>
      cases wrote
      exact .inr ⟨rfl, .inl ⟨now, rfl⟩⟩
    | restage s3Key upload bucket now =>
      cases wrote
      exact .inr ⟨rfl, .inr ⟨s3Key, upload, bucket, now, rfl⟩⟩
    | deleted =>
      simp only [write, Option.bind_some, held, if_true, Option.some.injEq] at wrote
      cases wrote
      exact .inl rfl
    | dispatch backend placement now =>
      simp only [write, Option.bind_some, Option.ite_none_right_eq_some] at wrote
      omega
    | uploaded upload now => simp [write, uploadedFlip, held] at wrote
    | submit name now => simp [write, submitUpsert, held] at wrote
    | tick seen => simp [write, held] at wrote
    | reapStaging now => simp [write, reapStaging, held, CloudJobStatus.staging] at wrote
    | reapSubmitted now => simp [write, reapSubmitted, spillAwaiting, held] at wrote
    | spill site now => cases site <;> simp [write, spillAwaiting, SpillSite.expectStatus, held] at wrote
    | pushed now => simp [write, held] at wrote
    | rearm now => simp [write, held] at wrote
    | reset scope facts now => cases wrote

end Writes

/-! ## What runs keep -/

section Kept

variable {settings : Settings} {state next : State} {written : Write}

/-- The ledger is folded at the ends of chains and nowhere else. -/
theorem advance_budget (spec : Written settings state.row written) :
    (edge settings state written.row = false ∧ (advance settings state written).budget = state.budget) ∨
      (edge settings state written.row = true ∧ ∃ after, written.row = some after ∧
        (advance settings state written).budget =
          some (recordCloudBudgetSpent state.budget after.attempts (losses state.row) written.written)) := by
  cases awaited : written.awaited with
  | none =>
    left
    simp [edge, spec.otherwise awaited, advance, awaited]
  | some attempts =>
    obtain ⟨after, landed, held, rfl⟩ := spec.awaited attempts awaited
    have full : spent settings.cloudSubmitMaxAttempts written.row =
        decide (settings.cloudSubmitMaxAttempts ≤ after.attempts) := by
      simp [landed, spent, held]
    by_cases under : after.attempts < settings.cloudSubmitMaxAttempts
    · left
      have few : ¬ settings.cloudSubmitMaxAttempts ≤ after.attempts := by omega
      simp [edge, full, few, advance, awaited, foldSpentBudgetIfEdge, under]
    · have enough : settings.cloudSubmitMaxAttempts ≤ after.attempts := by omega
      cases parked : spent settings.cloudSubmitMaxAttempts state.row with
      | true =>
        left
        simp [edge, parked, advance, awaited, foldSpentBudgetIfEdge]
      | false =>
        right
        refine ⟨by simp [edge, parked, full, enough], after, landed, ?_⟩
        simp [advance, awaited, foldSpentBudgetIfEdge, under, parked, losses]

structure Kept (settings : Settings) (state : State) : Prop where
  within : ∀ row ∈ state.row, row.attempts ≤ settings.cloudSubmitMaxAttempts
  positive : ∀ budget ∈ state.budget, 1 ≤ budget.chainsSpent
  earlier : ∀ budget ∈ state.before, 1 ≤ budget.chainsSpent
  folded : ∀ row ∈ state.row, spent settings.cloudSubmitMaxAttempts (some row) →
    chainsSpent state.budget = chainsSpent state.before + 1 ∧
      attemptsSpent state.budget = attemptsSpent state.before + row.attempts

theorem kept_initial : Kept settings State.initial where
  within := by simp [State.initial]
  positive := by simp [State.initial]
  earlier := by simp [State.initial]
  folded := by simp [State.initial]

theorem kept_advance (kept : Kept settings state) {action : Action}
    (wrote : write settings state.row action = some written) : Kept settings (advance settings state written) := by
  have spec := write_written wrote
  have within : ∀ row ∈ (advance settings state written).row, row.attempts ≤ settings.cloudSubmitMaxAttempts :=
    spec.within kept.within
  rcases advance_budget spec with ⟨stays, budget⟩ | ⟨ends, after, landed, budget⟩
  · have before : (advance settings state written).before = state.before := by simp [advance, stays]
    refine ⟨within, ?_, ?_, ?_⟩
    · rw [budget]
      exact kept.positive
    · rw [before]
      exact kept.earlier
    · intro row landed parked
      rw [budget, before]
      -- The row was spent before the write, and its attempts were at the cap then as they are now.
      have landed : written.row = some row := landed
      have parkedBefore : spent settings.cloudSubmitMaxAttempts state.row = true := by
        by_contra unspent
        simp [edge, unspent, landed, parked] at stays
      cases there : state.row with
      | none => simp [there, spent] at parkedBefore
      | some old =>
        have folded := kept.folded old there (by rwa [there] at parkedBefore)
        rw [there] at parkedBefore
        have old_full := (spent_some.mp parkedBefore).2
        have full := (spent_some.mp parked).2
        have old_within := kept.within old there
        have row_within := within row landed
        obtain ⟨chains, attempts⟩ := folded
        exact ⟨chains, by omega⟩
  · have before : (advance settings state written).before = state.budget := by simp [advance, ends]
    refine ⟨within, ?_, ?_, ?_⟩
    · rw [budget]
      simp [recordCloudBudgetSpent]
    · rw [before]
      exact kept.positive
    · intro row there parked
      obtain rfl : after = row := Option.some.inj (landed.symm.trans there)
      rw [budget, before]
      exact ⟨rfl, rfl⟩

theorem kept_reset (kept : Kept settings state) (scope : ResetScope) (facts : FileFacts) (now : Int) :
    Kept settings (resetStep state scope facts now) := by
  unfold resetStep
  split
  · rename_i row there
    split
    · rename_i resets
      have within := kept.within row there
      have floor : 1 ≤ row.attempts := by
        have inside := resets.1
        have positive := scope.positive
        simp only [scopeClause, Bool.and_eq_true, decide_eq_true_eq] at inside
        omega
      refine ⟨by simp, ?_, kept.earlier, ?_⟩
      · intro budget after
        cases there : state.budget with
        | none => simp [there, unfoldChain_none] at after
        | some old =>
          have positive := kept.positive old there
          simp only [there, unfoldChain_some resets.2] at after
          split at after
          · cases after
            exact positive
          · split at after
            · cases after
            · cases after
              show 1 ≤ old.chainsSpent - 1
              omega
      · intro row' reset parked
        cases reset
        have := (spent_some.mp parked).2
        simp at this
        omega
    · exact kept
  · exact kept

theorem step_kept (state : State) (action : Action) (next : State) (kept : Kept settings state)
    (stepped : step settings state action = some next) : Kept settings next := by
  cases action with
  | reset scope facts now =>
    cases stepped
    exact kept_reset kept scope facts now
  | _ =>
    simp only [step, Option.map_eq_some_iff] at stepped
    obtain ⟨written, wrote, rfl⟩ := stepped
    exact kept_advance kept wrote

-- Without resets the ledger counts the ends of chains.
def Counts (state : State) : Prop := chainsSpent state.budget = state.ended

theorem step_counts (state : State) (action : Action) (next : State) (counts : Counts state)
    (ordinary : action.isReset = false) (stepped : step settings state action = some next) : Counts next := by
  cases action with
  | reset scope facts now => cases ordinary
  | _ =>
    simp only [step, Option.map_eq_some_iff] at stepped
    obtain ⟨written, wrote, rfl⟩ := stepped
    unfold Counts at counts ⊢
    rcases advance_budget (write_written wrote) with ⟨stays, budget⟩ | ⟨ends, after, landed, budget⟩
    · rw [budget]
      simpa [advance, stays] using counts
    · rw [budget]
      simpa [advance, ends, recordCloudBudgetSpent, chainsSpent] using counts

structure Tallies (settings : Settings) (state : State) : Prop where
  total : nodeLossSpent state.budget = state.lost
  running : spent settings.cloudSubmitMaxAttempts state.row = false → losses state.row = state.current
  parked : spent settings.cloudSubmitMaxAttempts state.row = true → state.current = 0

theorem tallies_advance (tallies : Tallies settings state) {action : Action}
    (wrote : write settings state.row action = some written) (retires : RetiresTally settings state action) :
    Tallies settings (advance settings state written) := by
  have spec := write_written wrote
  rcases advance_budget spec with ⟨stays, budget⟩ | ⟨ends, after, landed, budget⟩
  · refine ⟨?_, ?_, ?_⟩
    · rw [budget]
      simpa [advance, stays] using tallies.total
    · intro unspent
      cases landed : written.row with
      | none => simp [advance, landed, losses]
      | some after =>
        have lost := spec.losses after landed
        have new : losses (advance settings state written).row = after.nodeLossRedrives := by
          simp [advance, landed, losses]
        have current : (advance settings state written).current =
            if written.nodeLossRedrive then state.current + 1 else state.current := by
          rw [landed] at stays
          simp [advance, stays, landed]
        rw [new, current, lost]
        cases before : spent settings.cloudSubmitMaxAttempts state.row with
        | false =>
          rw [tallies.running before]
          split <;> rfl
        | true =>
          -- A spent row leaves `awaiting` with no tally to carry along.
          have none_left : losses state.row = 0 ∧ written.nodeLossRedrive = false := by
            rcases write_of_spent wrote before with gone | ⟨redrive, action⟩
            · simp [landed] at gone
            · refine ⟨?_, redrive⟩
              cases there : state.row with
              | none => rfl
              | some row =>
                rcases action with ⟨now, rfl⟩ | ⟨s3Key, upload, bucket, now, rfl⟩
                · exact retires before row there
                · exact retires before row there
          simp [none_left.1, none_left.2, tallies.parked before]
    · intro parked
      have before : spent settings.cloudSubmitMaxAttempts state.row = true := by
        by_contra unspent
        have parked : spent settings.cloudSubmitMaxAttempts written.row = true := parked
        simp [edge, unspent, parked] at stays
      have current := tallies.parked before
      rcases write_of_spent wrote before with gone | ⟨redrive, -⟩
      · simp [advance, gone]
      · simp [advance, redrive, current]
  · have unspent : spent settings.cloudSubmitMaxAttempts state.row = false := by
      by_contra parked
      simp [edge, parked] at ends
    have parked : spent settings.cloudSubmitMaxAttempts written.row = true := by
      by_contra other
      simp [edge, other] at ends
    refine ⟨?_, ?_, ?_⟩
    · rw [budget, tallies.running unspent]
      simpa [advance, ends, nodeLossSpent, recordCloudBudgetSpent] using tallies.total
    · intro other
      have other : spent settings.cloudSubmitMaxAttempts written.row = false := other
      simp [parked] at other
    · intro
      simp [advance, ends]

theorem step_tallies (state : State) (action : Action) (next : State) (tallies : Tallies settings state)
    (admitted : action.isReset = false ∧ RetiresTally settings state action)
    (stepped : step settings state action = some next) : Tallies settings next := by
  cases action with
  | reset scope facts now => cases admitted.1
  | _ =>
    simp only [step, Option.map_eq_some_iff] at stepped
    obtain ⟨written, wrote, rfl⟩ := stepped
    exact tallies_advance tallies wrote admitted.2

/-- A reset of a spent row whose chain was folded inside the window takes the fold back. -/
theorem reset_restores (kept : Kept settings state) {row : CloudJob} {budget : CloudBudget}
    (there : state.row = some row) (parked : spent settings.cloudSubmitMaxAttempts (some row) = true)
    (folded : state.budget = some budget) {scope : ResetScope} {facts : FileFacts} {now : Int}
    (inScope : scopeClause scope row = true) (classified : disposition row facts = .reset)
    (inside : insideWindow scope budget = true) :
    chainsSpent (resetStep state scope facts now).budget = chainsSpent state.before ∧
      attemptsSpent (resetStep state scope facts now).budget = attemptsSpent state.before := by
  obtain ⟨chains, attempts⟩ := kept.folded row there parked
  rw [folded] at chains attempts
  have after : (resetStep state scope facts now).budget = unfoldChain scope row facts (some budget) := by
    simp [resetStep, there, inScope, classified, folded]
  rw [after, unfoldChain_some classified, if_neg (by simp [inside])]
  simp only [chainsSpent, attemptsSpent, Option.elim_some] at chains attempts ⊢
  split
  · -- The only chain on record: there was no ledger row before its fold.
    have fresh : state.before = none := by
      cases earlier : state.before with
      | none => rfl
      | some earlierBudget =>
        have positive := kept.earlier earlierBudget earlier
        simp only [earlier, Option.elim_some] at chains
        omega
    simp [fresh]
  · simp only [Option.elim_some]
    omega

end Kept

open Phaze.Runs in
/-- Without resets `chains_spent` counts the ended chains, and `node_loss_spent` their node-loss re-drives
as long as no spent row with a tally is held or staged again; a reset of a row that still stands spent
takes its fold back. -/
theorem ledger_counts_ended_chains {settings : Settings} {state : State} (actions : List Action)
    (ran : run (step settings) State.initial actions = some state) :
    ((∀ action ∈ actions, action.isReset = false) → chainsSpent state.budget = state.ended) ∧
      (chainsSpent state.budget = 0 ↔ state.budget = none) ∧
      (Along (step settings) (fun state action => action.isReset = false ∧ RetiresTally settings state action)
        State.initial actions → nodeLossSpent state.budget = state.lost) ∧
      ∀ row budget scope facts now next, state.row = some row →
        spent settings.cloudSubmitMaxAttempts (some row) = true → state.budget = some budget →
        scopeClause scope row = true → disposition row facts = .reset → insideWindow scope budget = true →
        step settings state (.reset scope facts now) = some next →
        chainsSpent next.budget = chainsSpent state.before ∧ attemptsSpent next.budget = attemptsSpent state.before := by
  have kept : Kept settings state := run_invariant step_kept actions kept_initial ran
  refine ⟨?_, ?_, ?_, ?_⟩
  · intro ordinary
    have along : Along (step settings) (fun _ action => action.isReset = false) State.initial actions :=
      along_of_forall ordinary
    exact run_keeps step_counts actions along rfl ran
  · constructor
    · intro none_spent
      cases found : state.budget with
      | none => rfl
      | some budget =>
        have positive := kept.positive budget found
        simp only [chainsSpent, found, Option.elim_some] at none_spent
        omega
    · intro absent
      rw [absent]
      rfl
  · intro along
    have start : Tallies settings State.initial := ⟨rfl, fun _ => rfl, fun _ => rfl⟩
    exact (run_keeps step_tallies actions along start ran).total
  · intro row budget scope facts now next there parked folded inScope classified inside stepped
    cases stepped
    exact reset_restores kept there parked folded inScope classified inside

namespace Spending

open Phaze.Runs

def defaults : Settings :=
  { cloudSubmitMaxAttempts := 3, cloudNodeLossMaxRedrives := 1, cloudRedriveBackoffSec := [120, 600, 1800] }

def pushChain (now : Int) : List Action :=
  [.hold now, .dispatch "push" .compute (now + 1), .spill .pushFailed (now + 2)]

def nodeLost (now : Int) : Observation :=
  { now := now, job := some .failed, workload := none, wedge := none, analysisCompleted := false
    nodeLossReason := some "node_lost", failure := none, jobGone := true, held := false, jobStartedAt := none }

def kueueRun : List Action :=
  [.hold 0, .dispatch "burst" (.kueue "key" "upload" "staging") 1, .uploaded "upload" 2, .submit "phaze-job" 3,
    .tick (nodeLost 4)]

-- The re-driven Job fails until the chain is spent.
def failures : List Action :=
  [1000, 5000, 10000, 20000].flatMap fun now => [.submit "phaze-job" now, .tick { nodeLost now with nodeLossReason := none }]

def scope : ResetScope := ⟨"push", 0, 100, 1, by decide, by decide⟩

def idle : FileFacts := ⟨false, false, false⟩

theorem ended_chain_is_counted :
    (run (step defaults) State.initial (pushChain 0)).map (fun state => (state.ended, attemptsSpent state.budget)) =
        some (1, 3) ∧
      ∀ state, run (step defaults) State.initial (pushChain 0) = some state →
        chainsSpent state.budget = state.ended ∧ nodeLossSpent state.budget = state.lost := by
  refine ⟨by decide, ?_⟩
  intro state ran
  obtain ⟨chains, -, losses, -⟩ := ledger_counts_ended_chains (pushChain 0) ran
  exact ⟨chains (by decide), losses (by decide)⟩

/-- A node-loss re-drive whose chain has not ended is not in the ledger; a second chain on the spent row folds
the one re-drive again; and the reset of a row that was dispatched and reaped after its second chain was folded
takes back one attempt of the three. -/
theorem ledger_lags_and_reset_misses :
    ((run (step defaults) State.initial kueueRun).map fun state => (state.current, state.budget)) = some (1, none) ∧
      ((run (step defaults) State.initial (kueueRun ++ failures ++
          [.hold 50000, .dispatch "push" .compute 50001, .spill .pushFailed 50002])).map
        fun state => (state.ended, state.lost, nodeLossSpent state.budget)) = some (2, 1, 2) ∧
      ((run (step defaults) State.initial (pushChain 0 ++ pushChain 10 ++
          [.hold 20, .dispatch "push" .compute 21, .reapSubmitted 22, .reset scope idle 23])).map
        fun state => (chainsSpent state.budget, attemptsSpent state.budget, attemptsSpent state.before)) =
          some (1, 5, 3) := by
  decide

end Spending

end Phaze.Cloud.Chains
